import Mathlib.Data.List.Induction
import Z80.Host.Flat

/-!
# Loading bytes

A list of bytes is written at consecutive addresses, and behind the top of the
address space it goes on at the bottom.  A list that is longer than the address
space comes to the same addresses again, and what it wrote there is lost.

Main statement: `Flat.loaded_load`, what every address holds afterwards.
-/

namespace Z80

namespace Memory

/-- The last place of a list of bytes that falls on an address, when the list is
written from another address on. -/
structure IsLastPlace (address : UInt16) (length : Nat) (target : UInt16)
    (place : Nat) : Prop where
  within : place < length
  falls : (address.toNat + place) % 65536 = target.toNat
  last : ∀ later, place < later → later < length →
    (address.toNat + later) % 65536 ≠ target.toNat

section LastPlace

variable {address target : UInt16} {length place : Nat}

theorem isLastPlace_of_falls
    (falls : (address.toNat + length) % 65536 = target.toNat) :
    IsLastPlace address (length + 1) target length where
  within := Nat.lt_succ_self length
  falls := falls
  last := fun _ behind within => absurd (Nat.lt_succ_iff.mp within) (Nat.not_le.mpr behind)

/-- It stays the last one when the list grows by a byte that falls elsewhere. -/
theorem IsLastPlace.succ (lastPlace : IsLastPlace address length target place)
    (elsewhere : (address.toNat + length) % 65536 ≠ target.toNat) :
    IsLastPlace address (length + 1) target place where
  within := Nat.lt_succ_of_lt lastPlace.within
  falls := lastPlace.falls
  last := by
    intro later behind within
    obtain earlier | rfl := Nat.lt_succ_iff_lt_or_eq.mp within
    · exact lastPlace.last later behind earlier
    · exact elsewhere

private theorem IsLastPlace.unique {other : Nat}
    (lastPlace : IsLastPlace address length target place)
    (otherLast : IsLastPlace address length target other) : place = other := by
  obtain before | same | behind := Nat.lt_trichotomy place other
  · exact absurd otherLast.falls (lastPlace.last other before otherLast.within)
  · exact same
  · exact absurd lastPlace.falls (otherLast.last place behind lastPlace.within)

end LastPlace

/-- Write bytes at consecutive addresses of a buffer of any size, which fails at
an address that the buffer does not have. -/
def loadBuffer? (buffer : ByteArray) (address : UInt16) :
    List UInt8 → Option ByteArray
  | [] => some buffer
  | byte :: rest =>
      if within : address.toNat < buffer.size then
        loadBuffer? (buffer.set address.toNat byte within) (address + 1) rest
      else
        none

section Load

variable (memory : Memory) (address : UInt16)

/-- A memory has every address. -/
theorem loadBuffer?_bytes (data : List UInt8) :
    loadBuffer? memory.bytes address data =
      some (memory.load address data).bytes := by
  induction data generalizing memory address with
  | nil => rfl
  | cons byte rest inductionHypothesis =>
      unfold loadBuffer?
      rw [dif_pos (memory.toNat_lt_size address)]
      exact inductionHypothesis (memory.set address byte) (address + 1)

theorem load_append (first second : List UInt8) :
    memory.load address (first ++ second) =
      (memory.load address first).load (address + UInt16.ofNat first.length)
        second := by
  induction first generalizing memory address with
  | nil =>
      have here : address + UInt16.ofNat 0 = address := UInt16.add_zero address
      rw [List.nil_append, List.length_nil, here]
      rfl
  | cons byte rest inductionHypothesis =>
      have further :
          address + 1 + UInt16.ofNat rest.length =
            address + UInt16.ofNat (rest.length + 1) := by
        rw [UInt16.ofNat_add, UInt16.add_assoc, UInt16.add_comm 1]
        rfl
      rw [List.cons_append, List.length_cons, ← further]
      exact inductionHypothesis (memory.set address byte) (address + 1)

/-- The last byte is written on top of the ones before it. -/
theorem get_load_concat (data : List UInt8) (byte : UInt8) (target : UInt16) :
    (memory.load address (data ++ [byte])).get target =
      if (address.toNat + data.length) % 65536 = target.toNat then byte
      else (memory.load address data).get target := by
  have falls :
      address + UInt16.ofNat data.length = target ↔
        (address.toNat + data.length) % 65536 = target.toNat := by
    rw [← UInt16.toNat_inj, UInt16.toNat_add, UInt16.toNat_ofNat', Nat.add_mod_mod]
  rw [load_append]
  exact (get_set _ _ target byte).trans (if_congr falls rfl rfl)

/-- By induction on the list from its end, since what was written last is what is
found. -/
theorem get_load (data : List UInt8) (target : UInt16) :
    (∃ place, IsLastPlace address data.length target place ∧
        data[place]? = some ((memory.load address data).get target)) ∨
      (∀ place < data.length, (address.toNat + place) % 65536 ≠ target.toNat) ∧
        (memory.load address data).get target = memory.get target := by
  induction data using List.reverseRecOn with
  | nil => exact .inr ⟨fun place within => absurd within (Nat.not_lt_zero place), rfl⟩
  | append_singleton data byte inductionHypothesis =>
      rw [List.length_append, List.length_singleton, get_load_concat]
      by_cases falls : (address.toNat + data.length) % 65536 = target.toNat
      · rw [if_pos falls]
        exact .inl ⟨data.length, isLastPlace_of_falls falls, List.getElem?_concat_length⟩
      · rw [if_neg falls]
        obtain ⟨place, lastPlace, found⟩ | ⟨nowhere, kept⟩ := inductionHypothesis
        · refine .inl ⟨place, lastPlace.succ falls, ?_⟩
          rw [List.getElem?_append_left lastPlace.within, found]
        · refine .inr ⟨?_, kept⟩
          intro place within
          obtain earlier | rfl := Nat.lt_succ_iff_lt_or_eq.mp within
          · exact nowhere place earlier
          · exact falls

end Load

end Memory

namespace Flat

/-- What is left when bytes were loaded. -/
structure Loaded (flat : Flat) (address : UInt16) (data : List UInt8)
    (left : Flat) : Prop where
  written : ∀ target place, Memory.IsLastPlace address data.length target place →
    data[place]? = some (left.peek target)
  kept : ∀ target, (¬ ∃ place, Memory.IsLastPlace address data.length target place) →
    left.peek target = flat.peek target
  /-- No byte is written outside of memory. -/
  within : Memory.loadBuffer? flat.ram.bytes address data = some left.ram.bytes
  /-- Ports, the record of port writes and the count of cycles stay as they were. -/
  others : left = { flat with ram := left.ram }
  /-- More bytes go on behind these. -/
  more : ∀ rest,
    flat.load address (data ++ rest) =
      left.load (address + UInt16.ofNat data.length) rest

/-- Loading puts every byte in its place, and of the bytes that fall on one
address the last one stays there. -/
theorem loaded_load (flat : Flat) (address : UInt16) (data : List UInt8) :
    Loaded flat address data (flat.load address data) := by
  constructor
  case written =>
    intro target place lastPlace
    obtain ⟨other, otherLast, found⟩ | ⟨nowhere, _⟩ :=
      flat.ram.get_load address data target
    · rw [lastPlace.unique otherLast]
      exact found
    · exact absurd lastPlace.falls (nowhere place lastPlace.within)
  case kept =>
    intro target nowhere
    obtain ⟨place, lastPlace, _⟩ | ⟨_, kept⟩ := flat.ram.get_load address data target
    · exact absurd ⟨place, lastPlace⟩ nowhere
    · exact kept
  case within => exact flat.ram.loadBuffer?_bytes address data
  case others => rfl
  case more =>
    intro rest
    unfold load
    rw [Memory.load_append]

/-- A list that goes all the way round and one byte further. -/
theorem loaded_load_allRound :
    let data := List.replicate 65536 0x11 ++ [0x22]
    Memory.IsLastPlace 0x8000 data.length 0x8000 65536 ∧
      (Flat.new.load 0x8000 data).peek 0x8000 = 0x22 := by
  have length : (List.replicate 65536 (0x11 : UInt8)).length = 65536 :=
    List.length_replicate
  generalize List.replicate 65536 (0x11 : UInt8) = round at length
  have lastPlace : Memory.IsLastPlace 0x8000 (round ++ [0x22]).length 0x8000 65536 := by
    rw [List.length_append, length]
    exact Memory.isLastPlace_of_falls (by decide)
  have written := (loaded_load Flat.new 0x8000 (round ++ [0x22])).written _ _ lastPlace
  have found : (round ++ [0x22])[65536]? = some 0x22 := by
    rw [← length]
    exact List.getElem?_concat_length
  exact ⟨lastPlace, Option.some.inj (written.symm.trans found)⟩

end Flat

end Z80
