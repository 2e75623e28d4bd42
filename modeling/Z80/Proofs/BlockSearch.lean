import Z80.Proofs.BlockRun

/-!
# Block searches

`CPIR` and `CPDR` compare the accumulator with one byte after the other until
they find it or their counter has run out.  Both may happen at the same byte.

Main statement: `Cpu.run_blockSearch`, for every memory, every counter and both
directions.
-/

namespace Z80

/-! ## The first match -/

/-- How far from an address the first byte of a given value lies, among a number
of bytes. -/
def Memory.firstMatch? (ram : Memory) (decrement : Bool) (start : UInt16)
    (byte : UInt8) (count : Nat) : Option Nat :=
  (List.range count).find? fun places =>
    ram.get (Word.walk decrement start places) == byte

section FirstMatch

variable {ram : Memory} {decrement : Bool} {start : UInt16} {byte : UInt8}
  {count places : Nat}

private theorem Memory.firstMatch?_eq_some_iff :
    ram.firstMatch? decrement start byte count = some places ↔
      places < count ∧ ram.get (Word.walk decrement start places) = byte ∧
        ∀ nearer < places,
          ram.get (Word.walk decrement start nearer) ≠ byte := by
  unfold firstMatch?
  rw [List.find?_range_eq_some, List.mem_range, and_left_comm]
  simp only [beq_iff_eq, Bool.not_eq_true', beq_eq_false_iff_ne]

private theorem Memory.firstMatch?_eq_none_iff :
    ram.firstMatch? decrement start byte count = none ↔
      ∀ places < count, ram.get (Word.walk decrement start places) ≠ byte := by
  unfold firstMatch?
  rw [List.find?_range_eq_none]
  simp only [Bool.not_eq_true', beq_eq_false_iff_ne]

end FirstMatch

/-- A search among a number of bytes ends at the one that lies this far away.
It is the first that matches or, failing that, the last of them. -/
structure Memory.SearchEnds (ram : Memory) (decrement : Bool) (start : UInt16)
    (byte : UInt8) (count places : Nat) : Prop where
  within : places < count
  passed : ∀ nearer < places, ram.get (Word.walk decrement start nearer) ≠ byte
  found :
    (ram.firstMatch? decrement start byte count).isSome = true ↔
      ram.get (Word.walk decrement start places) = byte
  exhausted :
    ram.get (Word.walk decrement start places) ≠ byte → places + 1 = count

/-- The number of bytes that a search looks at: those up to the first match, or
all of them. -/
def Memory.searchLength (ram : Memory) (decrement : Bool) (start : UInt16)
    (byte : UInt8) (count : Nat) : Nat :=
  match ram.firstMatch? decrement start byte count with
  | some places => places + 1
  | none => count

private theorem Memory.exists_searchEnds (ram : Memory) (decrement : Bool)
    (start : UInt16) (byte : UInt8) {count : Nat} (positive : 0 < count) :
    ∃ places,
      ram.searchLength decrement start byte count = places + 1 ∧
        ram.SearchEnds decrement start byte count places := by
  unfold searchLength
  cases search : ram.firstMatch? decrement start byte count with
  | some places =>
      obtain ⟨within, found, passed⟩ := firstMatch?_eq_some_iff.mp search
      refine ⟨places, rfl, within, passed, ?_, fun other => absurd found other⟩
      rw [search]
      simp [found]
  | none =>
      have absent := firstMatch?_eq_none_iff.mp search
      have lastOther := absent (count - 1) (by omega)
      refine ⟨count - 1, ?_, by omega, ?_, ?_, fun _ => by omega⟩
      · exact (Nat.sub_add_cancel positive).symm
      · intro nearer earlier
        exact absent nearer (by omega)
      · rw [search]
        simp [lastOther]

namespace BlockOperation

/-- The flags of the comparison of two bytes in a search: the sign and the half
borrow of the difference, and bits 1 and 3 of what is left of it when the half
borrow is taken off as well.  The parity and carry bits are clear. -/
def comparison (accumulator byte : UInt8) : Flags :=
  let difference := accumulator - byte
  let borrow : Bool := accumulator.toNat % 16 < byte.toNat % 16
  let rest := difference - .ofNat borrow.toNat
  { sign := Byte.testBit difference 7
    zero := byte == accumulator
    bit5 := Byte.testBit rest 1
    half := borrow
    bit3 := Byte.testBit rest 3
    parity := false
    subtract := true
    carry := false }

private theorem compareFlags_eq (byte : UInt8) (regs : Registers) :
    compareFlags byte regs =
      { comparison regs.a byte with
        parity := regs.bc != 0
        carry := regs.f.carry } := by
  have difference : regs.a - byte - .ofNat false.toNat = regs.a - byte :=
    UInt8.sub_zero _
  have zero : (regs.a - byte == 0) = (byte == regs.a) := by
    rw [Bool.eq_iff_iff, beq_iff_eq, beq_iff_eq, UInt8.sub_eq_iff_eq_add,
      UInt8.zero_add]
    exact eq_comm
  unfold compareFlags comparison Alu.sub
  simp only [difference, Flags.ofSign, zero]
  rfl

section Searched

variable (decrement : Bool) (regs : Registers) (ram : Memory)

/-- The flags of a block search after a number of rounds. -/
def searchedFlags : Nat → Flags
  | 0 => regs.f
  | done + 1 =>
      { comparison regs.a (ram.get (Word.walk decrement regs.hl done)) with
        parity := regs.bc - .ofNat (done + 1) != 0
        carry := regs.f.carry }

/-- The registers of a block search after a number of rounds. -/
def searchedRegisters (done : Nat) : Registers :=
  { (regs.setHl (Word.walk decrement regs.hl done)).setBc
      (regs.bc - .ofNat done) with
    f := searchedFlags decrement regs ram done }

private theorem searchedRegisters_zero :
    searchedRegisters decrement regs ram 0 = regs := by
  have bc : regs.bc - .ofNat 0 = regs.bc := UInt16.sub_zero _
  unfold searchedRegisters
  rw [Word.walk_zero, bc, Registers.setHl_hl, Registers.setBc_bc]
  rfl

private theorem compareFlags_searched (done : Nat) (stepped : Registers)
    (flags : stepped.f = searchedFlags decrement regs ram done)
    (accumulator : stepped.a = regs.a)
    (counter : stepped.bc = regs.bc - .ofNat (done + 1)) :
    compareFlags (ram.get (Word.walk decrement regs.hl done)) stepped =
      searchedFlags decrement regs ram (done + 1) := by
  rw [compareFlags_eq, flags, accumulator, counter]
  cases done <;> rfl

end Searched

private theorem passes_compare (decrement repeats : Bool) (regs : Registers)
    (flat : Flat) (done : Nat) :
    passes ⟨.compare, decrement, repeats⟩ (regs, flat) done =
      (searchedRegisters decrement regs flat.ram done, flat) := by
  induction done with
  | zero =>
      rw [searchedRegisters_zero]
      rfl
  | succ done inductionHypothesis =>
      have stepped := stepCounted_walk ⟨.compare, decrement, repeats⟩ regs
        (searchedRegisters decrement regs flat.ram done) done
        (Word.ofBytes_high_low _) (Word.ofBytes_high_low _)
      have hl :
          (searchedRegisters decrement regs flat.ram done).hl =
            Word.walk decrement regs.hl done :=
        Word.ofBytes_high_low _
      have flags := compareFlags_searched decrement regs flat.ram done
        (((searchedRegisters decrement regs flat.ram done).setHl
            (Word.walk decrement regs.hl (done + 1))).setBc
          (regs.bc - UInt16.ofNat (done + 1)))
        rfl rfl (Word.ofBytes_high_low _)
      rw [passes, inductionHypothesis]
      simp only [pass, stepped, hl]
      refine Prod.ext ?_ rfl
      exact congrArg
        (fun f =>
          { (regs.setHl (Word.walk decrement regs.hl (done + 1))).setBc
              (regs.bc - .ofNat (done + 1)) with
            f := f })
        flags

/-- A block search goes on until its counter has run out or it has found the
byte. -/
theorem goesOn_searched_iff (decrement : Bool) (regs : Registers) (ram : Memory)
    {done : Nat} (bound : done < rounds 65536 regs.bc.toNat) :
    GoesOn ⟨.compare, decrement, true⟩
        (searchedRegisters decrement regs ram (done + 1)) ↔
      done + 1 ≠ rounds 65536 regs.bc.toNat ∧
        ram.get (Word.walk decrement regs.hl done) ≠ regs.a := by
  have bc :
      (searchedRegisters decrement regs ram (done + 1)).bc =
        regs.bc - .ofNat (done + 1) :=
    Word.ofBytes_high_low _
  have zero :
      (searchedRegisters decrement regs ram (done + 1)).f.zero =
        (ram.get (Word.walk decrement regs.hl done) == regs.a) :=
    rfl
  simp only [GoesOn, true_and, bc, zero, beq_eq_false_iff_ne]
  exact and_congr_left' (not_congr (Word.sub_ofNat_eq_zero_iff (by omega) bound))

end BlockOperation

/-- A repeating block search takes one step for each byte that it looks at.  In
the end the zero bit tells whether the byte was found and the parity bit whether
the counter is above zero; the carry bit is as it was, and the other flags are
those of the last comparison.  The memory is as it was. -/
theorem Cpu.run_blockSearch (cpu : Cpu) (flat : Flat) (decrement : Bool)
    (quiet : ¬ cpu.EventDue)
    (held : flat.ram.HoldsBlock cpu.regs.pc ⟨.compare, decrement, true⟩) :
    let size := rounds 65536 cpu.regs.bc.toNat
    let found := flat.ram.firstMatch? decrement cpu.regs.hl cpu.regs.a size
    let count := flat.ram.searchLength decrement cpu.regs.hl cpu.regs.a size
    let last := flat.ram.get (Word.walk decrement cpu.regs.hl (count - 1))
    let counter := cpu.regs.bc - .ofNat count
    cpu.MovesAfter flat count ∧
      cpu.run Flat.bus count flat =
        (cpu.leaving
            ((Registers.refresh
                { (cpu.regs.setHl (Word.walk decrement cpu.regs.hl count)).setBc
                    counter with
                  f :=
                    { BlockOperation.comparison cpu.regs.a last with
                      zero := found.isSome
                      parity := counter != 0
                      carry := cpu.regs.f.carry } }
                (.ofNat (2 * count))).advance 2),
          { flat with cycles := flat.cycles + (21 * (count - 1) + 16) }) ∧
      (found = some (size - 1) →
        (cpu.run Flat.bus count flat).1.regs.f.zero = true ∧
          (cpu.run Flat.bus count flat).1.regs.f.parity = false) := by
  have positive : 0 < rounds 65536 cpu.regs.bc.toNat := rounds_pos (by omega)
  have closed := BlockOperation.passes_compare decrement true cpu.regs flat
  have goesOn := @BlockOperation.goesOn_searched_iff decrement cpu.regs flat.ram
  obtain ⟨places, length, ends⟩ :=
    flat.ram.exists_searchEnds decrement cpu.regs.hl cpu.regs.a positive
  obtain ⟨moves, ran⟩ :
      cpu.MovesAfter flat (places + 1) ∧
        cpu.run Flat.bus (places + 1) flat =
          cpu.completed flat ⟨.compare, decrement, true⟩ (places + 1) := by
    refine run_block quiet (by omega) ?_ ?_
    · intro done earlier
      rw [closed]
      exact held
    · intro done started bound
      obtain ⟨before, rfl⟩ : ∃ before, done = before + 1 := ⟨done - 1, by omega⟩
      have within := ends.within
      rw [closed, goesOn (by omega)]
      constructor
      · rintro ⟨notAll, other⟩ same
        obtain rfl : before = places := by omega
        exact notAll (ends.exhausted other)
      · intro different
        exact ⟨by omega, ends.passed before (by omega)⟩
  have zero :
      (flat.ram.firstMatch? decrement cpu.regs.hl cpu.regs.a
          (rounds 65536 cpu.regs.bc.toNat)).isSome =
        (flat.ram.get (Word.walk decrement cpu.regs.hl places) == cpu.regs.a) := by
    rw [Bool.eq_iff_iff, ends.found, beq_iff_eq]
  unfold completed at ran
  rw [closed] at ran
  dsimp only
  rw [length, zero]
  refine ⟨moves, ran, ?_⟩
  intro foundLast
  have atLast : places + 1 = rounds 65536 cpu.regs.bc.toNat := by
    rw [← length, Memory.searchLength, foundLast]
    exact Nat.sub_add_cancel positive
  have ranOut : cpu.regs.bc - .ofNat (places + 1) = 0 :=
    (Word.sub_ofNat_eq_zero_iff (by omega) (by omega)).mpr atLast
  rw [foundLast] at zero
  rw [ran]
  refine ⟨zero.symm, ?_⟩
  show (cpu.regs.bc - .ofNat (places + 1) != 0) = false
  rw [ranOut]
  rfl

/-- The byte is found in the second of two rounds, with which the counter runs
out as well. -/
theorem Cpu.run_blockSearch_lastByte :
    ¬ searching.EventDue ∧
      searched.ram.HoldsBlock searching.regs.pc ⟨.compare, false, true⟩ ∧
      searched.ram.firstMatch? false searching.regs.hl searching.regs.a 2 = some 1 ∧
      searching.MovesAfter searched 2 ∧
      (searching.run Flat.bus 2 searched).1.regs.f.zero = true ∧
      (searching.run Flat.bus 2 searched).1.regs.f.parity = false := by
  have quiet : ¬ searching.EventDue := by
    simp [EventDue, searching, Cpu.new, Cpu.reset, Registers.zero,
      Control.assertInterrupt, Control.none]
  have held :
      searched.ram.HoldsBlock searching.regs.pc ⟨.compare, false, true⟩ :=
    ⟨by decide, by decide⟩
  have found :
      searched.ram.firstMatch? false searching.regs.hl searching.regs.a 2 =
        some 1 := by
    decide
  have size : rounds 65536 searching.regs.bc.toNat = 2 := by decide
  have length :
      searched.ram.searchLength false searching.regs.hl searching.regs.a 2 = 2 := by
    rw [Memory.searchLength, found]
  obtain ⟨moves, _, atLast⟩ := run_blockSearch searching searched false quiet held
  rw [size, length] at moves atLast
  exact ⟨quiet, held, found, moves, atLast found⟩

end Z80
