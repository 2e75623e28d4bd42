import Z80.Proofs.FetchedBytes

/-!
# Bytes that nothing reads

Microcode that neither reads a byte of memory nor fetches it runs alike whatever
the byte is, and leaves it as it was unless something is stored there.

Main statement: `Microcode.run_poke`, on the flat host.
-/

namespace Z80

/-! ## Two writes -/

namespace Memory

variable (memory : Memory) (address : UInt16)

@[simp]
theorem set_set (first second : UInt8) :
    (memory.set address first).set address second = memory.set address second := by
  refine ext fun asked => ?_
  simp only [get_set]
  split <;> rfl

private theorem set_comm {other : UInt16} (different : address ≠ other)
    (byte otherByte : UInt8) :
    (memory.set address byte).set other otherByte =
      (memory.set other otherByte).set address byte := by
  refine ext fun asked => ?_
  simp only [get_set]
  split
  case isTrue here => rw [if_neg fun there => different (there.trans here.symm)]
  case isFalse => rfl

private theorem getWord_set {asked : UInt16} (low : asked ≠ address)
    (high : asked + 1 ≠ address) (byte : UInt8) :
    (memory.set address byte).getWord asked = memory.getWord asked := by
  unfold getWord
  rw [get_set_of_ne memory byte high.symm, get_set_of_ne memory byte low.symm]

end Memory

namespace Flat

/-- The host with a byte of its memory replaced, unless something was stored
there. -/
def pokeUnless (flat : Flat) (stored : List UInt16) (address : UInt16)
    (byte : UInt8) : Flat :=
  if address ∈ stored then flat else flat.poke address byte

variable (flat : Flat) (stored : List UInt16) (address : UInt16) (byte : UInt8)

/-- What is stored over the byte takes its place, and anything else goes beside
it. -/
theorem poke_pokeUnless (target : UInt16) (other : UInt8) :
    (flat.pokeUnless stored address byte).poke target other =
      (flat.poke target other).pokeUnless (stored ++ [target]) address byte := by
  unfold pokeUnless
  by_cases earlier : address ∈ stored
  · have still : address ∈ stored ++ [target] := List.mem_append_left _ earlier
    rw [if_pos earlier, if_pos still]
  · rw [if_neg earlier]
    by_cases same : address = target
    · have now : address ∈ stored ++ [target] := by simp [same]
      rw [if_pos now, same]
      simp only [poke, Memory.set_set]
    · have never : address ∉ stored ++ [target] := by simp [earlier, same]
      rw [if_neg never]
      simp only [poke, Memory.set_comm _ _ same]

private theorem addCycles_pokeUnless (cycles : Nat) :
    (flat.pokeUnless stored address byte).addCycles cycles =
      (flat.addCycles cycles).pokeUnless stored address byte := by
  unfold pokeUnless
  split <;> rfl

private theorem pokeUnless_append (later : List UInt16) :
    flat.pokeUnless (stored ++ later) address byte =
      if address ∈ stored then flat else flat.pokeUnless later address byte := by
  unfold pokeUnless
  by_cases earlier : address ∈ stored
  · simp [earlier]
  · simp [earlier]

end Flat

/-! ## Addresses -/

namespace Transaction

/-- The addresses of the bytes that were read as data, low byte first. -/
def loads : Transaction → List UInt16
  | ⟨.readMemory address, _⟩ => [address]
  | ⟨.readWord address, _⟩ => [address, address + 1]
  | _ => []

/-- The addresses of the bytes that were asked for, as data or as part of an
instruction. -/
def reads (transaction : Transaction) : List UInt16 :=
  transaction.loads ++ transaction.fetches.map Fetch.address

end Transaction

/-! ## Single cycles -/

namespace Cycle

variable {address : UInt16} (byte : UInt8) (flat : Flat)

/-- A byte is read as it was, whatever lies at another address. -/
theorem read_poke {asked : UInt16} (cycles : Nat) (unread : address ∉ [asked]) :
    ((flat.poke address byte).ram.get asked,
        (flat.poke address byte).addCycles cycles) =
      (flat.ram.get asked, (flat.addCycles cycles).poke address byte) :=
  congrArg (·, (flat.addCycles cycles).poke address byte)
    (flat.ram.get_set_of_ne byte (List.ne_of_not_mem_cons unread))

private theorem readWord_poke {asked : UInt16} (cycles : Nat)
    (unread : address ∉ [asked, asked + 1]) :
    ((flat.poke address byte).ram.getWord asked,
        (flat.poke address byte).addCycles cycles) =
      (flat.ram.getWord asked, (flat.addCycles cycles).poke address byte) := by
  have low : address ≠ asked := List.ne_of_not_mem_cons unread
  have high : address ≠ asked + 1 :=
    List.ne_of_not_mem_cons (List.not_mem_of_not_mem_cons unread)
  exact congrArg (·, (flat.addCycles cycles).poke address byte)
    (flat.ram.getWord_set address low.symm high.symm byte)

private theorem perform_poke (cycle : Cycle)
    (unread :
      address ∉ Transaction.reads ⟨cycle, (cycle.perform Flat.bus flat).1⟩) :
    let stored :=
      (Transaction.stores ⟨cycle, (cycle.perform Flat.bus flat).1⟩).map Prod.fst
    cycle.perform Flat.bus (flat.poke address byte) =
      ((cycle.perform Flat.bus flat).1,
        (cycle.perform Flat.bus flat).2.pokeUnless stored address byte) := by
  cases cycle with
  | internal | input | output | tapePatch => rfl
  | readMemory asked => exact read_poke byte flat 3 unread
  | fetchFirst pc => exact read_poke byte flat 4 unread
  | fetchSecond pc => exact read_poke byte flat 4 unread
  | fetchByte pc offset => exact read_poke byte flat 3 unread
  | readWord asked => exact readWord_poke byte flat 6 unread
  | fetchWord pc offset => exact readWord_poke byte flat 6 unread
  | writeMemory target stored =>
      exact congrArg ((), ·)
        ((flat.addCycles 3).poke_pokeUnless [] address byte target stored)
  | writeWord target word =>
      have ran :
          (Cycle.writeWord target word).perform Flat.bus (flat.poke address byte) =
            ((),
              ((((flat.addCycles 3).pokeUnless [] address byte).poke target
                (Word.low word)).addCycles 3).poke (target + 1)
                (Word.high word)) :=
        rfl
      rw [ran, Flat.poke_pokeUnless, Flat.addCycles_pokeUnless,
        Flat.poke_pokeUnless]
      rfl

end Cycle

/-! ## Microcode -/

namespace Microcode

variable {α β σ : Type}

/-- The addresses that are read as data. -/
def loads (bus : Bus σ) (code : Microcode α) (state : σ) : List UInt16 :=
  (code.transactions bus state).flatMap Transaction.loads

/-- The addresses that are read, as data or as part of an instruction. -/
def reads (bus : Bus σ) (code : Microcode α) (state : σ) : List UInt16 :=
  (code.transactions bus state).flatMap Transaction.reads

/-- The addresses that are stored to. -/
def stored (bus : Bus σ) (code : Microcode α) (state : σ) : List UInt16 :=
  ((code.transactions bus state).flatMap Transaction.stores).map Prod.fst

theorem mem_reads_iff (bus : Bus σ) (code : Microcode α) (state : σ)
    (address : UInt16) :
    address ∈ code.reads bus state ↔
      address ∈ code.loads bus state ∨
        address ∈ (code.fetches bus state).map Fetch.address := by
  unfold reads loads fetches
  induction code.transactions bus state with
  | nil => simp
  | cons transaction rest inductionHypothesis =>
      simp only [List.flatMap_cons, List.map_append, List.mem_append,
        inductionHypothesis, Transaction.reads]
      exact or_or_or_comm

/-- Microcode that does not read a byte runs alike whatever the byte is. -/
theorem run_poke (code : Microcode α) (flat : Flat) {address : UInt16}
    (byte : UInt8) (unread : address ∉ code.reads Flat.bus flat) :
    code.run Flat.bus (flat.poke address byte) =
      ((code.run Flat.bus flat).1,
        (code.run Flat.bus flat).2.pokeUnless (code.stored Flat.bus flat) address
          byte) := by
  induction code generalizing flat with
  | done value => rfl
  | step cycle next inductionHypothesis =>
      let performed := cycle.perform Flat.bus flat
      let stores := (Transaction.stores ⟨cycle, performed.1⟩).map Prod.fst
      have here : address ∉ Transaction.reads ⟨cycle, performed.1⟩ :=
        fun read => unread (List.mem_append_left _ read)
      have later : address ∉ (next performed.1).reads Flat.bus performed.2 :=
        fun read => unread (List.mem_append_right _ read)
      have stored :
          (step cycle next).stored Flat.bus flat =
            stores ++ (next performed.1).stored Flat.bus performed.2 :=
        List.map_append
      have ran :
          (step cycle next).run Flat.bus (flat.poke address byte) =
            (next performed.1).run Flat.bus
              (performed.2.pokeUnless stores address byte) := by
        simp only [run, cycle.perform_poke byte flat here]
        rfl
      rw [ran, stored, Flat.pokeUnless_append, Flat.pokeUnless]
      -- Once something is stored over the byte, both runs go on from one host.
      split
      case isTrue => rfl
      case isFalse => exact inductionHypothesis performed.1 performed.2 later

end Microcode

end Z80
