import Z80.Host.Flat
import Z80.Instruction

/-!
# The instruction at an address

Which instruction a processor fetches depends on at most four bytes of memory.
`Memory.instructionAt` reads it off them without a bus.

Main statements: on the flat host that is the instruction that is fetched, and
what it means for the interrupts at its end is known from its kind.
-/

namespace Z80

/-- The instruction whose bytes lie at an address. -/
def Memory.instructionAt (ram : Memory) (pc : UInt16) : Instruction :=
  match Opcode.ofByte (ram.get pc) with
  | .operation op => .main .hl op
  | .bitLead => .bits (.ofByte (ram.get (pc + 1)))
  | .extendedLead => .extended (.ofByte (ram.get (pc + 1)))
  | .indexLead index =>
      match IndexedOpcode.ofByte (ram.get (pc + 1)) with
      | .operation op => .main (.index index) op
      | .bitLead =>
          .indexedBits index (ram.get (pc + 2)) (.ofByte (ram.get (pc + 3)))
      | .leadIgnored => .ignoredLead

theorem Memory.instructionAt_extended {ram : Memory} {pc : UInt16}
    {opcode : UInt8} (lead : ram.get pc = 0xED)
    (second : ram.get (pc + 1) = opcode) :
    ram.instructionAt pc = .extended (.ofByte opcode) := by
  have leads : Opcode.ofByte 0xED = .extendedLead := by decide
  unfold instructionAt
  rw [lead, leads, second]

namespace Instruction

open Microcode

theorem run_fetch_flat (flat : Flat) (pc : UInt16) :
    ((fetch pc).run Flat.bus flat).1 = flat.ram.instructionAt pc := by
  have firstByte :
      (fetchFirst pc).run Flat.bus flat =
        (flat.ram.get pc, (flat.addCycles 1).addCycles 3) :=
    rfl
  unfold fetch Memory.instructionAt
  rw [run_bind, firstByte]
  cases Opcode.ofByte (flat.ram.get pc) with
  | operation op => rfl
  | bitLead => rfl
  | extendedLead => rfl
  | indexLead index =>
      dsimp only
      unfold fetchIndexed
      rw [run_bind]
      have secondByte :
          ((fetchSecond pc).run Flat.bus
            ((flat.addCycles 1).addCycles 3)).1 = flat.ram.get (pc + 1) :=
        rfl
      rw [secondByte]
      cases IndexedOpcode.ofByte (flat.ram.get (pc + 1)) with
      | operation op => rfl
      | bitLead => rfl
      | leadIgnored => rfl

/-! ## What instructions mean for interrupts -/

/-- `EI`, `DI` and an index lead without effect keep maskable interrupts out
at their end. -/
def DefersInterrupt (instruction : Instruction) : Prop :=
  instruction = .main .hl .ei ∨ instruction = .main .hl .di ∨
    instruction = .ignoredLead

/-- `LD A,I` and `LD A,R`. -/
def LoadsInterruptRegister (instruction : Instruction) : Prop :=
  instruction = .extended .ldAI ∨ instruction = .extended .ldAR

instance (instruction : Instruction) : Decidable instruction.DefersInterrupt :=
  inferInstanceAs (Decidable (_ ∨ _ ∨ _))

instance (instruction : Instruction) :
    Decidable instruction.LoadsInterruptRegister :=
  inferInstanceAs (Decidable (_ ∨ _))

theorem not_defersInterrupt_of_loads {instruction : Instruction}
    (loads : instruction.LoadsInterruptRegister) :
    ¬ instruction.DefersInterrupt := by
  rcases loads with loadsI | loadsR
  · rw [loadsI]
    decide
  · rw [loadsR]
    decide

/-- An opcode keeps its place behind an index lead only if it uses `HL`. -/
theorem usesPointer_of_ofByte {opcode : UInt8} {op : Operation}
    (indexed : IndexedOpcode.ofByte opcode = .operation op) :
    op.usesPointer = true := by
  unfold IndexedOpcode.ofByte at indexed
  split at indexed
  · split at indexed
    · cases indexed
      assumption
    · cases indexed
  · cases indexed
  · cases indexed
  · cases indexed

/-- An index lead has an effect only in front of an operation that uses
`HL`. -/
def WellFormed : Instruction → Prop
  | .main (.index _) op => op.usesPointer = true
  | _ => True

theorem wellFormed_fetch {σ : Type} (bus : Bus σ) (pc : UInt16) (state : σ) :
    ((fetch pc).run bus state).1.WellFormed := by
  unfold fetch
  rw [run_bind]
  cases Opcode.ofByte ((fetchFirst pc).run bus state).1 with
  | operation op => trivial
  | bitLead => trivial
  | extendedLead => trivial
  | indexLead index =>
      dsimp only [fetchIndexed]
      rw [run_bind]
      generalize (fetchSecond pc).run bus _ = second
      cases indexed : IndexedOpcode.ofByte second.1 with
      | operation op => exact usesPointer_of_ofByte indexed
      | bitLead => trivial
      | leadIgnored => trivial

theorem usesPointer_of_instructionAt {ram : Memory} {pc : UInt16}
    {index : Index} {op : Operation}
    (found : ram.instructionAt pc = .main (.index index) op) :
    op.usesPointer = true := by
  unfold Memory.instructionAt at found
  split at found
  · cases found
  · cases found
  · cases found
  · split at found
    · rename_i indexed
      cases found
      exact usesPointer_of_ofByte indexed
    · cases found
    · cases found

theorem boundary_eq_shielded_iff (ram : Memory) (pc : UInt16) :
    (ram.instructionAt pc).boundary = .shielded ↔
      (ram.instructionAt pc).DefersInterrupt := by
  cases found : ram.instructionAt pc with
  | main pointer op =>
      cases pointer with
      | hl => cases op <;> simp [boundary, DefersInterrupt]
      | index index =>
          -- Neither `EI` nor `DI` uses `HL`, so no index lead comes with them.
          have uses := usesPointer_of_instructionAt found
          cases op <;>
            simp [boundary, DefersInterrupt, Operation.usesPointer] at uses ⊢
  | bits op => simp [boundary, DefersInterrupt]
  | indexedBits index displacement op => simp [boundary, DefersInterrupt]
  | extended op => cases op <;> simp [boundary, DefersInterrupt]
  | ignoredLead => simp [boundary, DefersInterrupt]

theorem boundary_eq_sampling_iff (instruction : Instruction) :
    instruction.boundary = .sampling ↔ instruction.LoadsInterruptRegister := by
  cases instruction with
  | main pointer op => cases op <;> simp [boundary, LoadsInterruptRegister]
  | bits op => simp [boundary, LoadsInterruptRegister]
  | indexedBits index displacement op =>
      simp [boundary, LoadsInterruptRegister]
  | extended op => cases op <;> simp [boundary, LoadsInterruptRegister]
  | ignoredLead => simp [boundary, LoadsInterruptRegister]

end Instruction

end Z80
