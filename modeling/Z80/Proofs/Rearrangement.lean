import Z80.Instruction
import Z80.Proofs.Fetch

/-!
# What an instruction behind an index lead can not see

Behind an index lead an instruction uses the register that the lead selects, and
no more of the other one and of the refresh register than it leaves there.  It
therefore does the same when these registers hold something else, and when the
other lead selects the other register.

Main statement: `Operation.execute_rearrange`.
-/

namespace Z80

open Microcode

theorem Microcode.run_map {α β σ : Type} (bus : Bus σ) (change : α → β)
    (code : Microcode α) (state : σ) :
    (change <$> code).run bus state =
      (change (code.run bus state).1, (code.run bus state).2) := by
  rw [map_eq_pure_bind, run_bind]
  rfl

/-- The index register in the other one's place, if they are swapped. -/
def Index.swapped (swaps : Bool) (index : Index) : Index :=
  match swaps, index with
  | false, index => index
  | true, .ix => .iy
  | true, .iy => .ix

namespace Registers

/-- The registers with the refresh register changed and, if they are swapped,
with the index registers in each other's place. -/
def rearrange (swaps : Bool) (change : UInt8 → UInt8) (regs : Registers) :
    Registers :=
  { regs with
    ix := regs.index (Index.ix.swapped swaps)
    iy := regs.index (Index.iy.swapped swaps)
    r := change regs.r }

variable (swaps : Bool) (change : UInt8 → UInt8) (regs : Registers)
  (index : Index)

private theorem index_rearrange :
    (regs.rearrange swaps change).index (index.swapped swaps) =
      regs.index index := by
  cases swaps <;> cases index <;> rfl

theorem get_rearrange (named : Register) :
    (regs.rearrange swaps change).get (.index (index.swapped swaps)) named =
      regs.get (.index index) named := by
  cases swaps <;> cases index <;> cases named <;> rfl

theorem set_rearrange (target : Register) (byte : UInt8) :
    (regs.rearrange swaps change).set (.index (index.swapped swaps)) target byte =
      (regs.set (.index index) target byte).rearrange swaps change := by
  cases swaps <;> cases index <;> cases target <;> rfl

private theorem pair_rearrange (source : Pair) :
    (regs.rearrange swaps change).pair (.index (index.swapped swaps)) source =
      regs.pair (.index index) source := by
  cases swaps <;> cases index <;> cases source <;> rfl

private theorem setPair_rearrange (target : Pair) (word : UInt16) :
    (regs.rearrange swaps change).setPair (.index (index.swapped swaps)) target
        word =
      (regs.setPair (.index index) target word).rearrange swaps change := by
  cases swaps <;> cases index <;> cases target <;> rfl

private theorem stackPair_rearrange (source : StackPair) :
    (regs.rearrange swaps change).stackPair (.index (index.swapped swaps)) source =
      regs.stackPair (.index index) source := by
  cases swaps <;> cases index <;> cases source <;> rfl

end Registers

section Execute

variable (swaps : Bool) (change : UInt8 → UInt8) (index : Index)
  (regs : Registers)

private theorem Operation.update_rearrange
    (outcome : UInt8 → Flags → Outcome UInt8) (target : Operand) :
    update outcome target (.index (index.swapped swaps))
        (regs.rearrange swaps change) =
      Registers.rearrange swaps change <$>
        update outcome target (.index index) regs := by
  cases target with
  | memory => cases swaps <;> cases index <;> rfl
  | register target =>
      simp only [update, Registers.get_rearrange, Registers.set_rearrange]
      rfl

theorem Operation.execute_rearrange (op : Operation)
    (uses : op.usesPointer = true) :
    op.execute (.index (index.swapped swaps)) (regs.rearrange swaps change) =
      Registers.rearrange swaps change <$> op.execute (.index index) regs := by
  cases op with
  | ldRegister target source =>
      cases source with
      | memory => cases swaps <;> cases index <;> cases target <;> rfl
      | register source =>
          simp only [execute, Registers.get_rearrange, Registers.set_rearrange]
          rfl
  | ldMemory source => cases swaps <;> cases index <;> cases source <;> rfl
  | ldImmediate target =>
      cases target with
      | memory => cases swaps <;> cases index <;> rfl
      | register target =>
          simp only [execute, Registers.set_rearrange]
          rfl
  | ldPairImmediate target =>
      simp only [execute, Registers.setPair_rearrange]
      rfl
  | push source =>
      simp only [execute, Registers.stackPair_rearrange]
      rfl
  | pop target => cases swaps <;> cases index <;> cases target <;> rfl
  | arithmetic op source =>
      cases source with
      | memory => cases swaps <;> cases index <;> rfl
      | register source =>
          simp only [execute, Registers.get_rearrange]
          rfl
  | inc target => exact update_rearrange swaps change index regs _ target
  | dec target => exact update_rearrange swaps change index regs _ target
  | addPair source =>
      simp only [execute, Registers.pair_rearrange]
      cases swaps <;> cases index <;> rfl
  | incPair target =>
      simp only [execute, Registers.pair_rearrange, Registers.setPair_rearrange]
      rfl
  | decPair target =>
      simp only [execute, Registers.pair_rearrange, Registers.setPair_rearrange]
      rfl
  | storePointerAbsolute | loadPointerAbsolute | ldStackPointer | exStack
  | jpPointer => cases swaps <;> cases index <;> rfl
  | _ => cases uses

theorem BitOperation.executeIndexed_rearrange (op : BitOperation)
    (displacement : UInt8) :
    op.executeIndexed (index.swapped swaps) displacement
        (regs.rearrange swaps change) =
      Registers.rearrange swaps change <$>
        op.executeIndexed index displacement regs := by
  obtain ⟨action, operand⟩ := op
  simp only [executeIndexed, Registers.index_rearrange]
  cases action with
  | test bit => rfl
  | shift op | reset bit | set bit =>
      cases operand with
      | memory => rfl
      | register target => cases target <;> rfl

end Execute

end Z80
