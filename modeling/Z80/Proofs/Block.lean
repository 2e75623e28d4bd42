import Z80.Execute.Block

/-!
# Rounds of a block operation

Main statement: whether a repeating block operation stays at its own address
can be told from the registers that a round leaves.
-/

namespace Z80

/-- A counter that is one before it is counted down is zero afterwards. -/
theorem sub_one_beq_zero (counter : UInt8) :
    (counter - 1 == 0) = decide (counter = 1) := by
  rw [Bool.eq_iff_iff, beq_iff_eq, decide_eq_true_iff]
  grind

namespace BlockOperation

open Microcode

variable {σ : Type}

def GoesOn (op : BlockOperation) (left : Registers) : Prop :=
  op.repeats = true ∧
    match op.action with
    | .load => left.bc ≠ 0
    | .compare => left.bc ≠ 0 ∧ left.f.zero = false
    | .input | .output => left.b ≠ 0

instance : (op : BlockOperation) → (left : Registers) → Decidable (op.GoesOn left)
  | ⟨.load, _, _⟩, _ | ⟨.input, _, _⟩, _ | ⟨.output, _, _⟩, _ =>
      inferInstanceAs (Decidable (_ ∧ _))
  | ⟨.compare, _, _⟩, _ => inferInstanceAs (Decidable (_ ∧ _ ∧ _))

theorem fst_run_finish (bus : Bus σ) (again last : Nat) (more : Bool)
    (regs : Registers) (state : σ) :
    ((finish again last more regs).run bus state).1 =
      if more then regs else regs.advance 2 := by
  cases more <;> rfl

theorem fst_run_finishPort (bus : Bus σ) (op : BlockOperation)
    (regs : Registers) (state : σ) :
    ((op.finishPort regs).run bus state).1 =
      if op.repeats && !regs.f.zero then regs else regs.advance 2 := by
  unfold finishPort
  cases op.repeats && !regs.f.zero <;> rfl

private theorem goesOn_advance (op : BlockOperation) (regs : Registers) :
    op.GoesOn (regs.advance 2) ↔ op.GoesOn regs :=
  Iff.rfl

/-- Registers that stay where they are exactly when the operation goes on. -/
theorem pc_ite_goesOn {op : BlockOperation} {more : Bool} {regs : Registers}
    (goesOn : op.GoesOn regs ↔ more = true) :
    (if more then regs else regs.advance 2).pc =
      if op.GoesOn (if more then regs else regs.advance 2) then regs.pc
      else regs.pc + 2 := by
  cases more with
  | true =>
      have again : op.GoesOn regs := goesOn.mpr rfl
      rw [if_pos rfl, if_pos again]
  | false =>
      have finished : ¬ op.GoesOn (regs.advance 2) := by
        rw [goesOn_advance, goesOn]
        simp
      rw [if_neg Bool.false_ne_true, if_neg finished]
      rfl

private theorem pc_executeLoad (bus : Bus σ) {op : BlockOperation} (regs : Registers)
    (state : σ) (action : op.action = .load) :
    ((op.executeLoad regs).run bus state).1.pc =
      if op.GoesOn ((op.executeLoad regs).run bus state).1 then regs.pc
      else regs.pc + 2 := by
  simp only [executeLoad, run_bind, fst_run_finish]
  refine pc_ite_goesOn ?_
  simp only [GoesOn, action, loadFlags, Bool.and_eq_true, bne_iff_ne]
  rfl

private theorem pc_executeCompare (bus : Bus σ) {op : BlockOperation}
    (regs : Registers) (state : σ) (action : op.action = .compare) :
    ((op.executeCompare regs).run bus state).1.pc =
      if op.GoesOn ((op.executeCompare regs).run bus state).1 then regs.pc
      else regs.pc + 2 := by
  simp only [executeCompare, run_bind, fst_run_finish]
  refine pc_ite_goesOn ?_
  simp only [GoesOn, action, compareFlags, Bool.and_eq_true, bne_iff_ne,
    Bool.not_eq_true', and_assoc]
  rfl

/-- The zero bit that a port operation leaves is that of its counter. -/
theorem pc_finishPort (bus : Bus σ) {op : BlockOperation} {regs : Registers}
    (state : σ) (ports : op.action = .input ∨ op.action = .output)
    (counted : regs.f.zero = (regs.b == 0)) :
    ((op.finishPort regs).run bus state).1.pc =
      if op.GoesOn ((op.finishPort regs).run bus state).1 then regs.pc
      else regs.pc + 2 := by
  rw [fst_run_finishPort]
  refine pc_ite_goesOn ?_
  rw [counted]
  rcases ports with action | action
  · simp [GoesOn, action]
  · simp [GoesOn, action]

/-- A round either stays at the operation or moves past it, as the registers
that it leaves tell. -/
theorem pc_execute (bus : Bus σ) (op : BlockOperation) (regs : Registers)
    (state : σ) :
    ((op.execute regs).run bus state).1.pc =
      if op.GoesOn ((op.execute regs).run bus state).1 then regs.pc
      else regs.pc + 2 := by
  unfold execute
  cases action : op.action with
  | load => exact pc_executeLoad bus regs state action
  | compare => exact pc_executeCompare bus regs state action
  | input =>
      simp only [executeInput, run_bind]
      exact pc_finishPort bus _ (.inl action) rfl
  | output =>
      simp only [executeOutput, run_bind]
      exact pc_finishPort bus _ (.inr action) rfl

end BlockOperation

end Z80
