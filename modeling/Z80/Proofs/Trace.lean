import Z80.Host.Traced
import Z80.Proofs.Agreement

/-!
# Traces

The machine cycles that microcode asks of a bus, in order.

Main statement: the tracing bus records them and changes nothing else.
-/

namespace Z80

variable {α β σ : Type}

namespace Microcode

/-- The machine cycles that are performed, with their answers. -/
def transactions (bus : Bus σ) : Microcode α → σ → List Transaction
  | .done _, _ => []
  | .step cycle next, state =>
      let (answer, state) := cycle.perform bus state
      ⟨cycle, answer⟩ :: (next answer).transactions bus state

@[simp]
theorem transactions_bind (bus : Bus σ) (code : Microcode α)
    (next : α → Microcode β) (state : σ) :
    transactions bus (code >>= next) state =
      transactions bus code state ++
        transactions bus (next (run bus code state).1)
          (run bus code state).2 := by
  induction code generalizing state with
  | done value => rfl
  | step cycle rest inductionHypothesis =>
      exact congrArg (_ :: ·) (inductionHypothesis _ _)

end Microcode

namespace Traced

theorem perform_bus (inner : Bus σ) (cycle : Cycle) (traced : Traced σ) :
    cycle.perform (bus inner) traced = record inner cycle traced := by
  cases cycle <;> rfl

/-- Microcode runs on the tracing bus as it does on the bus inside. -/
theorem run_bus (inner : Bus σ) (code : Microcode α) (traced : Traced σ) :
    code.run (bus inner) traced =
      ((code.run inner traced.inner).1,
        { traced with
          inner := (code.run inner traced.inner).2
          trace := traced.trace ++ code.transactions inner traced.inner }) := by
  induction code generalizing traced with
  | done value => simp [Microcode.run, Microcode.transactions]
  | step cycle next inductionHypothesis =>
      simp only [Microcode.run, perform_bus, record, inductionHypothesis,
        Microcode.transactions, List.append_assoc, List.singleton_append]

/-- The records are all that a tracing bus adds. -/
theorem agreement (inner : Bus σ) :
    Bus.Agreement (fun traced state => traced.inner = state) (bus inner)
      inner := by
  refine ⟨?_, ?_, ?_, ?_⟩
  · intro cycle traced state start
    subst start
    rw [perform_bus]
    exact ⟨rfl, rfl⟩
  · intro traced state start
    subst start
    exact ⟨rfl, rfl⟩
  · intro traced state start
    subst start
    rfl
  · intro event traced state start
    subst start
    rfl

end Traced

end Z80
