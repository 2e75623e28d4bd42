import Z80.Proofs.Fetch
import Z80.Proofs.Frame

/-!
# The interrupt enable latches

`EI` and `DI` set both latches, and a return from an interrupt copies the
second into the first.  No other instruction touches them, whatever the bus
answers, unless the host does so itself in a patched program.

Main statement: with both latches clear, every instruction but `EI` leaves them
clear.
-/

namespace Z80

variable {σ : Type}

namespace Registers

def latches (regs : Registers) : Bool × Bool :=
  (regs.iff1, regs.iff2)

/-- Both latches are clear, so that no maskable interrupt is accepted. -/
def Disabled (regs : Registers) : Prop :=
  regs.iff1 = false ∧ regs.iff2 = false

theorem Disabled.of_latches {left right : Registers}
    (same : left.latches = right.latches) (disabled : right.Disabled) :
    left.Disabled := by
  obtain ⟨first, second⟩ := Prod.mk.inj same
  exact ⟨first.trans disabled.1, second.trans disabled.2⟩

end Registers

/-! ## Instructions -/

/-- A patched program leaves the latches as they are. -/
def Bus.PatchKeepsLatches (bus : Bus σ) : Prop :=
  ∀ regs state, (bus.tapePatch regs state).1.latches = regs.latches

namespace Instruction

private theorem disabled_changeHidden {instruction : Instruction}
    (notEi : ∀ pointer, instruction ≠ .main pointer .ei) {regs : Registers}
    (disabled : regs.Disabled) :
    (instruction.changeHidden regs).Disabled := by
  cases instruction with
  | main pointer op =>
      cases op with
      | ei => exact absurd rfl (notEi pointer)
      | di => exact ⟨rfl, rfl⟩
      | _ => exact disabled
  | extended op =>
      cases op with
      | retn => exact ⟨disabled.2, disabled.2⟩
      | _ => exact disabled
  | _ => exact disabled

end Instruction

theorem Cpu.latches_leaveHalt (cpu : Cpu) :
    cpu.leaveHalt.regs.latches = cpu.regs.latches := by
  unfold leaveHalt
  split <;> rfl

/-- Without `EI` the latches stay clear. -/
theorem Cpu.disabled_runInstruction {bus : Bus σ}
    (patch : bus.PatchKeepsLatches) {cpu : Cpu} {state : σ}
    (notEi : (cpu.runInstruction bus state).1.1 ≠ .main .hl .ei)
    (disabled : cpu.regs.Disabled) :
    (cpu.runInstruction bus state).1.2.regs.Disabled := by
  have latches :=
    view_runInstruction Registers.latches cpu state (fun _ => rfl) patch
  refine .of_latches latches (Instruction.disabled_changeHidden ?_ disabled)
  intro pointer
  cases pointer with
  | hl => exact notEi
  | index index =>
      -- The opcode of `EI` has no place behind an index lead.
      have wellFormed :=
        Instruction.wellFormed_fetch bus cpu.regs.pc state
      rw [← fst_runInstruction bus cpu state] at wellFormed
      intro isEi
      rw [isEi] at wellFormed
      exact Bool.false_ne_true wellFormed

end Z80
