import Z80.Cpu.Command
import Z80.Host.Flat
import Z80.Proofs.Snapshot.RoundTrip

/-!
# Snapshots do not disturb a run

A snapshot leaves out one control bit, which says whether the last instruction
lets an interrupt in at its end.  Every instruction writes that bit before it
is looked at, so a restored processor and the one that was saved cannot be told
apart by what they do.

Main statements: processors that differ in that bit alone take the same step,
and a run from a restored processor is the run from the saved one.
-/

namespace Z80

namespace Cpu

variable {σ : Type}

/-! ## The bit that is left out -/

/-- The processor without the control bit that snapshots leave out. -/
def forgetCheck (cpu : Cpu) : Cpu :=
  { cpu with control := cpu.control.persistent }

theorem step_forgetCheck (bus : Bus σ) (cpu : Cpu) (state : σ) :
    cpu.forgetCheck.step bus state = cpu.step bus state := by
  -- The step begins by running the instruction, and that writes the bit.
  have sameRun :
      cpu.forgetCheck.runInstruction bus state =
        cpu.runInstruction bus state := by
    simp only [runInstruction, forgetCheck, Control.after_persistent]
  simp only [step, sameRun]

private theorem forgetCheck_setProgramCounter (cpu : Cpu) (target : UInt16) :
    (cpu.forgetCheck.setProgramCounter target).forgetCheck =
      (cpu.setProgramCounter target).forgetCheck := by
  by_cases here : target = cpu.regs.pc
  · simp [setProgramCounter, forgetCheck, Control.persistent, here]
  · simp [setProgramCounter, forgetCheck, Control.persistent, here]

end Cpu

namespace Command

open Cpu

variable {σ : Type}

/-- The bus is in the same state, and the processors differ at most in the bit
that snapshots leave out. -/
structure SameButCheck (left right : Cpu × σ) : Prop where
  state : left.2 = right.2
  cpu : left.1.forgetCheck = right.1.forgetCheck

namespace SameButCheck

variable {left middle right : Cpu × σ}

private theorem symm (same : SameButCheck left right) : SameButCheck right left :=
  ⟨same.state.symm, same.cpu.symm⟩

private theorem trans (first : SameButCheck left middle)
    (second : SameButCheck middle right) : SameButCheck left right :=
  ⟨first.state.trans second.state, first.cpu.trans second.cpu⟩

private theorem of_eq (same : left = right) : SameButCheck left right :=
  ⟨congrArg Prod.snd same, congrArg (fun current => current.1.forgetCheck) same⟩

private theorem forgetCheck (current : Cpu × σ) :
    SameButCheck (current.1.forgetCheck, current.2) current :=
  ⟨rfl, rfl⟩

private theorem forgotten_eq (same : SameButCheck left right) :
    (left.1.forgetCheck, left.2) = (right.1.forgetCheck, right.2) := by
  rw [same.state, same.cpu]

end SameButCheck

/-! ## Single commands -/

private theorem apply_forgetCheck (bus : Bus σ) (command : Command)
    (current : Cpu × σ) :
    SameButCheck (command.apply bus (current.1.forgetCheck, current.2))
      (command.apply bus current) := by
  obtain ⟨cpu, state⟩ := current
  cases command with
  | step => exact .of_eq (step_forgetCheck bus cpu state)
  | triggerInterrupt => exact ⟨rfl, rfl⟩
  | clearInterrupt => exact ⟨rfl, rfl⟩
  | triggerNonMaskable => exact ⟨rfl, rfl⟩
  | setProgramCounter target =>
      exact ⟨rfl, forgetCheck_setProgramCounter cpu target⟩
  | setVectorBase byte => exact ⟨rfl, rfl⟩
  | reset => exact ⟨rfl, rfl⟩
  | load data => exact ⟨rfl, rfl⟩

theorem apply_sameButCheck (bus : Bus σ) (command : Command)
    {left right : Cpu × σ} (same : SameButCheck left right) :
    SameButCheck (command.apply bus left) (command.apply bus right) := by
  have leftForgets := apply_forgetCheck bus command left
  rw [same.forgotten_eq] at leftForgets
  exact leftForgets.symm.trans (apply_forgetCheck bus command right)

private theorem step_sameButCheck (bus : Bus σ) {left right : Cpu × σ}
    (same : SameButCheck left right) :
    apply bus .step left = apply bus .step right := by
  have leftStep := step_forgetCheck bus left.1 left.2
  have rightStep := step_forgetCheck bus right.1 right.2
  rw [same.cpu, same.state] at leftStep
  show left.1.step bus left.2 = right.1.step bus right.2
  rw [← rightStep, same.state, leftStep]

/-! ## Runs -/

private theorem run_sameButCheck (bus : Bus σ) (commands : List Command)
    {left right : Cpu × σ} (same : SameButCheck left right) :
    SameButCheck (run bus commands left) (run bus commands right) := by
  induction commands generalizing left right with
  | nil => exact same
  | cons command rest inductionHypothesis =>
      exact inductionHypothesis (apply_sameButCheck bus command same)

/-- The first instruction of a run takes the difference away. -/
theorem run_eq_of_step_mem (bus : Bus σ) {commands : List Command}
    (steps : .step ∈ commands) {left right : Cpu × σ}
    (same : SameButCheck left right) :
    run bus commands left = run bus commands right := by
  induction commands generalizing left right with
  | nil => cases steps
  | cons command rest inductionHypothesis =>
      rcases List.mem_cons.mp steps with first | later
      · subst first
        show run bus rest (apply bus .step left) =
          run bus rest (apply bus .step right)
        rw [step_sameButCheck bus same]
      · exact inductionHypothesis later (apply_sameButCheck bus command same)

end Command

namespace Cpu

open Snapshot

variable {σ : Type}

/-! ## Restored processors -/

theorem load_encode_forgetCheck {version : Version} {cpu target : Cpu}
    (agrees : cpu.JumpAgrees) (kept : version = .v0 → cpu.newPc = none)
    (sameModel : target.model = cpu.model) :
    target.load (encode version cpu) = (.ok (), cpu.forgetCheck) := by
  have keptJump : keptPc version cpu.newPc = cpu.newPc := by
    cases version with
    | v0 =>
        rw [kept rfl]
        rfl
    | v1 => rfl
    | v2 => rfl
  rw [load_encode_kept version cpu target agrees, keptJump,
    persistent_with_jump cpu agrees, sameModel]
  rfl

/-- A processor that was saved and restored behaves as if nothing had happened.
Whatever commands follow, the bus goes through the same states and so does the
processor, but for the bit that snapshots leave out, and once an instruction
has run there is no exception.  Since the commands are arbitrary, this holds
after every one of them. -/
theorem run_restored (bus : Bus σ) (state : σ) (version : Version)
    (cpu target : Cpu) (agrees : cpu.JumpAgrees)
    (kept : version = .v0 → cpu.newPc = none)
    (sameModel : target.model = cpu.model) (commands : List Command) :
    (target.load (encode version cpu)).1 = .ok () ∧
      Command.SameButCheck
        (Command.run bus commands ((target.load (encode version cpu)).2, state))
        (Command.run bus commands (cpu, state)) ∧
      (.step ∈ commands →
        Command.run bus commands ((target.load (encode version cpu)).2, state) =
          Command.run bus commands (cpu, state)) := by
  have restored := load_encode_forgetCheck agrees kept sameModel
  have same := Command.SameButCheck.forgetCheck (cpu, state)
  rw [restored]
  refine ⟨rfl, Command.run_sameButCheck bus commands same, ?_⟩
  intro steps
  exact Command.run_eq_of_step_mem bus steps same

/-- A new processor with an interrupt pending that its last instruction lets
in. -/
def interruptible : Cpu :=
  { Cpu.new .nmos with control := ⟨true, true, false, true, false, false⟩ }

/-- The restored processor differs from the one that was saved, and still the
run is the same. -/
theorem run_restored_interruptible :
    interruptible.JumpAgrees ∧
      ((Cpu.new .nmos).load (encode .v0 interruptible)).2 ≠ interruptible ∧
      Command.run Flat.bus [.setProgramCounter 0x1234, .step]
          (((Cpu.new .nmos).load (encode .v0 interruptible)).2, Flat.new) =
        Command.run Flat.bus [.setProgramCounter 0x1234, .step]
          (interruptible, Flat.new) := by
  have restored :=
    run_restored Flat.bus Flat.new .v0 interruptible (.new .nmos) rfl
      (fun _ => rfl) rfl [.setProgramCounter 0x1234, .step]
  refine ⟨rfl, ?_, restored.2.2 (by decide)⟩
  have loaded : (Cpu.new .nmos).load (encode .v0 interruptible) =
      (.ok (), interruptible.forgetCheck) :=
    load_encode_forgetCheck rfl (fun _ => rfl) rfl
  rw [loaded]
  decide

end Cpu

end Z80
