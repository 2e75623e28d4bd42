import Z80.Cpu.Command
import Z80.Host.Flat
import Z80.Proofs.Frame
import Z80.Proofs.Snapshot.Reader

/-!
# Requests from outside

A requested jump is kept in two places, the jump bit and the target, and a
non-maskable interrupt in one.  Both wait for the next boundary and are gone
after it.  The maskable interrupt is a level: once the line is held it stays so
until it is released.

Main statement: `Command.run_requests`, for every bus and every sequence of
commands, refused snapshots included.
-/

namespace Z80

private theorem Control.settled {control : Control} (noJump : control.setPc = false)
    (noNonMaskable : control.nonMaskable = false) :
    { control with nonMaskable := false, setPc := false } = control := by
  cases control
  cases noJump
  cases noNonMaskable
  rfl

namespace Cpu

variable {σ : Type}

/-- No jump and no non-maskable interrupt waits for the next boundary. -/
structure NothingWaits (cpu : Cpu) : Prop where
  noNonMaskable : cpu.control.nonMaskable = false
  noJump : cpu.control.setPc = false
  noTarget : cpu.newPc = none

private theorem NothingWaits.jumpAgrees {cpu : Cpu} (nothing : cpu.NothingWaits) :
    cpu.JumpAgrees := by
  unfold JumpAgrees
  rw [nothing.noJump, nothing.noTarget]
  rfl

/-- A maskable interrupt that was asked for still is. -/
structure KeepsInterrupt (before after : Cpu) : Prop where
  pending :
    before.control.interruptPending = true →
      after.control.interruptPending = true
  line :
    before.control.interruptLine = true → after.control.interruptLine = true

private theorem KeepsInterrupt.trans {before middle after : Cpu}
    (first : KeepsInterrupt before middle)
    (second : KeepsInterrupt middle after) : KeepsInterrupt before after :=
  ⟨second.pending ∘ first.pending, second.line ∘ first.line⟩

/-! ## What the parts of a step latch

Each part leaves the control state in a closed form, whatever the bus does. -/

section Parts

variable (bus : Bus σ) (cpu : Cpu) (state : σ)

theorem control_leaveHalt :
    cpu.leaveHalt.control = { cpu.control with halted := false } := by
  obtain ⟨regs, ⟨check, pending, halted, line, nonMaskable, setPc⟩, _, _⟩ := cpu
  cases halted <;> rfl

theorem newPc_leaveHalt : cpu.leaveHalt.newPc = cpu.newPc := by
  unfold leaveHalt
  split <;> rfl

/-- Of the control state, accepting an interrupt only ends a halt. -/
theorem control_acceptInterrupt :
    (cpu.acceptInterrupt bus state).1.control =
      { cpu.control with halted := false } := by
  have ended := control_leaveHalt { cpu with regs := cpu.regs.setEnabled false }
  unfold acceptInterrupt
  dsimp only
  split
  · exact ended
  · exact ended
  · exact ended

theorem newPc_acceptInterrupt :
    (cpu.acceptInterrupt bus state).1.newPc = cpu.newPc := by
  have same := newPc_leaveHalt { cpu with regs := cpu.regs.setEnabled false }
  unfold acceptInterrupt
  dsimp only
  split
  · exact same
  · exact same
  · exact same

/-- Jumps and non-maskable interrupts do not stay, and either ends a halt. -/
theorem control_serviceUrgent :
    (cpu.serviceUrgent bus state).1.control =
      { cpu.control with
        halted :=
          cpu.control.halted && !(cpu.control.setPc || cpu.control.nonMaskable)
        nonMaskable := false
        setPc := false } := by
  obtain ⟨regs, ⟨check, pending, halted, line, nonMaskable, setPc⟩, newPc, model⟩ :=
    cpu
  cases setPc <;> cases nonMaskable <;> cases newPc <;>
    simp [serviceUrgent, serviceJump, serviceNonMaskable, runRegisters,
      control_leaveHalt]

private theorem newPc_serviceUrgent :
    (cpu.serviceUrgent bus state).1.newPc =
      if cpu.control.setPc then none else cpu.newPc := by
  obtain ⟨regs, ⟨check, pending, halted, line, nonMaskable, setPc⟩, newPc, model⟩ :=
    cpu
  cases setPc <;> cases nonMaskable <;> cases newPc <;>
    simp [serviceUrgent, serviceJump, serviceNonMaskable, runRegisters,
      newPc_leaveHalt]

/-- The control state once a boundary has been passed. -/
theorem control_service :
    ∃ requests stays,
      (cpu.service bus state).1.control =
        { cpu.control.latch requests with
          halted := cpu.control.halted && stays
          nonMaskable := false
          setPc := false } := by
  refine ⟨(bus.requests state).1, ?_⟩
  unfold service
  dsimp only
  split
  case isTrue urgent => exact ⟨_, control_serviceUrgent bus _ _⟩
  case isFalse notUrgent =>
    rw [Bool.or_eq_true, not_or, Bool.not_eq_true, Bool.not_eq_true] at notUrgent
    have settled := Control.settled notUrgent.1 notUrgent.2
    split
    · refine ⟨false, ?_⟩
      rw [control_acceptInterrupt, ← settled, Bool.and_false]
      rfl
    · refine ⟨true, ?_⟩
      rw [← settled, Bool.and_true]
      rfl

/-- A requested jump is made, and no other target is touched. -/
theorem newPc_service :
    (cpu.service bus state).1.newPc =
      if cpu.control.setPc then none else cpu.newPc := by
  unfold service
  dsimp only
  split
  case isTrue urgent => exact newPc_serviceUrgent bus _ _
  case isFalse notUrgent =>
    rw [Bool.or_eq_true, not_or] at notUrgent
    have noJump : ¬ cpu.control.setPc = true := notUrgent.1
    rw [if_neg noJump]
    split
    · exact newPc_acceptInterrupt bus _ _
    · rfl

/-- The part of a step after a sampling instruction leaves its control state
but for what it latches and for a halt. -/
theorem control_serviceSampled :
    ∃ requests stays,
      (cpu.serviceSampled bus state).1.control =
        { cpu.control.latch requests with
          halted := cpu.control.halted && stays } := by
  refine serviceSampled_elim
    (fun left => ∃ requests stays,
      left.1.control =
        { cpu.control.latch requests with
          halted := cpu.control.halted && stays }) ?_ ?_ ?_ ?_
  · refine ⟨.none, true, ?_⟩
    rw [Control.latch_none, Bool.and_true]
  · refine ⟨(bus.requests state).1, true, ?_⟩
    rw [Bool.and_true]
    rfl
  · intro _
    refine ⟨(bus.requests state).1, false, ?_⟩
    rw [control_acceptInterrupt, Bool.and_false]
    rfl
  · intro left latched _
    exact latched

private theorem newPc_serviceSampled :
    (cpu.serviceSampled bus state).1.newPc = cpu.newPc := by
  refine serviceSampled_elim (fun left => left.1.newPc = cpu.newPc) rfl rfl ?_ ?_
  · intro _
    exact newPc_acceptInterrupt bus _ _
  · intro left same _
    exact same

end Parts

/-! ## Steps -/

theorem KeepsInterrupt.of_latch {before after : Cpu} (requests : Requests)
    (pending :
      after.control.interruptPending =
        (before.control.latch requests).interruptPending)
    (line :
      after.control.interruptLine =
        (before.control.latch requests).interruptLine) :
    KeepsInterrupt before after := by
  refine ⟨?_, ?_⟩
  · intro waits
    rw [pending, Control.latch, waits, Bool.true_or]
  · intro held
    rw [line, Control.latch, held, Bool.true_or]

private theorem keepsInterrupt_service (bus : Bus σ) (cpu : Cpu) (state : σ) :
    KeepsInterrupt cpu (cpu.service bus state).1 := by
  obtain ⟨requests, stays, control⟩ := control_service bus cpu state
  refine .of_latch requests ?_ ?_
  · rw [control]
  · rw [control]

private theorem keepsInterrupt_serviceSampled (bus : Bus σ) (cpu : Cpu) (state : σ) :
    KeepsInterrupt cpu (cpu.serviceSampled bus state).1 := by
  obtain ⟨requests, stays, control⟩ := control_serviceSampled bus cpu state
  refine .of_latch requests ?_ ?_
  · rw [control]
  · rw [control]

private theorem keepsInterrupt_runInstruction (bus : Bus σ) (cpu : Cpu) (state : σ) :
    KeepsInterrupt cpu (cpu.runInstruction bus state).1.2 := by
  have control :
      (cpu.runInstruction bus state).1.2.control =
        cpu.control.after (cpu.runInstruction bus state).1.1.boundary :=
    rfl
  generalize (cpu.runInstruction bus state).1.1.boundary = boundary at control
  refine .of_latch .none ?_ ?_
  · rw [control, Control.interruptPending_after, Control.latch_none]
  · rw [control, Control.latch_none]
    cases boundary <;> rfl

/-- A step never takes a maskable interrupt back. -/
theorem keepsInterrupt_step (bus : Bus σ) (cpu : Cpu) (state : σ) :
    KeepsInterrupt cpu (cpu.step bus state).1 := by
  have ran := keepsInterrupt_runInstruction bus cpu state
  unfold step
  dsimp only
  split
  · have sampled := keepsInterrupt_serviceSampled bus
      (cpu.runInstruction bus state).1.2 (cpu.runInstruction bus state).2
    exact (ran.trans sampled).trans (keepsInterrupt_service bus _ _)
  · exact ran.trans (keepsInterrupt_service bus _ _)

private theorem jumpAgrees_serviceSampled (bus : Bus σ) {cpu : Cpu} (state : σ)
    (agrees : cpu.JumpAgrees) :
    (cpu.serviceSampled bus state).1.JumpAgrees := by
  obtain ⟨requests, stays, control⟩ := control_serviceSampled bus cpu state
  unfold JumpAgrees
  rw [control, newPc_serviceSampled]
  exact agrees

/-- Whatever waits for a boundary is served there. -/
theorem nothingWaits_service (bus : Bus σ) {cpu : Cpu} (state : σ)
    (agrees : cpu.JumpAgrees) : (cpu.service bus state).1.NothingWaits := by
  obtain ⟨requests, stays, control⟩ := control_service bus cpu state
  refine ⟨congrArg Control.nonMaskable control, congrArg Control.setPc control, ?_⟩
  rw [newPc_service]
  split
  case isTrue => rfl
  case isFalse noJump =>
    -- Without the bit there is no target, since the two agree.
    have noTarget : cpu.newPc.isSome = false :=
      agrees.symm.trans (Bool.eq_false_iff.mpr noJump)
    exact Option.isSome_eq_false_iff.mp noTarget |> Option.isNone_iff_eq_none.mp

theorem nothingWaits_step (bus : Bus σ) {cpu : Cpu} (state : σ)
    (agrees : cpu.JumpAgrees) : (cpu.step bus state).1.NothingWaits := by
  have ran : (cpu.runInstruction bus state).1.2.JumpAgrees := by
    have sameBit :
        (cpu.runInstruction bus state).1.2.control.setPc = cpu.control.setPc :=
      Control.setPc_after _ _
    unfold JumpAgrees
    rw [sameBit]
    exact agrees
  unfold step
  dsimp only
  split
  · exact nothingWaits_service bus _ (jumpAgrees_serviceSampled bus _ ran)
  · exact nothingWaits_service bus _ ran

/-! ## Commands -/

theorem jumpAgrees_new (model : Model) : (Cpu.new model).JumpAgrees :=
  rfl

private theorem jumpAgrees_setProgramCounter (cpu : Cpu) (target : UInt16) :
    (cpu.setProgramCounter target).JumpAgrees := by
  unfold setProgramCounter
  split <;> rfl

end Cpu

namespace Snapshot

/-- The bit and the target of a jump are kept together or dropped together. -/
theorem jumpAgrees_readBody (version : Version) (model : Model) :
    Reader.Gives (readBody version model) Cpu.JumpAgrees := by
  have together :
      Reader.Gives (readControl version)
        fun read => read.1.setPc = read.2.isSome := by
    refine .bind fun word => ?_
    dsimp only
    split
    · exact .bind fun pending => .pure rfl
    · exact .bind fun pending => .pure rfl
  refine .bind fun regs => together.bind_of ?_
  intro read agrees
  exact .pure agrees

private theorem jumpAgrees_decode {model : Model} {data : List UInt8} {loaded : Cpu}
    (decoded : decode model data = .ok loaded) : loaded.JumpAgrees := by
  unfold decode at decoded
  split at decoded
  · cases decoded
  · split at decoded
    · cases decoded
    · split at decoded
      case h_1 => cases decoded
      case h_2 version body tag found read =>
        cases decoded
        exact jumpAgrees_readBody _ _ _ _ _ read
      case h_3 => cases decoded

end Snapshot

theorem Cpu.jumpAgrees_load (cpu : Cpu) (data : List UInt8) :
    (cpu.load data).2.JumpAgrees := by
  unfold load
  dsimp only
  split
  case h_1 loaded decoded => exact Snapshot.jumpAgrees_decode decoded
  case h_2 => rfl

namespace Command

variable {σ : Type}

/-- The commands that may take a maskable interrupt back. -/
def MayRelease : Command → Prop
  | .clearInterrupt | .reset | .load _ => True
  | .step | .triggerInterrupt | .triggerNonMaskable | .setProgramCounter _
  | .setVectorBase _ => False

theorem apply_jumpAgrees (bus : Bus σ) (command : Command) {cpu : Cpu}
    (state : σ) (agrees : cpu.JumpAgrees) :
    (command.apply bus (cpu, state)).1.JumpAgrees := by
  cases command with
  | step => exact (Cpu.nothingWaits_step bus state agrees).jumpAgrees
  | setProgramCounter target => exact cpu.jumpAgrees_setProgramCounter target
  | load data => exact cpu.jumpAgrees_load data
  | reset => rfl
  | _ => exact agrees

theorem run_jumpAgrees (bus : Bus σ) (commands : List Command)
    {current : Cpu × σ} (agrees : current.1.JumpAgrees) :
    (run bus commands current).1.JumpAgrees := by
  induction commands generalizing current with
  | nil => exact agrees
  | cons command rest inductionHypothesis =>
      exact inductionHypothesis (apply_jumpAgrees bus command current.2 agrees)

private theorem keepsInterrupt_apply (bus : Bus σ) {command : Command} (cpu : Cpu)
    (state : σ) (keeps : ¬ command.MayRelease) :
    Cpu.KeepsInterrupt cpu (command.apply bus (cpu, state)).1 := by
  cases command with
  | step => exact Cpu.keepsInterrupt_step bus cpu state
  | triggerInterrupt => exact ⟨fun _ => rfl, fun _ => rfl⟩
  | setProgramCounter target =>
      unfold apply
      dsimp only
      unfold Cpu.setProgramCounter
      split
      · exact ⟨id, id⟩
      · exact ⟨id, id⟩
  | clearInterrupt => exact absurd trivial keeps
  | reset => exact absurd trivial keeps
  | load data => exact absurd trivial keeps
  | _ => exact ⟨id, id⟩

/-- Whatever a host does to a new processor, the jump bit says whether there is
a target.  From every state that is reached so, a step leaves no jump and no
non-maskable interrupt behind, and only a release of the line, a reset or a
snapshot can take a maskable interrupt back. -/
theorem run_requests (bus : Bus σ) (model : Model) (commands : List Command)
    (state : σ) :
    let reached := run bus commands (Cpu.new model, state)
    reached.1.JumpAgrees ∧
      (apply bus .step reached).1.NothingWaits ∧
      ∀ command : Command, ¬ command.MayRelease →
        Cpu.KeepsInterrupt reached.1 (command.apply bus reached).1 := by
  intro reached
  have agrees : reached.1.JumpAgrees :=
    run_jumpAgrees bus commands (Cpu.jumpAgrees_new model)
  refine ⟨agrees, Cpu.nothingWaits_step bus reached.2 agrees, ?_⟩
  intro command keeps
  exact keepsInterrupt_apply bus reached.1 reached.2 keeps

/-- A snapshot that is refused, and then every kind of request. -/
def demanding : List Command :=
  [.load [0x01, 0x00], .setProgramCounter 0x1234, .triggerNonMaskable,
    .triggerInterrupt]

/-- The step serves the jump and the non-maskable interrupt together, and the
maskable one goes on waiting. -/
theorem run_requests_demanding :
    (run Flat.bus demanding (Cpu.new .nmos, Flat.new)).1.newPc = some 0x1234 ∧
      (run Flat.bus demanding
          (Cpu.new .nmos, Flat.new)).1.control.nonMaskable = true ∧
      ¬ MayRelease .step ∧
      (run Flat.bus (demanding ++ [.step])
          (Cpu.new .nmos, Flat.new)).1.NothingWaits ∧
      (run Flat.bus (demanding ++ [.step])
          (Cpu.new .nmos, Flat.new)).1.control.interruptPending = true := by
  obtain ⟨_, nothing, keeps⟩ := run_requests Flat.bus .nmos demanding Flat.new
  have kept := keeps .step id
  rw [run_append]
  exact ⟨rfl, rfl, id, nothing, kept.pending rfl⟩

end Command

end Z80
