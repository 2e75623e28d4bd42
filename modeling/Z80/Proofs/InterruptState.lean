import Z80.Proofs.Acknowledge
import Z80.Proofs.Boundary
import Z80.Proofs.Requests
import Z80.Proofs.Snapshot.Rejection

/-!
# What always holds of the interrupt state

The first enable latch is never set alone, there are three interrupt modes, and
a maskable interrupt is pending exactly while its line is held.  Each of these is
kept in separate registers and bits, and nothing but the way they are changed
holds them together.

Main statement: `Cpu.reachable_consistent`, for every processor that comes of a
new one, snapshots included.
-/

namespace Z80

variable {σ : Type}

/-- The latches and the interrupt mode. -/
def Registers.settings (regs : Registers) : Bool × Bool × UInt8 :=
  (regs.iff1, regs.iff2, regs.im)

namespace Cpu

structure Consistent (cpu : Cpu) : Prop where
  /-- The first latch is set only together with the second. -/
  latches : cpu.regs.iff1 = true → cpu.regs.iff2 = true
  mode : cpu.regs.im = 0 ∨ cpu.regs.im = 1 ∨ cpu.regs.im = 2
  line : cpu.control.interruptPending = cpu.control.interruptLine

namespace Consistent

private theorem of_settings {before after : Cpu}
    (settings : after.regs.settings = before.regs.settings)
    (line : after.control.interruptPending = after.control.interruptLine)
    (consistent : before.Consistent) : after.Consistent := by
  obtain ⟨first, others⟩ := Prod.mk.inj settings
  obtain ⟨second, mode⟩ := Prod.mk.inj others
  refine ⟨?_, ?_, line⟩
  · rw [first, second]
    exact consistent.latches
  · rw [mode]
    exact consistent.mode

/-- With the first latch clear, the second does not matter. -/
theorem of_shut {before after : Cpu} (shut : after.regs.iff1 = false)
    (spared : after.regs.spared = before.regs.spared)
    (line : after.control.interruptPending = after.control.interruptLine)
    (consistent : before.Consistent) : after.Consistent := by
  have mode : after.regs.im = before.regs.im := by
    have sparedMode := congrArg Registers.im spared
    exact sparedMode
  refine ⟨?_, ?_, line⟩
  · intro set
    exact absurd (shut.symm.trans set) Bool.false_ne_true
  · rw [mode]
    exact consistent.mode

/-! ## Instructions -/

/-- `EI` and `DI` set both latches, a return from an interrupt copies the second
into the first, and there are opcodes for three modes. -/
theorem changeHidden {cpu : Cpu} (consistent : cpu.Consistent)
    (instruction : Instruction) :
    { cpu with regs := instruction.changeHidden cpu.regs }.Consistent := by
  obtain ⟨latches, mode, line⟩ := consistent
  cases instruction with
  | main pointer op =>
      cases op with
      | ei => exact ⟨id, mode, line⟩
      | di => exact ⟨id, mode, line⟩
      | _ => exact ⟨latches, mode, line⟩
  | extended op =>
      cases op with
      | retn => exact ⟨id, mode, line⟩
      | im target =>
          refine ⟨latches, ?_, line⟩
          match target with
          | 0 => exact .inl rfl
          | 1 => exact .inr (.inl rfl)
          | 2 => exact .inr (.inr rfl)
      | _ => exact ⟨latches, mode, line⟩
  | _ => exact ⟨latches, mode, line⟩

section Parts

variable {bus : Bus σ} {cpu : Cpu} (consistent : cpu.Consistent) (state : σ)

include consistent

private theorem runInstruction (patch : bus.PatchKeeps Registers.settings) :
    (cpu.runInstruction bus state).1.2.Consistent := by
  have settings :=
    view_runInstruction Registers.settings cpu state (fun _ => rfl) patch
  have control :
      (cpu.runInstruction bus state).1.2.control =
        cpu.control.after (cpu.runInstruction bus state).1.1.boundary :=
    rfl
  have refreshed (count : UInt8) :
      { cpu with regs := cpu.regs.refresh count }.Consistent :=
    ⟨consistent.latches, consistent.mode, consistent.line⟩
  refine .of_settings settings ?_ ((refreshed _).changeHidden _)
  rw [control, Control.interruptPending_after, consistent.line]
  cases (cpu.runInstruction bus state).1.1.boundary <;> rfl

/-! ## Service -/

theorem poll : (cpu.poll bus state).1.Consistent := by
  refine ⟨consistent.latches, consistent.mode, ?_⟩
  exact congrArg (· || (bus.requests state).1.interrupt) consistent.line

private theorem serviceJump : (cpu.serviceJump bus state).1.Consistent := by
  unfold Cpu.serviceJump
  cases cpu.newPc with
  | none => exact ⟨consistent.latches, consistent.mode, consistent.line⟩
  | some target => exact ⟨consistent.latches, consistent.mode, consistent.line⟩

private theorem serviceNonMaskable :
    (cpu.serviceNonMaskable bus state).1.Consistent := by
  have control := control_leaveHalt { cpu with control.nonMaskable := false }
  refine consistent.of_shut rfl (spared_serviceNonMaskable bus cpu state) ?_
  exact (congrArg Control.interruptPending control).trans <|
    consistent.line.trans (congrArg Control.interruptLine control).symm

theorem acceptInterrupt : (cpu.acceptInterrupt bus state).1.Consistent := by
  have shut : (cpu.acceptInterrupt bus state).1.regs.iff1 = false := by
    have left := latches_leaveHalt { cpu with regs := cpu.regs.setEnabled false }
    have first := (Prod.mk.inj left).1
    unfold Cpu.acceptInterrupt
    dsimp only
    split
    · exact first
    · exact first
    · exact first
  refine consistent.of_shut shut (spared_acceptInterrupt bus cpu state) ?_
  rw [control_acceptInterrupt]
  exact consistent.line

private theorem service : (cpu.service bus state).1.Consistent := by
  have polled : (cpu.poll bus state).1.Consistent := consistent.poll state
  refine service_elim (fun left => left.1.Consistent) polled ?_ ?_ ?_
  · exact polled.serviceJump _
  · intro left consistent
    exact consistent.serviceNonMaskable _
  · intro _ _
    exact polled.acceptInterrupt _

private theorem serviceSampled : (cpu.serviceSampled bus state).1.Consistent := by
  have polled : (cpu.poll bus state).1.Consistent := consistent.poll state
  refine serviceSampled_elim (fun left => left.1.Consistent) consistent polled
    ?_ ?_
  · intro _
    exact polled.acceptInterrupt _
  · intro left consistent _
    exact ⟨consistent.latches, consistent.mode, consistent.line⟩

private theorem step (patch : bus.PatchKeeps Registers.settings) :
    (cpu.step bus state).1.Consistent := by
  have ran := consistent.runInstruction state patch
  unfold Cpu.step
  dsimp only
  split
  · exact (ran.serviceSampled _).service _
  · exact ran.service _

end Parts

end Consistent

/-! ## Commands and snapshots -/

private theorem consistent_new (model : Model) : (Cpu.new model).Consistent :=
  ⟨id, .inl rfl, rfl⟩

private theorem Consistent.apply {bus : Bus σ} {cpu : Cpu} (consistent : cpu.Consistent)
    (patch : bus.PatchKeeps Registers.settings) (state : σ) {command : Command}
    (noLoad : ∀ data, command ≠ .load data) :
    (command.apply bus (cpu, state)).1.Consistent := by
  have ⟨latches, mode, line⟩ := consistent
  cases command with
  | step => exact consistent.step state patch
  | load data => exact absurd rfl (noLoad data)
  | reset => exact ⟨id, .inl rfl, rfl⟩
  | triggerInterrupt => exact ⟨latches, mode, rfl⟩
  | clearInterrupt => exact ⟨latches, mode, rfl⟩
  | setProgramCounter target =>
      unfold Command.apply
      dsimp only
      unfold Cpu.setProgramCounter
      split
      · exact ⟨latches, mode, line⟩
      · exact ⟨latches, mode, line⟩
  | _ => exact ⟨latches, mode, line⟩

/-- The processors that come of a new one by running instructions, by requests
from outside, and by snapshots that are refused or that were saved from such a
processor.  The bus may be another one each time. -/
inductive Reachable : Cpu → Prop where
  | new (model : Model) : Reachable (.new model)
  | command {σ : Type} {bus : Bus σ} {cpu : Cpu} (reachable : Reachable cpu)
      (patch : bus.PatchKeeps Registers.settings) (state : σ) (command : Command)
      (noLoad : ∀ data, command ≠ .load data) :
      Reachable (command.apply bus (cpu, state)).1
  | refused {cpu : Cpu} {data : List UInt8} {error : Snapshot.Error}
      (reachable : Reachable cpu) (refused : (cpu.load data).1 = .error error) :
      Reachable (cpu.load data).2
  | restored {cpu saved : Cpu} (reachable : Reachable cpu)
      (source : Reachable saved) (version : Snapshot.Version) :
      Reachable (cpu.load (Snapshot.encode version saved)).2

namespace Reachable

private theorem jumpAgrees {cpu : Cpu} (reachable : Reachable cpu) :
    cpu.JumpAgrees := by
  induction reachable with
  | new model => exact jumpAgrees_new model
  | command _ _ state command _ inductionHypothesis =>
      exact Command.apply_jumpAgrees _ command state inductionHypothesis
  | refused _ _ _ => exact jumpAgrees_load _ _
  | restored _ _ _ _ _ => exact jumpAgrees_load _ _

private theorem consistent {cpu : Cpu} (reachable : Reachable cpu) :
    cpu.Consistent := by
  induction reachable with
  | new model => exact consistent_new model
  | command reachable patch state command noLoad inductionHypothesis =>
      exact inductionHypothesis.apply patch state noLoad
  | refused reachable refused _ =>
      rw [load_refused refused]
      exact consistent_new _
  | restored reachable source version _ saved =>
      rw [load_encode_kept version _ _ source.jumpAgrees]
      exact ⟨saved.latches, saved.mode, saved.line⟩

private theorem run {bus : Bus σ} (patch : bus.PatchKeeps Registers.settings)
    {commands : List Command} (noLoad : ∀ data, .load data ∉ commands)
    {current : Cpu × σ} (reachable : Reachable current.1) :
    Reachable (Command.run bus commands current).1 := by
  induction commands generalizing current with
  | nil => exact reachable
  | cons command rest inductionHypothesis =>
      simp only [List.mem_cons, not_or, forall_and] at noLoad
      obtain ⟨noFirst, noLater⟩ := noLoad
      refine inductionHypothesis noLater ?_
      exact reachable.command patch current.2 command
        fun data same => noFirst data same.symm

end Reachable

/-! ## What the parity bit shows -/

section Sampling

variable (inner : Bus σ) (cpu : Cpu) (counted : Counted σ)

/-- A parity bit that shows the second latch goes on to show it, if that latch
is the same behind the boundary. -/
theorem parity_service_serviceSampled
    (shown : cpu.regs.f.parity = cpu.regs.iff2)
    (same :
      let sampled := cpu.serviceSampled (Counted.bus inner) counted
      (sampled.1.service (Counted.bus inner) sampled.2).1.regs.iff2 =
        cpu.regs.iff2) :
    let sampled := cpu.serviceSampled (Counted.bus inner) counted
    (sampled.1.service (Counted.bus inner) sampled.2).1.regs.f.parity =
      cpu.regs.iff2 := by
  obtain ⟨kept, spared, keeps⟩ :=
    spared_serviceSampled (Counted.bus inner) cpu counted
  dsimp only at same ⊢
  generalize cpu.serviceSampled (Counted.bus inner) counted = sampled
    at spared keeps same ⊢
  have flags :
      (sampled.1.service (Counted.bus inner) sampled.2).1.regs.f.parity =
        (cpu.regs.f.parity && kept) := by
    have left := spared_service (Counted.bus inner) sampled.1 sampled.2
    exact congrArg (fun regs : Registers => regs.f.parity) (left.trans spared)
  rw [flags, shown]
  cases set : cpu.regs.iff2 with
  | false => rfl
  | true =>
      rw [set] at same
      refine keeps ?_
      cases service_served inner sampled.1 sampled.2 with
      | passed passed => exact passed.second.symm.trans same
      | accepted accepted =>
          have shut := accepted.disabled.2.symm.trans same
          exact absurd shut Bool.false_ne_true

/-- Unless an interrupt is accepted, `LD A,I` and `LD A,R` show the second
latch. -/
theorem parity_step
    (loads :
      (cpu.runInstruction (Counted.bus inner)
        counted).1.1.LoadsInterruptRegister)
    (notAccepted :
      (cpu.step (Counted.bus inner) counted).2.accepted = counted.accepted) :
    (cpu.step (Counted.bus inner) counted).1.regs.f.parity = cpu.regs.iff2 := by
  have sampling := (Instruction.boundary_eq_sampling_iff _).mpr loads
  have shown := parity_runInstruction (Counted.bus inner) cpu counted sampling
  have read := iff2_runInstruction (Counted.bus inner) cpu counted sampling
  have count := runInstruction_accepted inner cpu counted
  have same :
      (cpu.step (Counted.bus inner) counted).1.regs.iff2 =
        (cpu.runInstruction (Counted.bus inner) counted).1.2.regs.iff2 := by
    cases step_served inner cpu counted with
    | passed passed => exact passed.second
    | accepted accepted =>
        have one := accepted.count
        rw [notAccepted, count] at one
        omega
  rw [step_of_sampling (Counted.bus inner) cpu counted sampling] at same ⊢
  rw [parity_service_serviceSampled inner _ _ shown same, read]

end Sampling

/-- For every processor that comes of a new one, the first latch is set only
together with the second, the interrupt mode is one of three, and a maskable
interrupt is pending exactly while its line is held.  So if `LD A,I` or `LD A,R`
leaves the parity bit clear and no interrupt was accepted, interrupts were
disabled. -/
theorem reachable_consistent {cpu : Cpu} (reachable : Reachable cpu) :
    cpu.Consistent ∧
      ∀ {σ : Type} (bus : Bus σ) (state : σ),
        (cpu.runInstruction bus state).1.1.LoadsInterruptRegister →
        Command.accepted bus [.step] (cpu, state) = 0 →
        (cpu.step bus state).1.regs.f.parity = false →
        cpu.regs.Disabled := by
  have consistent := reachable.consistent
  refine ⟨consistent, ?_⟩
  intro σ bus state loads notAccepted clear
  have sameStep := (Command.apply_counted bus .step cpu (.start state)).answer
  have alike := (Counted.agreement bus).alike
  have sameRun := (runInstruction_matching alike cpu (.start state) _ rfl).answer
  have loadsCounted :
      (cpu.runInstruction (Counted.bus bus)
        (.start state)).1.1.LoadsInterruptRegister := by
    rw [sameRun]
    exact loads
  have shown := parity_step bus cpu (.start state) loadsCounted notAccepted
  have shut : cpu.regs.iff2 = false := by
    rw [← shown, ← clear]
    exact congrArg (fun left : Cpu => left.regs.f.parity) sameStep
  refine ⟨Bool.eq_false_iff.mpr ?_, shut⟩
  intro set
  exact absurd (shut.symm.trans (consistent.latches set)) Bool.false_ne_true

/-- The end of `EI`, where a non-maskable interrupt is taken while a maskable one
waits. -/
def nested : Cpu :=
  (Command.run Flat.bus [.triggerInterrupt, .triggerNonMaskable, .step]
    (.new .nmos, Flat.new.load 0 [0xFB])).1

/-- Only the first latch was cleared, and the snapshot keeps that.  In a
processor with both latches clear `LD A,R` shows it, even while an interrupt
waits. -/
theorem reachable_consistent_nested :
    let restored := ((Cpu.new .cmos).load (Snapshot.encode .v2 nested)).2
    let waiting := (Cpu.new .nmos).triggerInterrupt
    let loading := Flat.new.load 0 [0xED, 0x5F]
    restored.Reachable ∧ restored.Consistent ∧
      restored.regs.iff1 = false ∧ restored.regs.iff2 = true ∧
      restored.control.interruptPending = true ∧
      waiting.Reachable ∧
      (waiting.step Flat.bus loading).1.regs.f.parity = false ∧
      waiting.regs.Disabled := by
  intro restored waiting loading
  have patch : Flat.bus.PatchKeeps Registers.settings := fun _ _ => rfl
  have source : nested.Reachable := by
    refine .run patch ?_ (.new .nmos)
    intro data
    simp
  have reachable : restored.Reachable := .restored (.new .cmos) source .v2
  have held : waiting.Reachable :=
    Reachable.command (.new .nmos) patch loading .triggerInterrupt (by simp)
  have clear : (waiting.step Flat.bus loading).1.regs.f.parity = false := by decide
  have disabled :=
    (reachable_consistent held).2 Flat.bus loading (by decide) (by decide) clear
  refine ⟨reachable, (reachable_consistent reachable).1, ?_, ?_, ?_, held, clear,
    disabled⟩
  · decide +kernel
  · decide +kernel
  · decide +kernel

end Cpu

end Z80
