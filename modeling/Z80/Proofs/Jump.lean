import Z80.Cpu.Command
import Z80.Proofs.Boundary

/-!
# Requested jumps

A jump that is asked for from outside waits for the next boundary.  The
instruction before it runs as if nothing had been asked, and no maskable
interrupt is accepted in its course or at its end.  Only a non-maskable
interrupt comes on top, and what it saves is the target of the jump.

Main statement: `Cpu.step_toward`, for every instruction on the flat host, and
for every number of requests before one boundary.
-/

namespace Z80

namespace Cpu

/-! ## The processor without its request -/

/-- The processor with no jump requested. -/
def withoutJump (cpu : Cpu) : Cpu :=
  { cpu with control := { cpu.control with setPc := false }, newPc := none }

def withJump (cpu : Cpu) (target : UInt16) : Cpu :=
  { cpu with
    control := { cpu.control with setPc := true }
    newPc := some target }

private theorem setProgramCounter_here (cpu : Cpu) :
    cpu.setProgramCounter cpu.regs.pc = cpu.withoutJump := by
  simp [setProgramCounter, withoutJump]

private theorem setProgramCounter_elsewhere {cpu : Cpu} {target : UInt16}
    (elsewhere : target ≠ cpu.regs.pc) :
    cpu.setProgramCounter target = cpu.withJump target := by
  simp [setProgramCounter, withJump, elsewhere]

private theorem setProgramCounter_withoutJump (cpu : Cpu) (target : UInt16) :
    cpu.withoutJump.setProgramCounter target = cpu.setProgramCounter target := by
  by_cases here : target = cpu.regs.pc
  · simp [setProgramCounter, withoutJump, here]
  · simp [setProgramCounter, withoutJump, here]

private theorem withoutJump_setProgramCounter (cpu : Cpu) (target : UInt16) :
    (cpu.setProgramCounter target).withoutJump = cpu.withoutJump := by
  by_cases here : target = cpu.regs.pc
  · simp [setProgramCounter, withoutJump, here]
  · simp [setProgramCounter, withoutJump, here]

private theorem pc_setProgramCounter (cpu : Cpu) (target : UInt16) :
    (cpu.setProgramCounter target).regs.pc = cpu.regs.pc := by
  unfold setProgramCounter
  split <;> rfl

private theorem withoutJump_of_none {cpu : Cpu} (noJump : cpu.control.setPc = false)
    (noTarget : cpu.newPc = none) : cpu.withoutJump = cpu := by
  unfold withoutJump
  rw [← noJump, ← noTarget]

section Run

variable {σ : Type} (bus : Bus σ) (cpu : Cpu) (state : σ)

/-- Whether a jump is requested has no part in what an instruction does. -/
theorem runInstruction_withoutJump :
    cpu.withoutJump.runInstruction bus state =
      (((cpu.runInstruction bus state).1.1,
          (cpu.runInstruction bus state).1.2.withoutJump),
        (cpu.runInstruction bus state).2) := by
  simp only [runInstruction, withoutJump]
  cases ((Instruction.perform cpu.model cpu.regs).run bus state).1.1.boundary <;>
    rfl

private theorem runInstruction_withJump (target : UInt16) :
    (cpu.withJump target).runInstruction bus state =
      (((cpu.runInstruction bus state).1.1,
          (cpu.runInstruction bus state).1.2.withJump target),
        (cpu.runInstruction bus state).2) := by
  simp only [runInstruction, withJump]
  cases ((Instruction.perform cpu.model cpu.regs).run bus state).1.1.boundary <;>
    rfl

end Run

/-! ## One step -/

/-- The instruction at the program counter, run with no interrupt latched and
no jump requested. -/
def stepAlone (cpu : Cpu) (flat : Flat) : Cpu × Flat :=
  cpu.withoutJump.undisturbed.step Flat.bus flat

/-- A processor that an instruction left, at the target of a jump.  A maskable
interrupt that was pending goes on waiting. -/
def landed (cpu : Cpu) (target : UInt16) (left : Cpu) : Cpu :=
  { left with
    regs := { left.regs with pc := target }
    control :=
      { left.control with
        halted := false
        setPc := false
        interruptPending := cpu.control.interruptPending }
    newPc := none }

/-- What comes of a step before which a jump to the target was requested. -/
structure JumpOutcome (cpu : Cpu) (flat : Flat) (target : UInt16)
    (next : Cpu × Flat) : Prop where
  lands : cpu.control.nonMaskable = false →
    next =
      (cpu.landed target (cpu.stepAlone flat).1, (cpu.stepAlone flat).2)
  /-- The address that a non-maskable interrupt saves is the target. -/
  saves : cpu.control.nonMaskable = true →
    next =
      ({ cpu.landed target (cpu.stepAlone flat).1 with
          regs :=
            { (cpu.stepAlone flat).1.regs with
              iff1 := false
              sp := (cpu.stepAlone flat).1.regs.sp - 2
              pc := 0x0066 } },
        ((cpu.stepAlone flat).2.pushWord (cpu.stepAlone flat).1.regs.sp
          target).addCycles 11)
  /-- The parity bit after `LD A,I` and `LD A,R` is the second latch. -/
  shows : (flat.ram.instructionAt cpu.regs.pc).LoadsInterruptRegister →
    next.1.regs.f.parity = cpu.regs.iff2

/-- With a jump requested nothing happens between an instruction and its
boundary. -/
theorem step_withJump (cpu : Cpu) (target : UInt16) (flat : Flat) :
    (cpu.withJump target).step Flat.bus flat =
      ((cpu.runInstruction Flat.bus flat).1.2.withJump target).served
        (cpu.runInstruction Flat.bus flat).2 := by
  have shown := parity_runInstruction Flat.bus cpu flat
  unfold step
  rw [runInstruction_withJump]
  generalize cpu.runInstruction Flat.bus flat = ran at shown ⊢
  obtain ⟨⟨instruction, left⟩, host⟩ := ran
  dsimp only at shown ⊢
  by_cases sampling : instruction.boundary = .sampling
  · have nothing :
        (left.withJump target).serviceSampled Flat.bus host =
          (left.withJump target, host) :=
      serviceSampled_flat_of_jump _ host rfl (shown sampling)
    rw [if_pos sampling, nothing]
    exact service_flat_eq_served _ host
  · rw [if_neg sampling]
    exact service_flat_eq_served _ host

theorem stepAlone_eq (cpu : Cpu) (flat : Flat) :
    cpu.stepAlone flat =
      ((cpu.runInstruction Flat.bus flat).1.2.withoutJump.undisturbed,
        (cpu.runInstruction Flat.bus flat).2) := by
  unfold stepAlone
  rw [step_undisturbed_flat cpu.withoutJump flat rfl, runInstruction_withoutJump]

theorem fst_stepAlone (cpu : Cpu) (flat : Flat) :
    (cpu.stepAlone flat).1 =
      (cpu.runInstruction Flat.bus flat).1.2.withoutJump.undisturbed :=
  congrArg Prod.fst (stepAlone_eq cpu flat)

private theorem snd_stepAlone (cpu : Cpu) (flat : Flat) :
    (cpu.stepAlone flat).2 = (cpu.runInstruction Flat.bus flat).2 :=
  congrArg Prod.snd (stepAlone_eq cpu flat)

/-- The jump itself, seen from what the instruction alone leaves. -/
theorem landed_undisturbed {cpu left : Cpu} (target : UInt16)
    (pending :
      left.control.interruptPending = cpu.control.interruptPending) :
    cpu.landed target left.withoutJump.undisturbed =
      { (left.withJump target).jumped with control.nonMaskable := false } := by
  simp only [landed, ← pending]
  rfl

theorem served_withJump_of_quiet {left : Cpu} (target : UInt16) (flat : Flat)
    (noNonMaskable : left.control.nonMaskable = false) :
    (left.withJump target).served flat =
      ({ (left.withJump target).jumped with control.nonMaskable := false },
        flat) := by
  have latched : (left.withJump target).control.nonMaskable = false :=
    noNonMaskable
  rw [served_of_jump flat rfl latched, ← noNonMaskable]
  rfl

theorem served_withJump_of_urgent {left : Cpu} (target : UInt16) (flat : Flat)
    (urgent : left.control.nonMaskable = true) :
    (left.withJump target).served flat =
      ({ (left.withJump target).jumped with
          regs :=
            { left.regs with
              iff1 := false
              sp := left.regs.sp - 2
              pc := 0x0066 }
          control :=
            { (left.withJump target).jumped.control with
              nonMaskable := false } },
        (flat.pushWord left.regs.sp target).addCycles 11) := by
  have latched : (left.withJump target).control.nonMaskable = true := urgent
  rw [served_of_nonMaskable flat latched]
  rfl

private theorem flags_served_withJump (left : Cpu) (target : UInt16) (flat : Flat) :
    ((left.withJump target).served flat).1.regs.f = left.regs.f := by
  cases urgent : left.control.nonMaskable with
  | false =>
      rw [served_withJump_of_quiet target flat urgent]
      rfl
  | true => rw [served_withJump_of_urgent target flat urgent]

theorem jumpOutcome_withJump (cpu : Cpu) (flat : Flat) (target : UInt16) :
    cpu.JumpOutcome flat target ((cpu.withJump target).step Flat.bus flat) := by
  have pending :
      (cpu.runInstruction Flat.bus flat).1.2.control.interruptPending =
        cpu.control.interruptPending :=
    Control.interruptPending_after _ _
  have latched :
      (cpu.runInstruction Flat.bus flat).1.2.control.nonMaskable =
        cpu.control.nonMaskable :=
    Control.nonMaskable_after _ _
  have landing := landed_undisturbed target pending
  rw [← fst_stepAlone] at landing
  rw [step_withJump, ← snd_stepAlone]
  refine ⟨?_, ?_, ?_⟩
  · intro noNonMaskable
    rw [served_withJump_of_quiet target _ (latched.trans noNonMaskable), landing]
  · intro urgent
    rw [served_withJump_of_urgent target _ (latched.trans urgent), landing,
      fst_stepAlone]
    rfl
  · intro loads
    have sampling :
        (cpu.runInstruction Flat.bus flat).1.1.boundary = .sampling := by
      rw [fst_runInstruction_flat, Instruction.boundary_eq_sampling_iff]
      exact loads
    rw [flags_served_withJump, parity_runInstruction Flat.bus cpu flat sampling,
      iff2_runInstruction Flat.bus cpu flat sampling]

end Cpu

/-! ## Several requests -/

namespace Command

open Cpu

variable {σ : Type}

/-- The commands that leave the program counter where it is until the next
boundary. -/
def Waits : Command → Prop
  | .step | .reset | .load _ => False
  | .triggerInterrupt | .clearInterrupt | .triggerNonMaskable
  | .setProgramCounter _ | .setVectorBase _ => True

def asksJump : Command → Bool
  | .setProgramCounter _ => true
  | .step | .triggerInterrupt | .clearInterrupt | .triggerNonMaskable
  | .setVectorBase _ | .reset | .load _ => false

/-- The commands without the requests to jump. -/
def withoutJumps (commands : List Command) : List Command :=
  commands.filter fun command => !command.asksJump

variable (bus : Bus σ)

/-- A request to jump is all that it changes, and no other command makes or
withdraws one. -/
theorem withoutJump_apply {command : Command} (waits : command.Waits) (cpu : Cpu)
    (state : σ) :
    ((command.apply bus (cpu, state)).1.withoutJump,
        (command.apply bus (cpu, state)).2) =
      if command.asksJump then (cpu.withoutJump, state)
      else command.apply bus (cpu.withoutJump, state) := by
  cases command with
  | setProgramCounter target =>
      exact Prod.ext (withoutJump_setProgramCounter cpu target) rfl
  | step => exact waits.elim
  | reset => exact waits.elim
  | load data => exact waits.elim
  | _ => rfl

theorem withoutJump_run {commands : List Command}
    (wait : ∀ command ∈ commands, command.Waits) (cpu : Cpu) (state : σ) :
    ((run bus commands (cpu, state)).1.withoutJump,
        (run bus commands (cpu, state)).2) =
      run bus (withoutJumps commands) (cpu.withoutJump, state) := by
  induction commands generalizing cpu state with
  | nil => rfl
  | cons command rest inductionHypothesis =>
      obtain ⟨waits, restWaits⟩ := List.forall_mem_cons.mp wait
      have first := withoutJump_apply bus waits cpu state
      have later := inductionHypothesis restWaits
        (command.apply bus (cpu, state)).1 (command.apply bus (cpu, state)).2
      rw [first] at later
      refine later.trans ?_
      cases asks : command.asksJump with
      | true => simp [withoutJumps, asks]
      | false => simp [withoutJumps, asks, run]

private theorem pc_apply {command : Command} (waits : command.Waits) (cpu : Cpu)
    (state : σ) :
    (command.apply bus (cpu, state)).1.regs.pc = cpu.regs.pc := by
  cases command with
  | setProgramCounter target => exact pc_setProgramCounter cpu target
  | step => exact waits.elim
  | reset => exact waits.elim
  | load data => exact waits.elim
  | _ => rfl

private theorem pc_run {commands : List Command}
    (wait : ∀ command ∈ commands, command.Waits) (cpu : Cpu) (state : σ) :
    (run bus commands (cpu, state)).1.regs.pc = cpu.regs.pc := by
  induction commands generalizing cpu state with
  | nil => rfl
  | cons command rest inductionHypothesis =>
      obtain ⟨waits, restWaits⟩ := List.forall_mem_cons.mp wait
      have later := inductionHypothesis restWaits
        (command.apply bus (cpu, state)).1 (command.apply bus (cpu, state)).2
      exact later.trans (pc_apply bus waits cpu state)

/-- The last request is the only one that counts, whatever else the host did in
between. -/
theorem run_setProgramCounter {commands : List Command}
    (wait : ∀ command ∈ commands, command.Waits) (last : UInt16) (cpu : Cpu)
    (state : σ) :
    run bus (commands ++ [.setProgramCounter last]) (cpu, state) =
      apply bus (.setProgramCounter last)
        (run bus (withoutJumps commands) (cpu.withoutJump, state)) := by
  have before := withoutJump_run bus wait cpu state
  rw [run_append, ← before]
  exact Prod.ext (setProgramCounter_withoutJump _ last).symm rfl

private theorem waits_withoutJumps {commands : List Command}
    (wait : ∀ command ∈ commands, command.Waits) :
    ∀ command ∈ withoutJumps commands, command.Waits := by
  intro command member
  exact wait command (List.mem_filter.mp member).1

private theorem withoutJumps_withoutJumps (commands : List Command) :
    withoutJumps (withoutJumps commands) = withoutJumps commands := by
  simp [withoutJumps, List.filter_filter]

private theorem run_setProgramCounter_last {commands : List Command}
    (wait : ∀ command ∈ commands, command.Waits) (last : UInt16) (cpu : Cpu)
    (state : σ) :
    run bus (commands ++ [.setProgramCounter last]) (cpu, state) =
      run bus (withoutJumps commands ++ [.setProgramCounter last])
        (cpu, state) := by
  rw [run_setProgramCounter bus wait,
    run_setProgramCounter bus (waits_withoutJumps wait),
    withoutJumps_withoutJumps]

/-- A request for the address where the program is cancels all requests before
it. -/
theorem run_setProgramCounter_here {commands : List Command}
    (wait : ∀ command ∈ commands, command.Waits) (cpu : Cpu) (state : σ) :
    run bus (commands ++ [.setProgramCounter cpu.regs.pc]) (cpu, state) =
      run bus (withoutJumps commands) (cpu.withoutJump, state) := by
  have samePc := pc_run bus wait cpu state
  rw [run_append, ← samePc, ← withoutJump_run bus wait]
  exact Prod.ext (setProgramCounter_here _) rfl

end Command

namespace Cpu

/-- A request to jump elsewhere does nothing to the instruction that runs before
the boundary, and there it comes before every interrupt.  Of several requests
before one boundary only the last counts, whatever else the host does in
between, and one for the address where the program is cancels the others. -/
theorem step_toward (cpu : Cpu) (flat : Flat) :
    (∀ target, target ≠ cpu.regs.pc →
        (cpu.setProgramCounter target).programCounter = target ∧
          cpu.JumpOutcome flat target
            ((cpu.setProgramCounter target).step Flat.bus flat)) ∧
      ∀ commands : List Command, (∀ command ∈ commands, command.Waits) →
        (∀ last,
          Command.run Flat.bus (commands ++ [.setProgramCounter last])
              (cpu, flat) =
            Command.run Flat.bus
              (Command.withoutJumps commands ++ [.setProgramCounter last])
              (cpu, flat)) ∧
          Command.run Flat.bus (commands ++ [.setProgramCounter cpu.regs.pc])
              (cpu, flat) =
            Command.run Flat.bus (Command.withoutJumps commands)
              (cpu.withoutJump, flat) ∧
          (cpu.control.setPc = false → cpu.newPc = none →
            cpu.withoutJump = cpu) := by
  refine ⟨?_, ?_⟩
  · intro target elsewhere
    rw [setProgramCounter_elsewhere elsewhere]
    exact ⟨rfl, jumpOutcome_withJump cpu flat target⟩
  · intro commands wait
    refine ⟨?_, Command.run_setProgramCounter_here Flat.bus wait cpu flat,
      withoutJump_of_none⟩
    intro last
    exact Command.run_setProgramCounter_last Flat.bus wait last cpu flat

/-- Two jumps before the boundary behind `LD A,I`, and a non-maskable interrupt
between them. -/
def redirecting : List Command :=
  [.setProgramCounter 0x1234, .triggerNonMaskable]

/-- The maskable interrupt is due all the time, and yet the parity bit shows
that it was not accepted.  The non-maskable one saves the later target, around
the top of memory. -/
theorem step_toward_redirecting :
    let urgent := sampling.triggerNonMaskable
    let next := (urgent.setProgramCounter 0x5678).step Flat.bus samplingHost
    (∀ command ∈ redirecting, command.Waits) ∧
      0x5678 ≠ urgent.regs.pc ∧
      Command.run Flat.bus (redirecting ++ [.setProgramCounter 0x5678])
          (sampling, samplingHost) =
        (urgent.setProgramCounter 0x5678, samplingHost) ∧
      next.1.regs.pc = 0x0066 ∧
      next.1.regs.f.parity = true ∧
      next.2.peekWord 0xFFFE = 0x5678 := by
  intro urgent next
  have wait : ∀ command ∈ redirecting, command.Waits := by
    simp [redirecting, Command.Waits]
  have elsewhere : 0x5678 ≠ urgent.regs.pc := by decide
  have outcome := ((step_toward urgent samplingHost).1 0x5678 elsewhere).2
  have saved := outcome.saves rfl
  have top : (urgent.stepAlone samplingHost).1.regs.sp = 0 := by decide
  have pushed :
      next.2 =
        ((urgent.stepAlone samplingHost).2.pushWord 0 0x5678).addCycles 11 := by
    rw [← top]
    exact congrArg Prod.snd saved
  have loads :
      (samplingHost.ram.instructionAt urgent.regs.pc).LoadsInterruptRegister := by
    have found := instructionAt_samplingHost
    exact .inl found
  have requested :=
    ((step_toward sampling samplingHost).2 redirecting wait).1 0x5678
  refine ⟨wait, elsewhere, requested, ?_, outcome.shows loads, ?_⟩
  · exact congrArg (fun current : Cpu × Flat => current.1.regs.pc) saved
  · rw [pushed]
    exact Flat.peekWord_pushWord _ 0 0x5678

end Cpu

end Z80
