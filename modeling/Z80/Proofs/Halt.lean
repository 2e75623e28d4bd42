import Z80.Proofs.Boundary
import Z80.Proofs.Requests

/-!
# Halts

A halted processor is one that runs the same `HALT` again and again.  Nothing
but its control state tells it from one that comes to the `HALT` anew, so what
it does rests on the byte at the program counter still being there.

Main statement: `Command.run_halts`, for every sequence of commands from a new
processor on the flat host.
-/

namespace Z80

namespace Opcode

/-- The opcode of `HALT`. -/
def halt : UInt8 :=
  0x76

theorem ofByte_eq_halt_iff (opcode : UInt8) :
    ofByte opcode = .operation .halt ↔ opcode = halt := by
  revert opcode
  refine Byte.of_forall_ofNat ?_
  decide +kernel

end Opcode

theorem Memory.ofByte_of_instructionAt {ram : Memory} {pc : UInt16}
    {op : Operation} (found : ram.instructionAt pc = .main .hl op) :
    Opcode.ofByte (ram.get pc) = .operation op := by
  unfold instructionAt at found
  split at found
  case h_1 named opcode =>
    cases found
    exact opcode
  case h_2 => cases found
  case h_3 => cases found
  case h_4 => split at found <;> cases found

/-- Only the opcode of `HALT` makes an instruction that halts. -/
theorem Instruction.boundary_eq_halting_iff (ram : Memory) (pc : UInt16) :
    (ram.instructionAt pc).boundary = .halting ↔ ram.get pc = Opcode.halt := by
  rw [← Opcode.ofByte_eq_halt_iff]
  constructor
  · intro halts
    cases found : ram.instructionAt pc with
    | main pointer op =>
        rw [found] at halts
        have isHalt : op = .halt := by
          cases op <;> simp [boundary] at halts ⊢
        subst isHalt
        cases pointer with
        | hl => exact Memory.ofByte_of_instructionAt found
        | index index => cases usesPointer_of_instructionAt found
    | extended op =>
        rw [found] at halts
        cases op <;> cases halts
    | bits op => simp [found, boundary] at halts
    | indexedBits index displacement op => simp [found, boundary] at halts
    | ignoredLead => simp [found, boundary] at halts
  · intro isHalt
    simp [Memory.instructionAt, isHalt, boundary]

namespace Cpu

/-- An event waits that ends a halt. -/
def EventDue (cpu : Cpu) : Prop :=
  cpu.control.setPc = true ∨ cpu.control.nonMaskable = true ∨
    cpu.control.interruptPending = true ∧ cpu.regs.iff1 = true

/-- The byte at the program counter is a `HALT`. -/
def AtHalt (cpu : Cpu) (flat : Flat) : Prop :=
  flat.ram.get cpu.regs.pc = Opcode.halt

/-- A processor that ran a `HALT`, and its host.  If it was halted before, a
refresh cycle and the check bit are all that changed. -/
def dozed (cpu : Cpu) (flat : Flat) : Cpu × Flat :=
  ({ cpu with
      regs := cpu.regs.refresh 1
      control := { cpu.control with checkInterrupt := true, halted := true } },
    flat.addCycles 4)

/-! ## Running a halt -/

theorem runInstruction_atHalt {cpu : Cpu} {flat : Flat}
    (here : cpu.AtHalt flat) :
    cpu.runInstruction Flat.bus flat =
      ((.main .hl .halt, (cpu.dozed flat).1), (cpu.dozed flat).2) := by
  have opcode :
      (Microcode.fetchFirst cpu.regs.pc).run Flat.bus flat =
        (Opcode.halt, flat.addCycles 4) := by
    rw [← here]
    rfl
  have decoded := (Opcode.ofByte_eq_halt_iff Opcode.halt).mpr rfl
  simp only [runInstruction, Instruction.perform, Instruction.fetch,
    Microcode.run_bind, opcode, decoded]
  rfl

theorem step_atHalt {cpu : Cpu} {flat : Flat} (here : cpu.AtHalt flat) :
    cpu.step Flat.bus flat = (cpu.dozed flat).1.served (cpu.dozed flat).2 := by
  rw [← service_flat_eq_served]
  unfold step
  rw [runInstruction_atHalt here]
  exact rfl

/-- What a step from a `HALT` leaves. -/
structure HaltOutcome (cpu : Cpu) (flat : Flat) (next : Cpu × Flat) : Prop where
  dozes : ¬ cpu.EventDue → next = cpu.dozed flat
  wakes : cpu.EventDue → next.1.isHalted = false
  /-- A requested jump saves nothing. -/
  jumps : ∀ target, cpu.newPc = some target →
    cpu.control.nonMaskable = false →
      next.1.regs = { cpu.regs.refresh 1 with pc := target } ∧
        next.2 = flat.addCycles 4
  /-- A non-maskable interrupt saves the address after the `HALT`, or the target
  of a jump that was requested with it. -/
  saves : cpu.control.nonMaskable = true →
    next.1.regs.pc = 0x0066 ∧
      next.2 =
        (flat.pushWord cpu.regs.sp
          (cpu.newPc.getD (cpu.regs.pc + 1))).addCycles 15
  /-- A maskable interrupt saves the address after the `HALT`. -/
  interrupts : cpu.newPc = none → cpu.control.nonMaskable = false →
    cpu.EventDue → cpu.regs.im ≠ 0 →
      next.2 =
        (flat.pushWord cpu.regs.sp (cpu.regs.pc + 1)).addCycles
          (if cpu.regs.im = 1 then 17 else 23)
  /-- In mode 0 the processor goes on there and nothing is saved. -/
  resumes : cpu.newPc = none → cpu.control.nonMaskable = false →
    cpu.EventDue → cpu.regs.im = 0 →
      next.1.regs.pc = cpu.regs.pc + 1 ∧ next.2 = flat.addCycles 4

theorem eventDue_iff_of_quiet {cpu : Cpu} (noJump : cpu.control.setPc = false)
    (noNonMaskable : cpu.control.nonMaskable = false) :
    cpu.EventDue ↔
      cpu.control.interruptPending = true ∧ cpu.regs.iff1 = true := by
  simp [EventDue, noJump, noNonMaskable]

theorem served_of_not_eventDue {cpu : Cpu} (flat : Flat)
    (nothing : ¬ cpu.EventDue) : cpu.served flat = (cpu, flat) := by
  simp only [EventDue, not_or, Bool.not_eq_true] at nothing
  obtain ⟨noJump, noNonMaskable, notDue⟩ := nothing
  rw [served_of_notUrgent flat noJump noNonMaskable, if_neg]
  intro due
  rw [Bool.and_eq_true, Bool.and_eq_true] at due
  exact notDue due.1

/-- A halt survives no event that is served. -/
theorem isHalted_served {cpu : Cpu} (flat : Flat) (due : cpu.EventDue)
    (check : cpu.control.checkInterrupt = true) :
    (cpu.served flat).1.isHalted = false := by
  by_cases urgent : cpu.control.nonMaskable = true
  · rw [served_of_nonMaskable flat urgent]
    rfl
  · rw [Bool.not_eq_true] at urgent
    by_cases jump : cpu.control.setPc = true
    · rw [served_of_jump flat jump urgent]
      rfl
    · rw [Bool.not_eq_true] at jump
      obtain ⟨pending, enabled⟩ := (eventDue_iff_of_quiet jump urgent).mp due
      rw [served_of_notUrgent flat jump urgent, if_pos (by simp [*]), isHalted,
        control_interruptTaken]

section Outcome

variable {cpu : Cpu} {flat : Flat} (here : cpu.AtHalt flat)

include here

private theorem step_atHalt_of_jump {target : UInt16} (jump : cpu.control.setPc = true)
    (waits : cpu.newPc = some target)
    (noNonMaskable : cpu.control.nonMaskable = false) :
    (cpu.step Flat.bus flat).1.regs =
        { cpu.regs.refresh 1 with pc := target } ∧
      (cpu.step Flat.bus flat).2 = flat.addCycles 4 := by
  have made : cpu.programCounter = target := by
    rw [programCounter, waits]
    rfl
  have dozing : (cpu.dozed flat).1.control.setPc = true := jump
  rw [step_atHalt here, served_of_jump _ dozing noNonMaskable, ← made]
  exact ⟨rfl, rfl⟩

private theorem step_atHalt_of_nonMaskable (agrees : cpu.JumpAgrees)
    (urgent : cpu.control.nonMaskable = true) :
    (cpu.step Flat.bus flat).1.regs.pc = 0x0066 ∧
      (cpu.step Flat.bus flat).2 =
        (flat.pushWord cpu.regs.sp
          (cpu.newPc.getD (cpu.regs.pc + 1))).addCycles 15 := by
  have dozing : (cpu.dozed flat).1.control.nonMaskable = true := urgent
  have bit : (cpu.dozed flat).1.control.setPc = cpu.newPc.isSome := agrees
  rw [step_atHalt here, served_of_nonMaskable _ dozing, bit]
  refine ⟨rfl, ?_⟩
  cases waits : cpu.newPc with
  | none => rfl
  | some target =>
      have made : (cpu.dozed flat).1.jumped.returnAddress = target := by
        show cpu.newPc.getD cpu.regs.pc = target
        rw [waits]
        rfl
      simp only [Option.isSome_some, if_true, nonMaskableTaken, made]
      rfl

private theorem step_atHalt_of_interrupt (noJump : cpu.control.setPc = false)
    (noNonMaskable : cpu.control.nonMaskable = false) (due : cpu.EventDue) :
    cpu.step Flat.bus flat =
      (cpu.dozed flat).1.interruptTaken (cpu.dozed flat).2 := by
  obtain ⟨pending, enabled⟩ :=
    (eventDue_iff_of_quiet noJump noNonMaskable).mp due
  have quiet : (cpu.dozed flat).1.control.setPc = false := noJump
  have admitted :
      ((cpu.dozed flat).1.control.interruptPending &&
        (cpu.dozed flat).1.regs.iff1 &&
          (cpu.dozed flat).1.control.checkInterrupt) = true := by
    simp only [dozed, Registers.refresh, pending, enabled, Bool.and_self]
  rw [step_atHalt here, served_of_notUrgent _ quiet noNonMaskable,
    if_pos admitted]

theorem haltOutcome_step (agrees : cpu.JumpAgrees) :
    cpu.HaltOutcome flat (cpu.step Flat.bus flat) := by
  have quiet (noTarget : cpu.newPc = none) : cpu.control.setPc = false := by
    rw [agrees, noTarget]
    rfl
  refine ⟨?_, ?_, ?_, ?_, ?_, ?_⟩
  · intro nothing
    rw [step_atHalt here]
    exact served_of_not_eventDue _ nothing
  · intro due
    rw [step_atHalt here]
    exact isHalted_served _ due rfl
  · intro target waits noNonMaskable
    have jump : cpu.control.setPc = true := by
      rw [agrees, waits]
      rfl
    exact step_atHalt_of_jump here jump waits noNonMaskable
  · exact step_atHalt_of_nonMaskable here agrees
  · intro noTarget noNonMaskable due notZero
    have dozing : (cpu.dozed flat).1.regs.im ≠ 0 := notZero
    rw [step_atHalt_of_interrupt here (quiet noTarget) noNonMaskable due,
      interruptTaken, if_neg dozing]
    by_cases one : cpu.regs.im = 1
    · have dozingOne : (cpu.dozed flat).1.regs.im = 1 := one
      rw [if_pos dozingOne, if_pos one]
      rfl
    · have dozingOther : (cpu.dozed flat).1.regs.im ≠ 1 := one
      rw [if_neg dozingOther, if_neg one]
      rfl
  · intro noTarget noNonMaskable due zero
    have dozing : (cpu.dozed flat).1.regs.im = 0 := zero
    rw [step_atHalt_of_interrupt here (quiet noTarget) noNonMaskable due,
      interruptTaken, if_pos dozing]
    exact ⟨rfl, rfl⟩

end Outcome

/-! ## Halts that go on -/

variable {σ : Type}

/-- Nothing that is served at a boundary begins a halt. -/
theorem isHalted_of_step {bus : Bus σ} {cpu : Cpu} {state : σ}
    (halted : (cpu.step bus state).1.isHalted = true) :
    (cpu.runInstruction bus state).1.2.isHalted = true := by
  have served (left : Cpu) (state : σ)
      (after : (left.service bus state).1.isHalted = true) :
      left.isHalted = true := by
    obtain ⟨requests, stays, control⟩ := control_service bus left state
    rw [isHalted, control] at after
    exact (Bool.and_eq_true_iff.mp after).1
  have sampled (left : Cpu) (state : σ)
      (after : (left.serviceSampled bus state).1.isHalted = true) :
      left.isHalted = true := by
    obtain ⟨requests, stays, control⟩ := control_serviceSampled bus left state
    rw [isHalted, control] at after
    exact (Bool.and_eq_true_iff.mp after).1
  unfold step at halted
  dsimp only at halted
  split at halted
  · exact sampled _ _ (served _ _ halted)
  · exact served _ _ halted

private theorem isHalted_runInstruction (cpu : Cpu) (flat : Flat) :
    (cpu.runInstruction Flat.bus flat).1.2.isHalted = true ↔
      cpu.isHalted = true ∨ cpu.AtHalt flat := by
  have control :
      (cpu.runInstruction Flat.bus flat).1.2.control =
        cpu.control.after (flat.ram.instructionAt cpu.regs.pc).boundary := by
    rw [← fst_runInstruction_flat]
    rfl
  rw [isHalted, control, AtHalt, ← Instruction.boundary_eq_halting_iff]
  cases (flat.ram.instructionAt cpu.regs.pc).boundary <;>
    simp [Control.after, isHalted]

/-- A processor that is halted is at a `HALT`. -/
def HaltLies (current : Cpu × Flat) : Prop :=
  current.1.isHalted = true → current.1.AtHalt current.2

theorem atHalt_of_isHalted_step {cpu : Cpu} {flat : Flat}
    (lies : HaltLies (cpu, flat))
    (halted : (cpu.step Flat.bus flat).1.isHalted = true) :
    cpu.AtHalt flat := by
  have left := isHalted_of_step halted
  rcases (isHalted_runInstruction cpu flat).mp left with before | here
  · exact lies before
  · exact here

private theorem haltLies_step {cpu : Cpu} {flat : Flat} (agrees : cpu.JumpAgrees)
    (lies : HaltLies (cpu, flat)) : HaltLies (cpu.step Flat.bus flat) := by
  intro halted
  have here := atHalt_of_isHalted_step lies halted
  have outcome := haltOutcome_step here agrees
  by_cases due : cpu.EventDue
  · rw [outcome.wakes due] at halted
    cases halted
  · rw [outcome.dozes due]
    exact here

/-- No halt survives an event that is served, whatever the instruction was. -/
theorem isHalted_step_of_due {cpu : Cpu} {flat : Flat} (agrees : cpu.JumpAgrees)
    (lies : HaltLies (cpu, flat))
    (due : (cpu.runInstruction Flat.bus flat).1.2.EventDue) :
    (cpu.step Flat.bus flat).1.isHalted = false := by
  rw [← Bool.not_eq_true]
  intro halted
  have here := atHalt_of_isHalted_step lies halted
  rw [runInstruction_atHalt here] at due
  rw [(haltOutcome_step here agrees).wakes due] at halted
  cases halted

end Cpu

namespace Command

open Cpu

private theorem apply_haltLies (command : Command) {current : Cpu × Flat}
    (agrees : current.1.JumpAgrees) (lies : HaltLies current)
    (noLoad : ∀ data, .load data ≠ command) :
    HaltLies (command.apply Flat.bus current) := by
  cases command with
  | step => exact haltLies_step agrees lies
  | reset =>
      intro halted
      cases halted
  | setProgramCounter target =>
      unfold apply
      dsimp only
      unfold Cpu.setProgramCounter
      split
      · exact lies
      · exact lies
  | load data => exact absurd rfl (noLoad data)
  | _ => exact lies

private theorem run_haltLies (commands : List Command) {current : Cpu × Flat}
    (agrees : current.1.JumpAgrees) (lies : HaltLies current)
    (noLoad : ∀ data, .load data ∉ commands) :
    HaltLies (run Flat.bus commands current) := by
  induction commands generalizing current with
  | nil => exact lies
  | cons command rest inductionHypothesis =>
      simp only [List.mem_cons, not_or, forall_and] at noLoad
      obtain ⟨noFirst, noLaterLoad⟩ := noLoad
      have agreesAfter := apply_jumpAgrees Flat.bus command current.2 agrees
      have liesAfter := apply_haltLies command agrees lies noFirst
      exact inductionHypothesis agreesAfter liesAfter noLaterLoad

/-- Whatever is done to a new processor with its stack anywhere, it is halted
only at a `HALT`.  From there a step either serves an event, ends the halt and
saves the address after the `HALT`, or changes nothing but the refresh counter,
the check bit and the clock. -/
theorem run_halts (model : Model) (sp : UInt16) (flat : Flat)
    (commands : List Command) (noLoad : ∀ data, .load data ∉ commands) :
    let start : Cpu :=
      { Cpu.new model with regs := { (Cpu.new model).regs with sp := sp } }
    let reached := run Flat.bus commands (start, flat)
    let next := reached.1.step Flat.bus reached.2
    (reached.1.isHalted = true →
        reached.2.ram.get reached.1.regs.pc = 0x76) ∧
      (reached.2.ram.get reached.1.regs.pc = 0x76 →
        reached.1.HaltOutcome reached.2 next) ∧
      ((reached.1.runInstruction Flat.bus reached.2).1.2.EventDue →
        next.1.isHalted = false) := by
  intro start reached next
  have agrees : reached.1.JumpAgrees := run_jumpAgrees Flat.bus commands rfl
  have lies : HaltLies reached :=
    run_haltLies commands rfl (fun halted => nomatch halted) noLoad
  refine ⟨lies, ?_, ?_⟩
  · intro here
    exact haltOutcome_step here agrees
  · intro due
    exact isHalted_step_of_due agrees lies due

/-- `EI` and `HALT`. -/
def halting : Flat :=
  Flat.new.load 0 [0xFB, 0x76]

/-- Both kinds of interrupt and a jump are asked for once the processor is
halted. -/
def waking : List Command :=
  [.step, .step, .step, .triggerInterrupt, .triggerNonMaskable,
    .setProgramCounter 0x1234]

/-- A new processor after these commands. -/
def wakened : Cpu × Flat :=
  run Flat.bus waking
    ({ Cpu.new .cmos with regs := { (Cpu.new .cmos).regs with sp := 0x8000 } },
      halting)

/-- The non-maskable interrupt is taken first, and the jump decides what it
saves. -/
theorem run_halts_wakened :
    (∀ data, .load data ∉ waking) ∧
      wakened.1.isHalted = true ∧ wakened.1.regs.pc = 1 ∧
      wakened.2.ram.get wakened.1.regs.pc = 0x76 ∧
      (wakened.1.step Flat.bus wakened.2).1.regs.pc = 0x0066 ∧
      (wakened.1.step Flat.bus wakened.2).2 =
        (wakened.2.pushWord 0x8000 0x1234).addCycles 15 := by
  have noLoad : ∀ data, .load data ∉ waking := by
    intro data
    simp [waking]
  obtain ⟨lies, outcome, _⟩ := run_halts .cmos 0x8000 halting waking noLoad
  have halted : wakened.1.isHalted = true := by decide
  have top : wakened.1.regs.sp = 0x8000 := by decide
  have target : wakened.1.newPc = some 0x1234 := by decide
  have saved := (outcome (lies halted)).saves (by decide)
  rw [← wakened, top, target] at saved
  exact ⟨noLoad, halted, by decide, lies halted, saved⟩

end Command

end Z80
