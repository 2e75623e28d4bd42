import Z80.Proofs.Block
import Z80.Proofs.Fetch
import Z80.Proofs.Frame
import Z80.Proofs.Service

/-!
# What happens at an instruction boundary

An interrupt is taken between two instructions, so a step in which one is taken
is the undisturbed step followed by the entry into the service routine.

Main statement: `Cpu.step_boundary`, for every instruction and every state
without a requested jump, on the flat host.
-/

namespace Z80

namespace Control

/-- The control state with no interrupt latched. -/
def undisturbed (control : Control) : Control :=
  { control with nonMaskable := false, interruptPending := false }

private theorem after_undisturbed (control : Control) (boundary : Boundary) :
    control.undisturbed.after boundary =
      (control.after boundary).undisturbed := by
  cases boundary <;> rfl

end Control

namespace Cpu

/-! ## The outcomes -/

/-- The processor with no interrupt latched. -/
def undisturbed (cpu : Cpu) : Cpu :=
  { cpu with control := cpu.control.undisturbed }

def withPending (cpu : Cpu) (pending : Bool) : Cpu :=
  { cpu with control := { cpu.control with interruptPending := pending } }

/-- What comes of a step at its boundary, given the instruction and what it
leaves when no interrupt is latched. -/
def boundaryOutcome (cpu : Cpu) (instruction : Instruction)
    (left : Cpu × Flat) : Cpu × Flat :=
  let resumed := left.1.withPending cpu.control.interruptPending
  if cpu.control.nonMaskable then
    resumed.nonMaskableTaken left.2
  else if cpu.control.interruptPending ∧ resumed.regs.iff1 ∧
      ¬ instruction.DefersInterrupt then
    if cpu.model = .nmos ∧ instruction.LoadsInterruptRegister then
      resumed.loseParity.interruptTaken left.2
    else
      resumed.interruptTaken left.2
  else
    (resumed, left.2)

theorem boundaryOutcome_of_due {cpu : Cpu} {instruction : Instruction}
    {left : Cpu × Flat} (noNonMaskable : cpu.control.nonMaskable = false)
    (pending : cpu.control.interruptPending = true)
    (enabled : left.1.regs.iff1 = true)
    (admitted : ¬ instruction.DefersInterrupt) :
    cpu.boundaryOutcome instruction left =
      if cpu.model = .nmos ∧ instruction.LoadsInterruptRegister then
        (left.1.withPending true).loseParity.interruptTaken left.2
      else
        (left.1.withPending true).interruptTaken left.2 := by
  have resumedEnabled : (left.1.withPending true).regs.iff1 = true := enabled
  unfold boundaryOutcome
  rw [noNonMaskable, pending]
  dsimp only
  rw [if_neg Bool.false_ne_true, if_pos ⟨rfl, resumedEnabled, admitted⟩]

/-! ## The instruction itself -/

variable {σ : Type}

private theorem runInstruction_undisturbed (bus : Bus σ) (cpu : Cpu) (state : σ) :
    cpu.undisturbed.runInstruction bus state =
      (((cpu.runInstruction bus state).1.1,
          (cpu.runInstruction bus state).1.2.undisturbed),
        (cpu.runInstruction bus state).2) := by
  simp only [runInstruction, undisturbed, Control.after_undisturbed]

theorem fst_runInstruction_flat (cpu : Cpu) (flat : Flat) :
    (cpu.runInstruction Flat.bus flat).1.1 =
      flat.ram.instructionAt cpu.regs.pc := by
  rw [fst_runInstruction, Instruction.run_fetch_flat]

theorem parity_runInstruction (bus : Bus σ) (cpu : Cpu) (state : σ)
    (sampling :
      (cpu.runInstruction bus state).1.1.boundary = .sampling) :
    (cpu.runInstruction bus state).1.2.regs.f.parity =
      (cpu.runInstruction bus state).1.2.regs.iff2 := by
  rw [fst_runInstruction, Instruction.boundary_eq_sampling_iff] at sampling
  simp only [runInstruction, Instruction.perform, Microcode.run_bind]
  rcases sampling with loadsI | loadsR
  · rw [loadsI]
    rfl
  · rw [loadsR]
    rfl

theorem iff2_runInstruction (bus : Bus σ) (cpu : Cpu) (state : σ)
    (sampling :
      (cpu.runInstruction bus state).1.1.boundary = .sampling) :
    (cpu.runInstruction bus state).1.2.regs.iff2 = cpu.regs.iff2 := by
  rw [fst_runInstruction, Instruction.boundary_eq_sampling_iff] at sampling
  simp only [runInstruction, Instruction.perform, Microcode.run_bind]
  rcases sampling with loadsI | loadsR
  · rw [loadsI]
    rfl
  · rw [loadsR]
    rfl

/-! ## Steps -/

/-- The instruction alone, when no interrupt is latched. -/
theorem step_undisturbed_flat (cpu : Cpu) (flat : Flat)
    (noJump : cpu.control.setPc = false) :
    cpu.undisturbed.step Flat.bus flat =
      ((cpu.runInstruction Flat.bus flat).1.2.undisturbed,
        (cpu.runInstruction Flat.bus flat).2) := by
  have shown := parity_runInstruction Flat.bus cpu flat
  have noJumpAfter :
      (cpu.runInstruction Flat.bus flat).1.2.control.setPc = false :=
    (Control.setPc_after _ _).trans noJump
  unfold step
  rw [runInstruction_undisturbed]
  generalize cpu.runInstruction Flat.bus flat = ran at shown noJumpAfter ⊢
  obtain ⟨⟨instruction, left⟩, host⟩ := ran
  have quiet : left.undisturbed.service Flat.bus host = (left.undisturbed, host) := by
    rw [service_flat left.undisturbed host noJumpAfter]
    rfl
  by_cases sampling : instruction.boundary = .sampling
  · have notSampled :
        left.undisturbed.serviceSampled Flat.bus host =
          (left.undisturbed, host) := by
      rw [serviceSampled_flat left.undisturbed host noJumpAfter (shown sampling)]
      simp [undisturbed, Control.undisturbed]
    simp only [if_pos sampling, notSampled, quiet]
  · simp only [if_neg sampling, quiet]

/-! ## At the boundary -/

/-- What a processor that ran an instruction has in common with the one that
was to run it, and what the instruction decided about interrupts. -/
structure AtBoundary (cpu : Cpu) (instruction : Instruction) (left : Cpu) :
    Prop where
  sameModel : left.model = cpu.model
  noJump : left.control.setPc = false
  sameNonMaskable : left.control.nonMaskable = cpu.control.nonMaskable
  samePending :
    left.control.interruptPending = cpu.control.interruptPending
  check : left.control.checkInterrupt = true ↔ ¬ instruction.DefersInterrupt
  shown :
    instruction.LoadsInterruptRegister → left.regs.f.parity = left.regs.iff2

theorem runInstruction_atBoundary (cpu : Cpu) (flat : Flat)
    (noJump : cpu.control.setPc = false) :
    cpu.AtBoundary (flat.ram.instructionAt cpu.regs.pc)
      (cpu.runInstruction Flat.bus flat).1.2 := by
  have fetched := fst_runInstruction_flat cpu flat
  have control :
      (cpu.runInstruction Flat.bus flat).1.2.control =
        cpu.control.after (flat.ram.instructionAt cpu.regs.pc).boundary := by
    rw [← fetched]
    rfl
  have parity := parity_runInstruction Flat.bus cpu flat
  rw [fetched, Instruction.boundary_eq_sampling_iff] at parity
  refine ⟨rfl, ?_, ?_, ?_, ?_, parity⟩
  · rw [control, Control.setPc_after]
    exact noJump
  · rw [control, Control.nonMaskable_after]
  · rw [control, Control.interruptPending_after]
  · rw [control, Control.checkInterrupt_after, decide_eq_true_iff, ne_eq,
      Instruction.boundary_eq_shielded_iff]

theorem resume_undisturbed {left : Cpu}
    (noNonMaskable : left.control.nonMaskable = false) :
    left.undisturbed.withPending left.control.interruptPending = left := by
  obtain ⟨regs, ⟨check, pending, halted, line, nonMaskable, setPc⟩, _, _⟩ := left
  cases noNonMaskable
  rfl

private theorem loseParity_of_clear {cpu : Cpu} (clear : cpu.regs.f.parity = false) :
    cpu.loseParity = cpu := by
  unfold loseParity
  rw [← clear]

namespace AtBoundary

variable {cpu left : Cpu} {instruction : Instruction}

theorem service_eq (boundary : cpu.AtBoundary instruction left) (host : Flat)
    (keepsParity :
      left.control.nonMaskable = false → left.control.interruptPending = true →
        left.regs.iff1 = true →
        cpu.model = .nmos ∧ instruction.LoadsInterruptRegister →
        left.loseParity = left) :
    left.service Flat.bus host =
      cpu.boundaryOutcome instruction (left.undisturbed, host) := by
  rw [service_flat left host boundary.noJump]
  unfold boundaryOutcome
  rw [← boundary.sameNonMaskable, ← boundary.samePending]
  cases urgent : left.control.nonMaskable with
  | true => rfl
  | false =>
      rw [resume_undisturbed urgent]
      simp only [Bool.false_eq_true, if_false, Bool.and_eq_true, and_assoc,
        boundary.check]
      split
      case isTrue due =>
        split
        case isTrue loses => rw [keepsParity urgent due.1 due.2.1 loses]
        case isFalse => rfl
      case isFalse => rfl

private theorem serviceSampled_eq (boundary : cpu.AtBoundary instruction left)
    (loads : instruction.LoadsInterruptRegister) (host : Flat) :
    (left.serviceSampled Flat.bus host).1.service Flat.bus
        (left.serviceSampled Flat.bus host).2 =
      cpu.boundaryOutcome instruction (left.undisturbed, host) := by
  have shown := boundary.shown loads
  rw [serviceSampled_flat left host boundary.noJump shown]
  by_cases accepted :
      (left.model.losesParity && left.regs.iff2 &&
        (left.control.interruptPending && !left.control.nonMaskable &&
          left.regs.iff1)) = true
  · rw [if_pos accepted]
    simp only [Bool.and_eq_true, Bool.not_eq_true'] at accepted
    obtain ⟨⟨loses, _⟩, ⟨pending, noNonMaskable⟩, enabled⟩ := accepted
    have nmos : cpu.model = .nmos := by
      rw [← boundary.sameModel]
      exact (Model.losesParity_iff _).mp loses
    have resumed : left.undisturbed.withPending true = left := by
      have same := resume_undisturbed noNonMaskable
      rw [pending] at same
      exact same
    rw [service_interruptTaken left.loseParity host boundary.noJump
        noNonMaskable,
      boundaryOutcome_of_due (boundary.sameNonMaskable.symm.trans noNonMaskable)
        (boundary.samePending.symm.trans pending) enabled
        (Instruction.not_defersInterrupt_of_loads loads),
      if_pos ⟨nmos, loads⟩, resumed]
  · rw [if_neg accepted]
    refine boundary.service_eq host ?_
    intro noNonMaskable pending enabled loses
    -- The interrupt is due, so it was the second latch that kept it out.
    have modelLoses : left.model.losesParity = true := by
      rw [boundary.sameModel, loses.1]
      rfl
    have secondClear : left.regs.iff2 = false := by
      cases second : left.regs.iff2 with
      | false => rfl
      | true =>
          refine absurd ?_ accepted
          rw [modelLoses, second, pending, noNonMaskable, enabled]
          rfl
    exact loseParity_of_clear (shown.trans secondClear)

end AtBoundary

theorem step_eq_boundaryOutcome (cpu : Cpu) (flat : Flat)
    (noJump : cpu.control.setPc = false) :
    cpu.step Flat.bus flat =
      cpu.boundaryOutcome (flat.ram.instructionAt cpu.regs.pc)
        (cpu.undisturbed.step Flat.bus flat) := by
  have boundary := runInstruction_atBoundary cpu flat noJump
  have fetched := fst_runInstruction_flat cpu flat
  rw [step_undisturbed_flat cpu flat noJump]
  unfold step
  rw [← fetched] at boundary ⊢
  generalize cpu.runInstruction Flat.bus flat = ran at boundary ⊢
  obtain ⟨⟨instruction, left⟩, host⟩ := ran
  dsimp only at boundary ⊢
  by_cases sampling : instruction.boundary = .sampling
  · have loads := (Instruction.boundary_eq_sampling_iff instruction).mp sampling
    rw [if_pos sampling]
    exact boundary.serviceSampled_eq loads host
  · rw [if_neg sampling]
    refine boundary.service_eq host ?_
    intro _ _ _ loses
    exact absurd ((Instruction.boundary_eq_sampling_iff instruction).mpr loses.2)
      sampling

theorem regs_step_undisturbed (cpu : Cpu) (flat : Flat)
    (noJump : cpu.control.setPc = false) {instruction : Instruction}
    (found : flat.ram.instructionAt cpu.regs.pc = instruction) :
    (cpu.undisturbed.step Flat.bus flat).1.regs =
      ((instruction.execute cpu.model
          (cpu.regs.refresh instruction.refreshCount)).run Flat.bus
        ((Instruction.fetch cpu.regs.pc).run Flat.bus flat).2).1 := by
  have fetched :
      ((Instruction.fetch cpu.regs.pc).run Flat.bus flat).1 = instruction := by
    rw [Instruction.run_fetch_flat, found]
  rw [step_undisturbed_flat cpu flat noJump]
  simp only [undisturbed, runInstruction, Instruction.perform,
    Microcode.run_bind, fetched]
  rfl

/-- A block operation that has another round to go leaves the program counter
at itself, and one that is done moves past itself. -/
theorem pc_step_block (cpu : Cpu) (flat : Flat)
    (noJump : cpu.control.setPc = false) {op : BlockOperation}
    (found : flat.ram.instructionAt cpu.regs.pc = .extended (.block op)) :
    (cpu.undisturbed.step Flat.bus flat).1.regs.pc =
      if op.GoesOn (cpu.undisturbed.step Flat.bus flat).1.regs then cpu.regs.pc
      else cpu.regs.pc + 2 := by
  rw [regs_step_undisturbed cpu flat noJump found]
  exact BlockOperation.pc_execute Flat.bus op _ _

/-- A step is the instruction alone and then what comes of it at its boundary.
The address that an interrupt saves there is where the instruction alone would
have gone on, which is the instruction itself if it is a block operation with
another round to go. -/
theorem step_boundary (cpu : Cpu) (flat : Flat)
    (noJump : cpu.control.setPc = false) :
    cpu.step Flat.bus flat =
        cpu.boundaryOutcome (flat.ram.instructionAt cpu.regs.pc)
          (cpu.undisturbed.step Flat.bus flat) ∧
      ∀ op, flat.ram.instructionAt cpu.regs.pc = .extended (.block op) →
        (cpu.undisturbed.step Flat.bus flat).1.regs.pc =
          if op.GoesOn (cpu.undisturbed.step Flat.bus flat).1.regs then
            cpu.regs.pc
          else
            cpu.regs.pc + 2 := by
  refine ⟨step_eq_boundaryOutcome cpu flat noJump, ?_⟩
  intro op found
  exact pc_step_block cpu flat noJump found

/-- A processor about to copy the first of two bytes, with an interrupt
pending. -/
def copying : Cpu where
  regs :=
    { Registers.zero with
      c := 2, sp := 0x8000, pc := 0x4000, iff1 := true, im := 1 }
  control := Control.none.assertInterrupt
  newPc := none
  model := .cmos

/-- Memory with `LDIR` at the address where `copying` is. -/
def copyingHost : Flat :=
  Flat.new.load 0x4000 [0xED, 0xB0]

private theorem instructionAt_copyingHost :
    copyingHost.ram.instructionAt copying.regs.pc =
      .extended (.block ⟨.load, false, true⟩) := by
  have lead : copyingHost.ram.get 0x4000 = 0xED := by
    simp [copyingHost, Flat.load, Memory.load, Memory.get_set]
  have second : copyingHost.ram.get (0x4000 + 1) = 0xB0 := by
    simp [copyingHost, Flat.load, Memory.load]
  exact Memory.instructionAt_extended lead second

/-- The interrupt is taken after the first byte, and what it saves is the
address of the instruction that has the second one to copy. -/
theorem step_boundary_copying :
    copying.control.setPc = false ∧
      (copying.undisturbed.step Flat.bus copyingHost).1.regs.pc = 0x4000 ∧
      copying.step Flat.bus copyingHost =
        ((copying.undisturbed.step Flat.bus copyingHost).1.withPending
            true).interruptTaken
          (copying.undisturbed.step Flat.bus copyingHost).2 := by
  have found := instructionAt_copyingHost
  have left := regs_step_undisturbed copying copyingHost rfl found
  obtain ⟨outcome, stays⟩ := step_boundary copying copyingHost rfl
  refine ⟨rfl, ?_, ?_⟩
  · rw [stays _ found, left]
    rfl
  · have enabled :
        (copying.undisturbed.step Flat.bus copyingHost).1.regs.iff1 = true := by
      rw [left]
      rfl
    rw [outcome, found, boundaryOutcome_of_due rfl rfl enabled (by decide)]
    exact if_neg (by decide)

/-- A processor that loads the accumulator from `I` with an interrupt
pending. -/
def sampling : Cpu where
  regs := { Registers.zero with iff1 := true, iff2 := true }
  control := Control.none.assertInterrupt
  newPc := none
  model := .nmos

/-- Memory with `LD A,I` at the address where `sampling` is. -/
def samplingHost : Flat :=
  Flat.new.load 0 [0xED, 0x57]

theorem instructionAt_samplingHost :
    samplingHost.ram.instructionAt sampling.regs.pc = .extended .ldAI := by
  have lead : samplingHost.ram.get 0 = 0xED := by
    simp [samplingHost, Flat.load, Memory.load, Memory.get_set]
  have second : samplingHost.ram.get (0 + 1) = 0x57 := by
    simp [samplingHost, Flat.load, Memory.load]
  exact Memory.instructionAt_extended lead second

/-- The interrupt is due, and yet more than its entry comes on top of the
instruction alone: the parity bit is lost. -/
theorem step_sampling_ne :
    sampling.control.setPc = false ∧
      sampling.control.nonMaskable = false ∧
      sampling.control.interruptPending = true ∧
      (sampling.undisturbed.step Flat.bus samplingHost).1.regs.iff1 = true ∧
      ¬ (samplingHost.ram.instructionAt sampling.regs.pc).DefersInterrupt ∧
      sampling.step Flat.bus samplingHost ≠
        ((sampling.undisturbed.step Flat.bus samplingHost).1.withPending
            true).interruptTaken
          (sampling.undisturbed.step Flat.bus samplingHost).2 := by
  have found := instructionAt_samplingHost
  have left := regs_step_undisturbed sampling samplingHost rfl found
  have outcome := step_eq_boundaryOutcome sampling samplingHost rfl
  generalize sampling.undisturbed.step Flat.bus samplingHost = alone
    at left outcome ⊢
  have enabled : alone.1.regs.iff1 = true := by
    rw [left]
    rfl
  have shown : alone.1.regs.f.parity = true := by
    rw [left]
    rfl
  rw [found, boundaryOutcome_of_due rfl rfl enabled (by decide),
    if_pos (by decide), interruptTaken_loseParity] at outcome
  refine ⟨rfl, rfl, rfl, enabled, ?_, ?_⟩
  · rw [found]
    decide
  · intro equal
    have kept : (sampling.step Flat.bus samplingHost).1.regs.f.parity = true := by
      rw [equal, flags_interruptTaken]
      exact shown
    rw [outcome] at kept
    exact Bool.false_ne_true kept

end Cpu

end Z80
