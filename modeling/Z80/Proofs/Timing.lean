import Z80.Instruction.Timing
import Z80.Proofs.Boundary

/-!
# Exact timing

On the flat host every instruction takes the cycles that the tables give.

Main statement: `Cpu.cycles_step`, for every step at the end of which nothing
is due.
-/

namespace Z80

open Microcode

/-! ## Operations -/

namespace Operation

private theorem cycles_djnz (regs : Registers) (flat : Flat) :
    ((execute .djnz .hl regs).run Flat.bus flat).2.cycles + 4 =
      flat.cycles + tStates .djnz regs := by
  have last := sub_one_beq_zero regs.b
  unfold tStates execute
  dsimp only
  rw [run_bind, last]
  by_cases one : regs.b = 1
  · simp only [one, decide_true, if_true]
    rfl
  · simp only [one, decide_false, Bool.false_eq_true, if_false]
    rfl

theorem cycles_execute (op : Operation) (regs : Registers) (flat : Flat) :
    ((op.execute .hl regs).run Flat.bus flat).2.cycles + 4 =
      flat.cycles + op.tStates regs := by
  cases op with
  | ldRegister target source => cases source <;> rfl
  | ldImmediate target => cases target <;> rfl
  | arithmetic op source => cases source <;> rfl
  | inc target => cases target <;> rfl
  | dec target => cases target <;> rfl
  | jrIf condition =>
      unfold tStates execute
      dsimp only
      split <;> rfl
  | djnz => exact cycles_djnz regs flat
  | callIf condition =>
      unfold tStates execute
      dsimp only
      split <;> rfl
  | retIf condition =>
      unfold tStates execute
      dsimp only
      split <;> rfl
  | _ => rfl

/-- An index lead takes four cycles more, but on the memory operand it also
brings a displacement. -/
theorem cycles_execute_index (op : Operation) (index : Index) (regs : Registers)
    (flat : Flat) :
    ((op.execute (.index index) regs).run Flat.bus flat).2.cycles + 8 =
      flat.cycles + op.indexedTStates regs := by
  -- What branches makes no use of the pointer and takes its time from above.
  have plain := congrArg (· + 4) (cycles_execute op regs flat)
  cases op with
  | ldRegister target source => cases source <;> rfl
  | ldImmediate target => cases target <;> rfl
  | arithmetic op source => cases source <;> rfl
  | inc target => cases target <;> rfl
  | dec target => cases target <;> rfl
  | jrIf condition => exact plain
  | djnz => exact plain
  | callIf condition => exact plain
  | retIf condition => exact plain
  | _ => rfl

end Operation

namespace BitOperation

private theorem cycles_execute (op : BitOperation) (regs : Registers) (flat : Flat) :
    ((op.execute regs).run Flat.bus flat).2.cycles + 8 =
      flat.cycles + op.tStates := by
  obtain ⟨action, operand⟩ := op
  cases operand with
  | register target => rfl
  | memory => cases action <;> rfl

private theorem cycles_executeIndexed (op : BitOperation) (index : Index)
    (displacement : UInt8) (regs : Registers) (flat : Flat) :
    ((op.executeIndexed index displacement regs).run Flat.bus flat).2.cycles + 14 =
      flat.cycles + op.indexedTStates := by
  obtain ⟨action, operand⟩ := op
  cases action <;> rfl

end BitOperation

/-! ## Block operations -/

namespace BlockOperation

theorem cycles_finish (again last : Nat) (more : Bool) (regs : Registers)
    (flat : Flat) :
    ((finish again last more regs).run Flat.bus flat).2.cycles =
      flat.cycles + if more then again else last := by
  cases more <;> rfl

theorem cycles_finishPort (op : BlockOperation) (regs : Registers)
    (flat : Flat) :
    ((op.finishPort regs).run Flat.bus flat).2.cycles =
      flat.cycles + if op.repeats && !regs.f.zero then 5 else 0 := by
  unfold finishPort
  split <;> rfl

theorem bc_stepCounted (op : BlockOperation) (regs : Registers) :
    (op.stepCounted regs).bc = regs.bc - 1 :=
  Word.ofBytes_high_low (regs.bc - 1)

theorem sub_one_bne_zero (counter : UInt16) :
    (counter - 1 != 0) = true ↔ counter ≠ 1 := by
  rw [bne_iff_ne]
  grind

theorem tStates_eq_ite {op : BlockOperation} {regs : Registers} {ram : Memory}
    {more : Bool} (again : op.StartsAgain regs ram ↔ more = true) :
    op.tStates regs ram = if more then 21 else 16 := by
  unfold tStates
  simp only [again]

private theorem cycles_executeLoad {op : BlockOperation} (regs : Registers)
    (flat : Flat) (action : op.action = .load) :
    ((op.executeLoad regs).run Flat.bus flat).2.cycles + 8 =
      flat.cycles + op.tStates regs flat.ram := by
  have again :
      op.StartsAgain regs flat.ram ↔
        (op.repeats && (op.stepCounted regs).bc != 0) = true := by
    rw [bc_stepCounted, Bool.and_eq_true, sub_one_bne_zero]
    simp only [StartsAgain, action]
  have ran :
      ((op.executeLoad regs).run Flat.bus flat).2.cycles =
        flat.cycles + 6 +
          if op.repeats && (op.stepCounted regs).bc != 0 then 7 else 2 :=
    cycles_finish 7 2 _ _ _
  rw [ran, tStates_eq_ite again]
  split <;> rfl

private theorem cycles_executeCompare {op : BlockOperation} (regs : Registers)
    (flat : Flat) (action : op.action = .compare) :
    ((op.executeCompare regs).run Flat.bus flat).2.cycles + 8 =
      flat.cycles + op.tStates regs flat.ram := by
  have differs :
      (!(regs.a - flat.ram.get regs.hl - 0 == 0)) = true ↔
        flat.ram.get regs.hl ≠ regs.a := by
    rw [Bool.not_eq_true', beq_eq_false_iff_ne]
    grind
  have again :
      op.StartsAgain regs flat.ram ↔
        (op.repeats && (op.stepCounted regs).bc != 0 &&
          !(regs.a - flat.ram.get regs.hl - 0 == 0)) = true := by
    rw [bc_stepCounted, Bool.and_eq_true, Bool.and_eq_true, sub_one_bne_zero,
      differs, and_assoc]
    simp only [StartsAgain, action]
  have ran :
      ((op.executeCompare regs).run Flat.bus flat).2.cycles =
        flat.cycles + 3 +
          if op.repeats && (op.stepCounted regs).bc != 0 &&
              !(regs.a - flat.ram.get regs.hl - 0 == 0) then 10 else 5 :=
    cycles_finish 10 5 _ _ _
  rw [ran, tStates_eq_ite again]
  split <;> rfl

/-- Port operations count `B` down, and repeat until it is zero. -/
theorem startsAgain_port_iff {op : BlockOperation} (regs : Registers)
    (ram : Memory) (ports : op.action = .input ∨ op.action = .output) :
    op.StartsAgain regs ram ↔ (op.repeats && !(regs.b - 1 == 0)) = true := by
  rw [sub_one_beq_zero, Bool.and_eq_true, Bool.not_eq_true', decide_eq_false_iff_not]
  rcases ports with action | action
  · simp only [StartsAgain, action]
  · simp only [StartsAgain, action]

private theorem cycles_executeInput {op : BlockOperation} (regs : Registers)
    (flat : Flat) (action : op.action = .input) :
    ((op.executeInput regs).run Flat.bus flat).2.cycles + 8 =
      flat.cycles + op.tStates regs flat.ram := by
  have ran :
      ((op.executeInput regs).run Flat.bus flat).2.cycles =
        flat.cycles + 8 + if op.repeats && !(regs.b - 1 == 0) then 5 else 0 :=
    cycles_finishPort op _ _
  rw [ran, tStates_eq_ite (startsAgain_port_iff regs flat.ram (.inl action))]
  split <;> rfl

private theorem cycles_executeOutput {op : BlockOperation} (regs : Registers)
    (flat : Flat) (action : op.action = .output) :
    ((op.executeOutput regs).run Flat.bus flat).2.cycles + 8 =
      flat.cycles + op.tStates regs flat.ram := by
  have ran :
      ((op.executeOutput regs).run Flat.bus flat).2.cycles =
        flat.cycles + 8 + if op.repeats && !(regs.b - 1 == 0) then 5 else 0 :=
    cycles_finishPort op _ _
  rw [ran, tStates_eq_ite (startsAgain_port_iff regs flat.ram (.inr action))]
  split <;> rfl

private theorem cycles_execute (op : BlockOperation) (regs : Registers) (flat : Flat) :
    ((op.execute regs).run Flat.bus flat).2.cycles + 8 =
      flat.cycles + op.tStates regs flat.ram := by
  unfold execute
  cases action : op.action with
  | load => exact cycles_executeLoad regs flat action
  | compare => exact cycles_executeCompare regs flat action
  | input => exact cycles_executeInput regs flat action
  | output => exact cycles_executeOutput regs flat action

end BlockOperation

private theorem ExtendedOperation.cycles_execute (op : ExtendedOperation)
    (model : Model) (regs : Registers) (flat : Flat) :
    ((op.execute model regs).run Flat.bus flat).2.cycles + 8 =
      flat.cycles + op.tStates regs flat.ram := by
  cases op with
  | input target => cases target <;> rfl
  | block op => exact BlockOperation.cycles_execute op regs flat
  | _ => rfl

/-! ## Instructions -/

namespace Instruction

/-- The cycles in which the opcode and the bytes before it are fetched. -/
def fetchTStates : Instruction → Nat
  | .main .hl _ => 4
  | .main (.index _) _ | .bits _ | .extended _ | .ignoredLead => 8
  | .indexedBits _ _ _ => 14

theorem snd_run_fetch_flat (flat : Flat) (pc : UInt16) :
    ((fetch pc).run Flat.bus flat).2 =
      flat.addCycles (flat.ram.instructionAt pc).fetchTStates := by
  have firstByte :
      (fetchFirst pc).run Flat.bus flat = (flat.ram.get pc, flat.addCycles 4) :=
    rfl
  have secondByte :
      (fetchSecond pc).run Flat.bus (flat.addCycles 4) =
        (flat.ram.get (pc + 1), flat.addCycles 8) :=
    rfl
  unfold fetch Memory.instructionAt
  rw [run_bind, firstByte]
  cases Opcode.ofByte (flat.ram.get pc) with
  | operation op => rfl
  | bitLead => rfl
  | extendedLead => rfl
  | indexLead index =>
      dsimp only
      unfold fetchIndexed
      rw [run_bind, secondByte]
      cases IndexedOpcode.ofByte (flat.ram.get (pc + 1)) with
      | operation op => rfl
      | bitLead => rfl
      | leadIgnored => rfl

private theorem cycles_execute (instruction : Instruction) (model : Model)
    (regs : Registers) (flat : Flat) :
    ((instruction.execute model regs).run Flat.bus flat).2.cycles +
        instruction.fetchTStates =
      flat.cycles + instruction.tStates regs flat.ram := by
  cases instruction with
  | main pointer op =>
      cases pointer with
      | hl => exact op.cycles_execute regs flat
      | index index => exact op.cycles_execute_index index regs flat
  | bits op => exact op.cycles_execute regs flat
  | indexedBits index displacement op =>
      exact op.cycles_executeIndexed index displacement regs flat
  | extended op => exact op.cycles_execute model regs flat
  | ignoredLead => rfl

end Instruction

namespace Cpu

/-- The instruction at the program counter runs on what its fetch leaves. -/
theorem runInstruction_flat {cpu : Cpu} {flat : Flat} {instruction : Instruction}
    (found : flat.ram.instructionAt cpu.regs.pc = instruction) :
    cpu.runInstruction Flat.bus flat =
      let left :=
        (instruction.execute cpu.model
          (cpu.regs.refresh instruction.refreshCount)).run Flat.bus
          (flat.addCycles instruction.fetchTStates)
      ((instruction,
          { cpu with
            regs := left.1
            control := cpu.control.after instruction.boundary }),
        left.2) := by
  simp only [runInstruction, Instruction.perform, run_bind, run_pure,
    Instruction.run_fetch_flat, Instruction.snd_run_fetch_flat, found]

private theorem cycles_runInstruction (cpu : Cpu) (flat : Flat) :
    (cpu.runInstruction Flat.bus flat).2.cycles =
      flat.cycles +
        (flat.ram.instructionAt cpu.regs.pc).tStates cpu.regs flat.ram := by
  simp only [runInstruction, Instruction.perform, run_bind, run_pure,
    Instruction.run_fetch_flat, Instruction.snd_run_fetch_flat]
  generalize flat.ram.instructionAt cpu.regs.pc = instruction
  have executed :
      ((instruction.execute cpu.model
              (cpu.regs.refresh instruction.refreshCount)).run Flat.bus
            (flat.addCycles instruction.fetchTStates)).2.cycles +
          instruction.fetchTStates =
        flat.cycles + instruction.fetchTStates +
          instruction.tStates cpu.regs flat.ram :=
    instruction.cycles_execute _ _ _
  omega

/-- Nothing is served at the end of the instruction that is about to run. -/
structure NothingDue (cpu : Cpu) (flat : Flat) : Prop where
  noJump : cpu.control.setPc = false
  noNonMaskable : cpu.control.nonMaskable = false
  noInterrupt :
    cpu.control.interruptPending = true →
      (flat.ram.instructionAt cpu.regs.pc).DefersInterrupt ∨
        (cpu.runInstruction Flat.bus flat).1.2.regs.iff1 = false

theorem boundaryOutcome_of_nothingDue {cpu : Cpu} {flat : Flat}
    (nothing : cpu.NothingDue flat) :
    cpu.boundaryOutcome (flat.ram.instructionAt cpu.regs.pc)
        (cpu.undisturbed.step Flat.bus flat) =
      ((cpu.runInstruction Flat.bus flat).1.2,
        (cpu.runInstruction Flat.bus flat).2) := by
  have boundary := runInstruction_atBoundary cpu flat nothing.noJump
  have resumed :=
    resume_undisturbed (boundary.sameNonMaskable.trans nothing.noNonMaskable)
  rw [boundary.samePending] at resumed
  rw [step_undisturbed_flat cpu flat nothing.noJump]
  unfold boundaryOutcome
  rw [if_neg (Bool.eq_false_iff.mp nothing.noNonMaskable), resumed]
  split
  case isTrue due =>
    obtain ⟨pending, enabled, admitted⟩ := due
    rcases nothing.noInterrupt pending with deferred | disabled
    · exact absurd deferred admitted
    · rw [disabled] at enabled
      cases enabled
  case isFalse => rfl

private theorem snd_boundaryOutcome_of_nothingDue {cpu : Cpu} {flat : Flat}
    (nothing : cpu.NothingDue flat) :
    (cpu.boundaryOutcome (flat.ram.instructionAt cpu.regs.pc)
        (cpu.undisturbed.step Flat.bus flat)).2 =
      (cpu.runInstruction Flat.bus flat).2 :=
  congrArg Prod.snd (boundaryOutcome_of_nothingDue nothing)

/-- If nothing is served at its end, a step is the instruction alone. -/
theorem step_of_nothingDue {cpu : Cpu} {flat : Flat}
    (nothing : cpu.NothingDue flat) :
    cpu.step Flat.bus flat =
      ((cpu.runInstruction Flat.bus flat).1.2,
        (cpu.runInstruction Flat.bus flat).2) :=
  (step_eq_boundaryOutcome cpu flat nothing.noJump).trans
    (boundaryOutcome_of_nothingDue nothing)

/-- Every instruction takes as many cycles as the tables say, if nothing is
served at its end. -/
theorem cycles_step (cpu : Cpu) (flat : Flat) (nothing : cpu.NothingDue flat) :
    (cpu.step Flat.bus flat).2.cycles =
      flat.cycles +
        (flat.ram.instructionAt cpu.regs.pc).tStates cpu.regs flat.ram := by
  rw [step_eq_boundaryOutcome cpu flat nothing.noJump,
    snd_boundaryOutcome_of_nothingDue nothing]
  exact cycles_runInstruction cpu flat

/-- A processor with an interrupt pending and the latches clear, about to
search two bytes for a zero. -/
def searching : Cpu :=
  { Cpu.new .nmos with
    regs := { (Cpu.new .nmos).regs with c := 2, l := 0x10 }
    control := Control.none.assertInterrupt }

/-- `CPIR`, and the bytes that it searches. -/
def searched : Flat :=
  (Flat.new.load 0 [0xED, 0xB1]).load 0x10 [0x05, 0x00]

/-- The first round is repeated, and the second one finds the byte. -/
theorem cycles_step_searching :
    searching.NothingDue searched ∧
      (searching.step Flat.bus searched).2.cycles = 21 ∧
      (searching.run Flat.bus 2 searched).2.cycles = 37 := by
  have nothing : searching.NothingDue searched :=
    ⟨rfl, rfl, fun _ => .inr (by decide)⟩
  have taken := cycles_step searching searched nothing
  refine ⟨nothing, ?_, by decide⟩
  rw [taken]
  decide

end Cpu

end Z80
