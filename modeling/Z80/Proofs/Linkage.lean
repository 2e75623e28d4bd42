import Z80.Proofs.Jump
import Z80.Proofs.Timing

/-!
# Calls and returns

A call, a restart and an interrupt push the address where the program is to go on,
and a return pops it.  Between the two nothing of the processor is lost but what
the entry takes away.

Main statement: `Cpu.run_linked`, for every entry into a routine that consists of
a return.
-/

namespace Z80

open Microcode

/-! ## Pushing and popping -/

namespace Registers

theorem run_pushPc_flat (regs : Registers) (returnAddress target : UInt16)
    (flat : Flat) :
    (regs.pushPc returnAddress target).run Flat.bus flat =
      ({ regs with sp := regs.sp - 2, pc := target },
        (flat.pushWord regs.sp returnAddress).addCycles 7) := by
  unfold pushPc
  rw [run_bind, run_push_flat, run_pure]

private theorem run_callAbsolute_flat (regs : Registers) (flat : Flat) :
    regs.callAbsolute.run Flat.bus flat =
      ({ regs with sp := regs.sp - 2, pc := flat.peekWord (regs.pc + 1) },
        (flat.pushWord regs.sp (regs.pc + 3)).addCycles 13) := by
  have fetched :
      (fetchWord regs.pc 1).run Flat.bus flat =
        (flat.peekWord (regs.pc + 1), flat.addCycles 6) :=
    rfl
  unfold callAbsolute
  rw [run_bind, fetched, run_pushPc_flat]
  rfl

end Registers

namespace Cpu

/-! ## Entries -/

/-- What brings a processor into a routine. -/
inductive Entry where
  | call
  | interrupt
  | nonMaskable
  deriving DecidableEq

/-- A step that enters a routine, with the processor and the host before the entry
and the address where the program goes on later.  An interrupt comes after the
instruction that runs in the same step. -/
inductive Enters (cpu : Cpu) (flat : Flat) :
    Entry → Cpu × Flat → UInt16 → Prop where
  | call (nothing : cpu.NothingDue flat)
      (found : flat.ram.instructionAt cpu.regs.pc = .main .hl .call) :
      Enters cpu flat .call (cpu, flat) (cpu.regs.pc + 3)
  | callIf (condition : Condition) (nothing : cpu.NothingDue flat)
      (found : flat.ram.instructionAt cpu.regs.pc = .main .hl (.callIf condition))
      (holds : condition.holds cpu.regs.f = true) :
      Enters cpu flat .call (cpu, flat) (cpu.regs.pc + 3)
  | rst (slot : Fin 8) (nothing : cpu.NothingDue flat)
      (found : flat.ram.instructionAt cpu.regs.pc = .main .hl (.rst slot)) :
      Enters cpu flat .call (cpu, flat) (cpu.regs.pc + 1)
  /-- An interrupt in mode 0 would push nothing. -/
  | interrupt (noJump : cpu.control.setPc = false)
      (noNonMaskable : cpu.control.nonMaskable = false)
      (pending : cpu.control.interruptPending = true)
      (enabled : (cpu.undisturbed.step Flat.bus flat).1.regs.iff1 = true)
      (admitted : ¬ (flat.ram.instructionAt cpu.regs.pc).DefersInterrupt)
      (mode : (cpu.undisturbed.step Flat.bus flat).1.regs.im ≠ 0) :
      Enters cpu flat .interrupt (cpu.undisturbed.step Flat.bus flat)
        (cpu.undisturbed.step Flat.bus flat).1.returnAddress
  | nonMaskable (noJump : cpu.control.setPc = false)
      (latched : cpu.control.nonMaskable = true) :
      Enters cpu flat .nonMaskable (cpu.undisturbed.step Flat.bus flat)
        (cpu.undisturbed.step Flat.bus flat).1.returnAddress
  /-- A requested jump comes before the interrupt. -/
  | redirected (target : UInt16) (jump : cpu.control.setPc = true)
      (requested : cpu.newPc = some target)
      (latched : cpu.control.nonMaskable = true) :
      Enters cpu flat .nonMaskable (cpu.stepAlone flat) target

/-- The parity bit is lost when an interrupt comes during `LD A,I` or `LD A,R`, on
one model. -/
def LosesParity (cpu : Cpu) (flat : Flat) (entry : Entry) : Prop :=
  entry = .interrupt ∧ cpu.model = .nmos ∧
    (flat.ram.instructionAt cpu.regs.pc).LoadsInterruptRegister

/-- The enable latches behind an entry. -/
def Entry.latches (entry : Entry) (regs : Registers) : Bool × Bool :=
  match entry with
  | .call => (regs.iff1, regs.iff2)
  | .interrupt => (false, false)
  | .nonMaskable => (false, regs.iff2)

/-- What an entry leaves.  The word on top of the stack is the address where the
program goes on, and it is all that has changed in the host. -/
structure Entered (cpu : Cpu) (flat : Flat) (entry : Entry) (before : Cpu × Flat)
    (saved : UInt16) (left : Cpu × Flat) : Prop where
  regs :
    left.1.regs =
      { before.1.regs with
        f.parity := left.1.regs.f.parity
        sp := before.1.regs.sp - 2
        pc := left.1.regs.pc
        r := left.1.regs.r
        iff1 := (entry.latches before.1.regs).1
        iff2 := (entry.latches before.1.regs).2 }
  parity :
    left.1.regs.f.parity = before.1.regs.f.parity ∨ cpu.LosesParity flat entry
  halted : entry ≠ .call → left.1.control.halted = false
  jump : left.1.control.setPc = false
  nonMaskable : left.1.control.nonMaskable = false
  host :
    left.2 =
      { before.2.pushWord before.1.regs.sp saved with cycles := left.2.cycles }

variable {cpu : Cpu} {flat : Flat}

/-- An operation that pushes an address and goes elsewhere. -/
private theorem entered_of_pushes {op : Operation} {saved : UInt16} (target : UInt16)
    (cycles : Nat) (nothing : cpu.NothingDue flat)
    (found : flat.ram.instructionAt cpu.regs.pc = .main .hl op)
    (plain : (Instruction.main .hl op).boundary = .plain)
    (pushes :
      (op.execute .hl (cpu.regs.refresh 1)).run Flat.bus (flat.addCycles 4) =
        ({ cpu.regs.refresh 1 with sp := cpu.regs.sp - 2, pc := target },
          (flat.pushWord cpu.regs.sp saved).addCycles cycles)) :
    cpu.Entered flat .call (cpu, flat) saved (cpu.step Flat.bus flat) := by
  have ran :
      cpu.step Flat.bus flat =
        ({ cpu with
            regs :=
              { cpu.regs.refresh 1 with sp := cpu.regs.sp - 2, pc := target }
            control := cpu.control.after .plain },
          (flat.pushWord cpu.regs.sp saved).addCycles cycles) := by
    rw [step_of_nothingDue nothing, runInstruction_flat found, ← plain]
    exact congrArg
      (fun left : Registers × Flat =>
        ({ cpu with
            regs := left.1
            control := cpu.control.after (Instruction.main .hl op).boundary },
          left.2))
      pushes
  rw [ran]
  exact ⟨rfl, .inl rfl, absurd rfl, nothing.noJump, nothing.noNonMaskable, rfl⟩

/-- What an accepted interrupt leaves in a mode in which it pushes an address. -/
private theorem exists_interruptTaken (cpu : Cpu) (flat : Flat)
    (mode : cpu.regs.im ≠ 0) :
    ∃ target cycles,
      cpu.interruptTaken flat =
        ({ cpu with
            regs :=
              { cpu.regs with
                iff1 := false
                iff2 := false
                sp := cpu.regs.sp - 2
                pc := target }
            control := { cpu.control with halted := false } },
          (flat.pushWord cpu.regs.sp cpu.returnAddress).addCycles cycles) := by
  unfold interruptTaken
  rw [if_neg mode]
  split
  · exact ⟨_, _, rfl⟩
  · exact ⟨_, _, rfl⟩

/-- The undisturbed step leaves no request. -/
theorem quiet_step_undisturbed (flat : Flat) (noJump : cpu.control.setPc = false) :
    (cpu.undisturbed.step Flat.bus flat).1.control.setPc = false ∧
      (cpu.undisturbed.step Flat.bus flat).1.control.nonMaskable = false := by
  rw [step_undisturbed_flat cpu flat noJump]
  exact ⟨(Control.setPc_after _ _).trans noJump, rfl⟩

private theorem entered_interrupt (noJump : cpu.control.setPc = false)
    (noNonMaskable : cpu.control.nonMaskable = false)
    (pending : cpu.control.interruptPending = true)
    (enabled : (cpu.undisturbed.step Flat.bus flat).1.regs.iff1 = true)
    (admitted : ¬ (flat.ram.instructionAt cpu.regs.pc).DefersInterrupt)
    (mode : (cpu.undisturbed.step Flat.bus flat).1.regs.im ≠ 0) :
    cpu.Entered flat .interrupt (cpu.undisturbed.step Flat.bus flat)
      (cpu.undisturbed.step Flat.bus flat).1.returnAddress
      (cpu.step Flat.bus flat) := by
  obtain ⟨jump, nonMaskable⟩ := quiet_step_undisturbed flat noJump
  rw [step_eq_boundaryOutcome cpu flat noJump,
    boundaryOutcome_of_due noNonMaskable pending enabled admitted]
  generalize cpu.undisturbed.step Flat.bus flat = left at mode jump nonMaskable ⊢
  obtain ⟨target, cycles, taken⟩ :=
    exists_interruptTaken (left.1.withPending true) left.2 mode
  split
  case isTrue loses =>
    rw [interruptTaken_loseParity, taken]
    exact ⟨rfl, .inr ⟨rfl, loses⟩, fun _ => rfl, jump, nonMaskable, rfl⟩
  case isFalse =>
    rw [taken]
    exact ⟨rfl, .inl rfl, fun _ => rfl, jump, nonMaskable, rfl⟩

private theorem entered_nonMaskable (noJump : cpu.control.setPc = false)
    (latched : cpu.control.nonMaskable = true) :
    cpu.Entered flat .nonMaskable (cpu.undisturbed.step Flat.bus flat)
      (cpu.undisturbed.step Flat.bus flat).1.returnAddress
      (cpu.step Flat.bus flat) := by
  obtain ⟨jump, _⟩ := quiet_step_undisturbed flat noJump
  rw [step_eq_boundaryOutcome cpu flat noJump]
  unfold boundaryOutcome
  rw [if_pos latched]
  exact ⟨rfl, .inl rfl, fun _ => rfl, jump, rfl, rfl⟩

private theorem entered_redirected {target : UInt16} (jump : cpu.control.setPc = true)
    (requested : cpu.newPc = some target)
    (latched : cpu.control.nonMaskable = true) :
    cpu.Entered flat .nonMaskable (cpu.stepAlone flat) target
      (cpu.step Flat.bus flat) := by
  have asked : cpu.withJump target = cpu := by
    unfold withJump
    rw [← jump, ← requested]
  have outcome := (cpu.jumpOutcome_withJump flat target).saves latched
  rw [asked] at outcome
  have quiet : (cpu.stepAlone flat).1.control.nonMaskable = false := by
    rw [fst_stepAlone]
    rfl
  rw [outcome]
  exact ⟨rfl, .inl rfl, fun _ => rfl, rfl, quiet, rfl⟩

private theorem entered_step {entry : Entry} {before : Cpu × Flat} {saved : UInt16}
    (enters : cpu.Enters flat entry before saved) :
    cpu.Entered flat entry before saved (cpu.step Flat.bus flat) := by
  cases enters with
  | call nothing found =>
      exact entered_of_pushes (flat.peekWord (cpu.regs.pc + 1)) 17 nothing found rfl
        (Registers.run_callAbsolute_flat _ _)
  | callIf condition nothing found holds =>
      refine entered_of_pushes (flat.peekWord (cpu.regs.pc + 1)) 17 nothing found rfl
        ?_
      have taken : condition.holds (cpu.regs.refresh 1).f = true := holds
      unfold Operation.execute
      dsimp only
      rw [if_pos taken]
      exact Registers.run_callAbsolute_flat _ _
  | rst slot nothing found =>
      exact entered_of_pushes _ 11 nothing found rfl
        (Registers.run_pushPc_flat _ _ _ _)
  | interrupt noJump noNonMaskable pending enabled admitted mode =>
      exact entered_interrupt noJump noNonMaskable pending enabled admitted mode
  | nonMaskable noJump latched => exact entered_nonMaskable noJump latched
  | redirected target jump requested latched =>
      exact entered_redirected jump requested latched

end Cpu

/-! ## Returns -/

/-- The instructions that return, given the flags that they find. -/
inductive Instruction.ReturnsOn (flags : Flags) : Instruction → Prop where
  | ret : ReturnsOn flags (.main .hl .ret)
  | retIf (condition : Condition) (holds : condition.holds flags = true) :
      ReturnsOn flags (.main .hl (.retIf condition))
  /-- `RETN` and `RETI`. -/
  | retn : ReturnsOn flags (.extended .retn)

namespace Cpu

/-- What a return leaves.  A return from an interrupt also restores the first
enable latch. -/
structure Popped (cpu : Cpu) (flat : Flat) (back : Instruction)
    (left : Cpu × Flat) : Prop where
  regs :
    left.1.regs =
      { cpu.regs with
        sp := cpu.regs.sp + 2
        pc := flat.peekWord cpu.regs.sp
        r := left.1.regs.r
        iff1 := if back = .extended .retn then cpu.regs.iff2 else cpu.regs.iff1 }
  halted : left.1.control.halted = cpu.control.halted
  host : left.2 = { flat with cycles := left.2.cycles }

variable {cpu : Cpu} {flat : Flat} {back : Instruction}

private theorem run_retIf_flat {condition : Condition} {regs : Registers}
    (holds : condition.holds regs.f = true) (flat : Flat) :
    ((Operation.retIf condition).execute .hl regs).run Flat.bus flat =
      regs.popPc.run Flat.bus (flat.addCycles 1) := by
  unfold Operation.execute
  dsimp only
  rw [run_bind, if_pos holds]
  rfl

theorem popped_runInstruction (returns : back.ReturnsOn cpu.regs.f)
    (found : flat.ram.instructionAt cpu.regs.pc = back) :
    cpu.Popped flat back
      ((cpu.runInstruction Flat.bus flat).1.2,
        (cpu.runInstruction Flat.bus flat).2) := by
  rw [runInstruction_flat found]
  cases returns with
  | ret => exact ⟨rfl, rfl, rfl⟩
  | retIf condition holds =>
      have taken : condition.holds (cpu.regs.refresh 1).f = true := holds
      have ran := run_retIf_flat taken (flat.addCycles 4)
      dsimp only [Instruction.execute, Instruction.refreshCount,
        Instruction.fetchTStates]
      rw [ran]
      exact ⟨rfl, rfl, rfl⟩
  | retn => exact ⟨rfl, rfl, rfl⟩

private theorem popped_step (nothing : cpu.NothingDue flat)
    (returns : back.ReturnsOn cpu.regs.f)
    (found : flat.ram.instructionAt cpu.regs.pc = back) :
    cpu.Popped flat back (cpu.step Flat.bus flat) := by
  rw [step_of_nothingDue nothing]
  exact popped_runInstruction returns found

/-- Behind an accepted interrupt no other one is accepted until the latches are
set again, and a return does not set them. -/
private theorem nothingDue_of_shut (noJump : cpu.control.setPc = false)
    (noNonMaskable : cpu.control.nonMaskable = false)
    (shut : cpu.regs.iff1 = false ∧ cpu.regs.iff2 = false)
    (returns : back.ReturnsOn cpu.regs.f)
    (found : flat.ram.instructionAt cpu.regs.pc = back) :
    cpu.NothingDue flat := by
  have popped := popped_runInstruction returns found
  refine ⟨noJump, noNonMaskable, fun _ => .inr ?_⟩
  have restored := congrArg Registers.iff1 popped.regs
  rw [restored]
  dsimp only
  rw [shut.1, shut.2]
  split <;> rfl

/-! ## There and back -/

/-- What is left when a routine was entered that returns at once. -/
structure Linked (cpu : Cpu) (flat : Flat) (entry : Entry) (before : Cpu × Flat)
    (saved : UInt16) (back : Instruction) (left : Cpu × Flat) : Prop where
  pc : left.1.regs.pc = saved
  regs :
    left.1.regs =
      { before.1.regs with
        f.parity := left.1.regs.f.parity
        pc := left.1.regs.pc
        r := left.1.regs.r
        iff1 := left.1.regs.iff1
        iff2 := (entry.latches before.1.regs).2 }
  parity :
    left.1.regs.f.parity = before.1.regs.f.parity ∨ cpu.LosesParity flat entry
  /-- A return from an interrupt copies the second latch into the first. -/
  enabled :
    left.1.regs.iff1 =
      if back = .extended .retn then left.1.regs.iff2
      else (entry.latches before.1.regs).1
  restored : entry = .nonMaskable → back = .extended .retn →
    left.1.regs.iff1 = before.1.regs.iff2 ∧ left.1.regs.iff2 = before.1.regs.iff2
  /-- Memory is as it was but for the two bytes below the top of the stack. -/
  ram : ∀ address,
    address ≠ before.1.regs.sp - 1 → address ≠ before.1.regs.sp - 2 →
      left.2.ram.get address = before.2.ram.get address
  ports : left.2.ports = before.2.ports ∧ left.2.writes = before.2.writes
  halted : entry ≠ .call → left.1.control.halted = false

private theorem linked_of_popped {entry : Entry} {before middle left : Cpu × Flat}
    {saved : UInt16} (entered : cpu.Entered flat entry before saved middle)
    (popped : middle.1.Popped middle.2 back left) :
    cpu.Linked flat entry before saved back left := by
  have sp : middle.1.regs.sp = before.1.regs.sp - 2 := by
    rw [entered.regs]
  have top : middle.2.peekWord middle.1.regs.sp = saved := by
    rw [sp, entered.host]
    exact Flat.peekWord_pushWord before.2 before.1.regs.sp saved
  have raised : middle.1.regs.sp + 2 = before.1.regs.sp := by
    rw [sp]
    grind
  have poppedRegs := popped.regs
  rw [top, raised] at poppedRegs
  have parity : left.1.regs.f.parity = middle.1.regs.f.parity := by
    rw [poppedRegs]
  have pc : left.1.regs.pc = saved := by
    rw [poppedRegs]
  have iff1 :
      left.1.regs.iff1 =
        if back = .extended .retn then (entry.latches before.1.regs).2
        else (entry.latches before.1.regs).1 := by
    rw [poppedRegs, entered.regs]
  have iff2 : left.1.regs.iff2 = (entry.latches before.1.regs).2 := by
    rw [poppedRegs, entered.regs]
  constructor
  case pc => exact pc
  case regs =>
    refine poppedRegs.trans ?_
    rw [parity, pc, iff1, entered.regs]
  case parity =>
    rw [parity]
    exact entered.parity
  case enabled => rw [iff1, iff2]
  case restored =>
    intro nonMaskable restores
    rw [iff1, iff2, nonMaskable, if_pos restores]
    exact ⟨rfl, rfl⟩
  case ram =>
    intro address high low
    rw [popped.host, entered.host]
    exact (Memory.get_set_of_ne _ _ low.symm).trans
      (Memory.get_set_of_ne _ _ high.symm)
  case ports =>
    rw [popped.host, entered.host]
    exact ⟨rfl, rfl⟩
  case halted =>
    intro notCall
    rw [popped.halted]
    exact entered.halted notCall

/-- Whichever way a routine is entered, a return at its start leads back to the
saved address with the stack pointer and the registers as they were. -/
theorem run_linked {entry : Entry} {before : Cpu × Flat} {saved : UInt16}
    (enters : cpu.Enters flat entry before saved)
    (returns : back.ReturnsOn (cpu.step Flat.bus flat).1.regs.f)
    (found :
      (cpu.step Flat.bus flat).2.ram.instructionAt
        (cpu.step Flat.bus flat).1.regs.pc = back)
    (nothing : entry ≠ .interrupt →
      (cpu.step Flat.bus flat).1.NothingDue (cpu.step Flat.bus flat).2) :
    cpu.Linked flat entry before saved back (cpu.run Flat.bus 2 flat) := by
  have entered := entered_step enters
  have ran :
      cpu.run Flat.bus 2 flat =
        (cpu.step Flat.bus flat).1.step Flat.bus (cpu.step Flat.bus flat).2 :=
    rfl
  rw [ran]
  generalize cpu.step Flat.bus flat = middle at entered returns found nothing ⊢
  have quiet : middle.1.NothingDue middle.2 := by
    cases entry with
    | interrupt =>
        have first := congrArg Registers.iff1 entered.regs
        have second := congrArg Registers.iff2 entered.regs
        exact nothingDue_of_shut entered.jump entered.nonMaskable ⟨first, second⟩
          returns found
    | call => exact nothing (by decide)
    | nonMaskable => exact nothing (by decide)
  exact linked_of_popped entered (popped_step quiet returns found)

/-- A processor with interrupts enabled, a jump requested and a non-maskable
interrupt latched. -/
def detoured : Cpu :=
  { Cpu.new .nmos with
    regs := { (Cpu.new .nmos).regs with sp := 0x20, iff1 := true, iff2 := true }
    control := { Control.none with setPc := true, nonMaskable := true }
    newPc := some 0x1234 }

/-- `RETN` in the service routine. -/
def detour : Flat :=
  Flat.new.load 0x66 [0xED, 0x45]

/-- The interrupt comes on top of the jump, and the return leads to its target. -/
theorem run_linked_detoured :
    detoured.Enters detour .nonMaskable (detoured.stepAlone detour) 0x1234 ∧
      detoured.Linked detour .nonMaskable (detoured.stepAlone detour) 0x1234
        (.extended .retn) (detoured.run Flat.bus 2 detour) ∧
      (detoured.run Flat.bus 2 detour).1.regs.pc = 0x1234 ∧
      (detoured.run Flat.bus 2 detour).1.regs.iff1 = true := by
  have enters :
      detoured.Enters detour .nonMaskable (detoured.stepAlone detour) 0x1234 :=
    .redirected 0x1234 rfl rfl rfl
  have linked := run_linked enters .retn (by decide) fun _ =>
    ⟨by decide, by decide, by decide⟩
  exact ⟨enters, linked, linked.pc, by decide⟩

end Cpu

end Z80
