import Z80.Cpu.Step
import Z80.Host.Flat

/-!
# Service on the flat host

What entering a service routine makes of a processor and of its memory, in
closed form.

Main statements: `Cpu.service_flat_eq_served` for the boundary itself, and
`Cpu.serviceSampled_flat` for the interrupt that is accepted inside `LD A,I`
and `LD A,R`.
-/

namespace Z80

/-! ## Pushed words -/

namespace Flat

/-- The host after a word was pushed: the high byte lies just below the old top
of the stack, and the low byte below it. -/
def pushWord (flat : Flat) (sp word : UInt16) : Flat :=
  (flat.poke (sp - 1) (Word.high word)).poke (sp - 2) (Word.low word)

/-- A word lies at an address, low byte first. -/
def HasWord (flat : Flat) (address word : UInt16) : Prop :=
  flat.peek address = Word.low word ∧ flat.peek (address + 1) = Word.high word

theorem HasWord.peekWord {flat : Flat} {address word : UInt16}
    (lies : flat.HasWord address word) : flat.peekWord address = word := by
  have low : flat.ram.get address = Word.low word := lies.1
  have high : flat.ram.get (address + 1) = Word.high word := lies.2
  unfold Flat.peekWord Memory.getWord
  rw [low, high, Word.ofBytes_high_low]

/-- A pushed word lies at the new top of the stack, wherever that is. -/
theorem hasWord_pushWord (flat : Flat) (sp word : UInt16) :
    (flat.pushWord sp word).HasWord (sp - 2) word := by
  have above : sp - 2 + 1 = sp - 1 := by grind
  have apart : sp - 2 ≠ sp - 1 := by grind
  unfold HasWord
  rw [above]
  exact ⟨Memory.get_set_self _ _ _,
    (Memory.get_set_of_ne _ _ apart).trans (Memory.get_set_self _ _ _)⟩

theorem peekWord_pushWord (flat : Flat) (sp word : UInt16) :
    (flat.pushWord sp word).peekWord (sp - 2) = word :=
  (flat.hasWord_pushWord sp word).peekWord

/-- All other bytes stay as they were. -/
theorem peek_pushWord_of_ne (flat : Flat) {sp address : UInt16} (word : UInt16)
    (high : address ≠ sp - 1) (low : address ≠ sp - 2) :
    (flat.pushWord sp word).peek address = flat.peek address :=
  (Memory.get_set_of_ne _ _ low.symm).trans (Memory.get_set_of_ne _ _ high.symm)

end Flat

namespace Registers

open Microcode

theorem run_push_flat (regs : Registers) (word : UInt16) (flat : Flat) :
    (regs.push word).run Flat.bus flat =
      ({ regs with sp := regs.sp - 2 },
        (flat.pushWord regs.sp word).addCycles 7) := by
  have above : regs.sp - 2 + 1 = regs.sp - 1 := by grind
  unfold Flat.pushWord
  rw [← above]
  rfl

theorem run_enter_flat (regs : Registers) (cycles : Nat) (target : UInt16)
    (flat : Flat) :
    (regs.enter cycles target).run Flat.bus flat =
      ({ regs with sp := regs.sp - 2, pc := target },
        (flat.pushWord regs.sp regs.pc).addCycles (cycles + 7)) := by
  have charged :
      (internal cycles).run Flat.bus flat = ((), flat.addCycles cycles) :=
    rfl
  unfold enter pushPc
  rw [run_bind, charged, run_bind, run_push_flat, run_pure]
  simp only [Flat.pushWord, Flat.poke, Flat.addCycles, Nat.add_assoc]

private theorem run_enterVectored_flat (regs : Registers) (cycles : Nat)
    (vector : UInt16) (flat : Flat) :
    (regs.enterVectored cycles vector).run Flat.bus flat =
      ({ regs with
          sp := regs.sp - 2
          pc := (flat.pushWord regs.sp regs.pc).ram.getWord vector },
        (flat.pushWord regs.sp regs.pc).addCycles (cycles + 13)) := by
  have charged :
      (internal cycles).run Flat.bus flat = ((), flat.addCycles cycles) :=
    rfl
  have looked (host : Flat) :
      (readWord vector).run Flat.bus host =
        (host.ram.getWord vector, host.addCycles 6) :=
    rfl
  unfold enterVectored
  rw [run_bind, charged, run_bind, run_push_flat, run_bind, looked, run_pure]
  simp only [Flat.pushWord, Flat.poke, Flat.addCycles, Nat.add_assoc]

end Registers

namespace Cpu

/-! ## Entries -/

/-- The address that an interrupt saves.  It lies behind a `HALT`. -/
def returnAddress (cpu : Cpu) : UInt16 :=
  if cpu.isHalted then cpu.regs.pc + 1 else cpu.regs.pc

/-- What a non-maskable interrupt makes of a processor and its host. -/
def nonMaskableTaken (cpu : Cpu) (flat : Flat) : Cpu × Flat :=
  ({ cpu with
      regs :=
        { cpu.regs with iff1 := false, sp := cpu.regs.sp - 2, pc := 0x0066 }
      control := { cpu.control with halted := false, nonMaskable := false } },
    (flat.pushWord cpu.regs.sp cpu.returnAddress).addCycles 11)

/-- What an accepted maskable interrupt makes of a processor and its host.  In
mode 2 the vector is read after the push. -/
def interruptTaken (cpu : Cpu) (flat : Flat) : Cpu × Flat :=
  let regs := { cpu.regs with iff1 := false, iff2 := false }
  let control := { cpu.control with halted := false }
  let pushed := flat.pushWord cpu.regs.sp cpu.returnAddress
  let vector := Word.ofBytes cpu.regs.i cpu.regs.vectorBase
  if cpu.regs.im = 0 then
    ({ cpu with
        regs := { regs with pc := cpu.returnAddress }
        control := control },
      flat)
  else if cpu.regs.im = 1 then
    ({ cpu with
        regs := { regs with sp := cpu.regs.sp - 2, pc := 0x0038 }
        control := control },
      pushed.addCycles 13)
  else
    ({ cpu with
        regs :=
          { regs with
            sp := cpu.regs.sp - 2
            pc := pushed.ram.getWord vector }
        control := control },
      pushed.addCycles 19)

/-- The processor after a requested jump, which also ends a halt. -/
def jumped (cpu : Cpu) : Cpu :=
  { cpu with
    regs := { cpu.regs with pc := cpu.programCounter }
    control := { cpu.control with setPc := false, halted := false }
    newPc := none }

/-- What a boundary makes of a processor and its host: a requested jump comes
first and a non-maskable interrupt on top of it, and only then a maskable
one. -/
def served (cpu : Cpu) (flat : Flat) : Cpu × Flat :=
  let jumped := if cpu.control.setPc then cpu.jumped else cpu
  if cpu.control.nonMaskable then jumped.nonMaskableTaken flat
  else if cpu.control.setPc then (jumped, flat)
  else if cpu.control.interruptPending && cpu.regs.iff1 &&
      cpu.control.checkInterrupt then
    cpu.interruptTaken flat
  else
    (cpu, flat)

def loseParity (cpu : Cpu) : Cpu :=
  { cpu with regs.f.parity := false }

/-! ## Service on the flat host -/

theorem poll_flat (cpu : Cpu) (flat : Flat) :
    cpu.poll Flat.bus flat = (cpu, flat) := by
  show (cpu.latch .none, flat) = (cpu, flat)
  rw [latch, Control.latch_none]

theorem leaveHalt_eq (cpu : Cpu) :
    cpu.leaveHalt =
      { cpu with
        regs := { cpu.regs with pc := cpu.returnAddress }
        control := { cpu.control with halted := false } } := by
  obtain ⟨regs, ⟨check, pending, halted, line, nonMaskable, setPc⟩, _, _⟩ := cpu
  cases halted <;> rfl

theorem serviceNonMaskable_flat (cpu : Cpu) (flat : Flat) :
    cpu.serviceNonMaskable Flat.bus flat = cpu.nonMaskableTaken flat := by
  simp only [serviceNonMaskable, runRegisters, leaveHalt_eq,
    Registers.run_enter_flat]
  rfl

theorem acceptInterrupt_flat (cpu : Cpu) (flat : Flat) :
    cpu.acceptInterrupt Flat.bus flat = cpu.interruptTaken flat := by
  simp only [acceptInterrupt, runRegisters, leaveHalt_eq,
    Registers.run_enter_flat, Registers.run_enterVectored_flat]
  have sameMode : (cpu.regs.setEnabled false).im = cpu.regs.im := rfl
  rw [sameMode, interruptTaken]
  split
  case h_1 zero =>
    rw [if_pos zero]
    rfl
  case h_2 one =>
    have notZero : cpu.regs.im ≠ 0 := by
      rw [one]
      decide
    rw [if_neg notZero, if_pos one]
    rfl
  case h_3 notZero notOne =>
    rw [if_neg notZero, if_neg notOne]
    rfl

theorem service_flat (cpu : Cpu) (flat : Flat)
    (noJump : cpu.control.setPc = false) :
    cpu.service Flat.bus flat =
      if cpu.control.nonMaskable then cpu.nonMaskableTaken flat
      else if cpu.control.interruptPending && cpu.regs.iff1 &&
          cpu.control.checkInterrupt then
        cpu.interruptTaken flat
      else
        (cpu, flat) := by
  simp only [service, poll_flat, noJump, Bool.false_or]
  cases urgent : cpu.control.nonMaskable with
  | true =>
      simp [serviceUrgent, noJump, urgent, serviceNonMaskable_flat]
  | false => simp [acceptInterrupt_flat]

private theorem serviceJump_flat (cpu : Cpu) (flat : Flat) :
    cpu.serviceJump Flat.bus flat = (cpu.jumped, flat) := by
  obtain ⟨regs, control, newPc, model⟩ := cpu
  cases newPc <;> rfl

theorem service_flat_eq_served (cpu : Cpu) (flat : Flat) :
    cpu.service Flat.bus flat = cpu.served flat := by
  have noNonMaskable : cpu.jumped.control.nonMaskable = cpu.control.nonMaskable :=
    rfl
  cases jump : cpu.control.setPc with
  | false =>
      rw [service_flat cpu flat jump, served]
      simp only [jump, Bool.false_eq_true, if_false]
  | true =>
      simp only [service, poll_flat, jump, Bool.true_or, if_true, serviceUrgent,
        serviceJump_flat, noNonMaskable, served]
      split
      · exact serviceNonMaskable_flat cpu.jumped flat
      · rfl

section Served

variable {cpu : Cpu} (flat : Flat)

theorem served_of_nonMaskable (urgent : cpu.control.nonMaskable = true) :
    cpu.served flat =
      (if cpu.control.setPc then cpu.jumped else cpu).nonMaskableTaken flat :=
  if_pos urgent

theorem served_of_jump (jump : cpu.control.setPc = true)
    (noNonMaskable : cpu.control.nonMaskable = false) :
    cpu.served flat = (cpu.jumped, flat) := by
  simp [served, jump, noNonMaskable]

theorem served_of_notUrgent (noJump : cpu.control.setPc = false)
    (noNonMaskable : cpu.control.nonMaskable = false) :
    cpu.served flat =
      if cpu.control.interruptPending && cpu.regs.iff1 &&
          cpu.control.checkInterrupt then
        cpu.interruptTaken flat
      else
        (cpu, flat) := by
  simp [served, noJump, noNonMaskable]

/-- A change of the processor that no boundary looks at may be made before or
after it. -/
theorem served_commutes (change : Cpu → Cpu)
    (sameControl : (change cpu).control = cpu.control)
    (sameEnable : (change cpu).regs.iff1 = cpu.regs.iff1)
    (jumps : (change cpu).jumped = change cpu.jumped)
    (nonMaskable : ∀ cpu,
      (change cpu).nonMaskableTaken flat =
        (cpu.nonMaskableTaken flat).map change id)
    (interrupt :
      (change cpu).interruptTaken flat = (cpu.interruptTaken flat).map change id) :
    (change cpu).served flat = (cpu.served flat).map change id := by
  have jumped :
      (if cpu.control.setPc then (change cpu).jumped else change cpu) =
        change (if cpu.control.setPc then cpu.jumped else cpu) := by
    rw [jumps]
    split <;> rfl
  simp only [served, sameControl, sameEnable, jumped]
  split
  · exact nonMaskable _
  · split
    · rfl
    · split
      · exact interrupt
      · rfl

end Served

/-- Of the registers, accepting an interrupt changes only the enable latches,
the stack pointer and the program counter. -/
theorem exists_fst_interruptTaken (cpu : Cpu) (flat : Flat) :
    ∃ sp pc : UInt16,
      (cpu.interruptTaken flat).1 =
        { cpu with
          regs := { cpu.regs with iff1 := false, iff2 := false, sp := sp, pc := pc }
          control := { cpu.control with halted := false } } := by
  unfold interruptTaken
  split
  · exact ⟨cpu.regs.sp, cpu.returnAddress, rfl⟩
  · split
    · exact ⟨_, _, rfl⟩
    · exact ⟨_, _, rfl⟩

private theorem iff1_interruptTaken (cpu : Cpu) (flat : Flat) :
    (cpu.interruptTaken flat).1.regs.iff1 = false := by
  obtain ⟨sp, pc, taken⟩ := exists_fst_interruptTaken cpu flat
  rw [taken]

private theorem iff2_interruptTaken (cpu : Cpu) (flat : Flat) :
    (cpu.interruptTaken flat).1.regs.iff2 = false := by
  obtain ⟨sp, pc, taken⟩ := exists_fst_interruptTaken cpu flat
  rw [taken]

theorem flags_interruptTaken (cpu : Cpu) (flat : Flat) :
    (cpu.interruptTaken flat).1.regs.f = cpu.regs.f := by
  obtain ⟨sp, pc, taken⟩ := exists_fst_interruptTaken cpu flat
  rw [taken]

theorem control_interruptTaken (cpu : Cpu) (flat : Flat) :
    (cpu.interruptTaken flat).1.control =
      { cpu.control with halted := false } := by
  obtain ⟨sp, pc, taken⟩ := exists_fst_interruptTaken cpu flat
  rw [taken]

theorem interruptTaken_loseParity (cpu : Cpu) (flat : Flat) :
    cpu.loseParity.interruptTaken flat =
      ((cpu.interruptTaken flat).1.loseParity,
        (cpu.interruptTaken flat).2) := by
  unfold interruptTaken
  by_cases zero : cpu.regs.im = 0
  · have lost : cpu.loseParity.regs.im = 0 := zero
    simp only [if_pos zero, if_pos lost]
    rfl
  · have lost : cpu.loseParity.regs.im ≠ 0 := zero
    simp only [if_neg zero, if_neg lost]
    by_cases one : cpu.regs.im = 1
    · have lostOne : cpu.loseParity.regs.im = 1 := one
      simp only [if_pos one, if_pos lostOne]
      rfl
    · have lostOne : cpu.loseParity.regs.im ≠ 1 := one
      simp only [if_neg one, if_neg lostOne]
      rfl

/-- After an instruction that shows the second enable latch in the parity bit,
an interrupt that is accepted at once clears the bit. -/
theorem serviceSampled_flat (cpu : Cpu) (flat : Flat)
    (noJump : cpu.control.setPc = false)
    (shown : cpu.regs.f.parity = cpu.regs.iff2) :
    cpu.serviceSampled Flat.bus flat =
      if cpu.model.losesParity && cpu.regs.iff2 &&
          (cpu.control.interruptPending && !cpu.control.nonMaskable &&
            cpu.regs.iff1) then
        cpu.loseParity.interruptTaken flat
      else
        (cpu, flat) := by
  simp only [serviceSampled, shown, poll_flat, noJump, Bool.not_false,
    Bool.and_true, acceptInterrupt_flat]
  cases sampled : cpu.model.losesParity && cpu.regs.iff2 with
  | false => simp
  | true =>
      have enabled : cpu.regs.iff2 = true := (Bool.and_eq_true_iff.mp sampled).2
      cases due : cpu.control.interruptPending && !cpu.control.nonMaskable &&
          cpu.regs.iff1 with
      | false => simp [enabled]
      | true =>
          rw [interruptTaken_loseParity]
          simp [iff2_interruptTaken, loseParity]

/-- While a jump is requested nothing is accepted inside the instruction, so the
parity bit stays as well. -/
theorem serviceSampled_flat_of_jump (cpu : Cpu) (flat : Flat)
    (jump : cpu.control.setPc = true)
    (shown : cpu.regs.f.parity = cpu.regs.iff2) :
    cpu.serviceSampled Flat.bus flat = (cpu, flat) := by
  simp only [serviceSampled, poll_flat, shown, jump, Bool.not_true,
    Bool.and_false, Bool.false_and, Bool.false_eq_true, if_false]
  cases enabled : cpu.regs.iff2 with
  | true => simp
  | false => simp

/-- Once an interrupt was accepted inside the instruction, nothing is left for
the boundary to serve. -/
theorem service_interruptTaken (cpu : Cpu) (flat : Flat)
    (noJump : cpu.control.setPc = false)
    (noNonMaskable : cpu.control.nonMaskable = false) :
    (cpu.interruptTaken flat).1.service Flat.bus (cpu.interruptTaken flat).2 =
      cpu.interruptTaken flat := by
  have noJumpAfter : (cpu.interruptTaken flat).1.control.setPc = false := by
    rw [control_interruptTaken]
    exact noJump
  have noNonMaskableAfter :
      (cpu.interruptTaken flat).1.control.nonMaskable = false := by
    rw [control_interruptTaken]
    exact noNonMaskable
  rw [service_flat _ _ noJumpAfter, noNonMaskableAfter, iff1_interruptTaken]
  simp

end Cpu

end Z80
