import Z80.Cpu.Command
import Z80.Host.Flat
import Z80.Proofs.Fetch
import Z80.Proofs.Frame

/-!
# The refresh register over a run

Every instruction counts its opcode bytes in the low seven bits of the refresh
register.  How many that are is known from the first two bytes that the bus
answers.  What is served at a boundary is not counted.

Main statement: `Command.countsOn_run`, for every bus and every sequence of
instructions and requests.
-/

namespace Z80

variable {σ : Type}

/-! ## Counting -/

/-- From one value of the refresh register to the other a number of cycles has
been counted: bit 7 stays, and the other seven bits go round. -/
structure CountsOn (before : UInt8) (cycles : Nat) (after : UInt8) : Prop where
  top : after &&& 0x80 = before &&& 0x80
  low : after.toNat % 128 = (before.toNat + cycles) % 128

namespace CountsOn

theorem refl (r : UInt8) : CountsOn r 0 r :=
  ⟨rfl, rfl⟩

theorem trans {before middle after : UInt8} {first second : Nat}
    (counted : CountsOn before first middle)
    (later : CountsOn middle second after) :
    CountsOn before (first + second) after := by
  refine ⟨later.top.trans counted.top, ?_⟩
  have firstLow := counted.low
  have secondLow := later.low
  omega

/-- The carry of the seven bits does not reach bit 7, nor does bit 7 reach
them. -/
theorem refresh (regs : Registers) (count : UInt8) :
    CountsOn regs.r count.toNat (regs.refresh count).r := by
  have seven : (0x7F : UInt8).toNat = 2 ^ 7 - 1 := rfl
  have lowBits (byte : UInt8) : (byte &&& 0x7F).toNat = byte.toNat % 128 := by
    rw [UInt8.toNat_and, seven, Nat.and_two_pow_sub_one_eq_mod]
  refine ⟨Byte.join_and_left _ _ (by decide), ?_⟩
  have low :
      (regs.refresh count).r &&& 0x7F = (regs.r + count) &&& 0x7F :=
    Byte.join_and_right _ _ (by decide)
  rw [← lowBits, low, lowBits, UInt8.toNat_add]
  omega

/-- Bit 7 and the other seven bits make up the register, so a count of cycles,
taken modulo 128, leaves nothing open. -/
theorem unique {before left right : UInt8} {first second : Nat}
    (counted : CountsOn before first left) (again : CountsOn before second right)
    (same : first % 128 = second % 128) : left = right := by
  have parts (byte : UInt8) :
      byte = .ofNat ((byte &&& 0x80).toNat + byte.toNat % 128) := by
    revert byte
    refine Byte.of_forall_ofNat ?_
    decide +kernel
  have low : left.toNat % 128 = right.toNat % 128 := by
    rw [counted.low, again.low]
    omega
  rw [parts left, parts right, counted.top, again.top, low]

end CountsOn

/-! ## The opcode bytes -/

/-- What a bus answers for the first two bytes of an instruction.  The second
byte is asked for behind a lead byte only. -/
def Bus.opcodes (bus : Bus σ) (pc : UInt16) (state : σ) : UInt8 × UInt8 :=
  let (first, state) := bus.fetchFirst pc state
  (first, (bus.fetchSecond pc state).1)

/-- The number of refresh cycles of an instruction with these first two bytes:
two behind the leads of the bit table and the extended table, and behind an
index lead that the opcode has a use for. -/
def refreshCycles (opcodes : UInt8 × UInt8) : Nat :=
  if opcodes.1 = 0xCB ∨ opcodes.1 = 0xED then 2
  else if opcodes.1 = 0xDD ∨ opcodes.1 = 0xFD then
    if IndexedOpcode.ofByte opcodes.2 = .leadIgnored then 1 else 2
  else 1

/-- There are four lead bytes. -/
theorem Opcode.leads (first : UInt8) :
    (Opcode.ofByte first = .bitLead ↔ first = 0xCB) ∧
      (Opcode.ofByte first = .extendedLead ↔ first = 0xED) ∧
      (Opcode.ofByte first = .indexLead .ix ↔ first = 0xDD) ∧
      (Opcode.ofByte first = .indexLead .iy ↔ first = 0xFD) := by
  revert first
  refine Byte.of_forall_ofNat ?_
  decide +kernel

theorem ExtendedOperation.ofByte_eq_ldRA_iff (second : UInt8) :
    ExtendedOperation.ofByte second = .ldRA ↔ second = 0x4F := by
  revert second
  refine Byte.of_forall_ofNat ?_
  decide +kernel

theorem refreshCycles_of_ofByte (first second : UInt8) :
    refreshCycles (first, second) =
      match Opcode.ofByte first with
      | .operation _ => 1
      | .bitLead | .extendedLead => 2
      | .indexLead _ =>
          if IndexedOpcode.ofByte second = .leadIgnored then 1 else 2 := by
  obtain ⟨bits, extended, ix, iy⟩ := Opcode.leads first
  simp only [refreshCycles, ← bits, ← extended, ← ix, ← iy]
  cases Opcode.ofByte first with
  | operation op => simp
  | bitLead => simp
  | extendedLead => simp
  | indexLead index => cases index <;> simp

namespace Instruction

/-- Whether an instruction can have these first two bytes.  Only the bit table
behind an index lead leaves something open. -/
def HasOpcodes (opcodes : UInt8 × UInt8) (instruction : Instruction) : Prop :=
  match Opcode.ofByte opcodes.1 with
  | .operation op => instruction = .main .hl op
  | .bitLead => instruction = .bits (.ofByte opcodes.2)
  | .extendedLead => instruction = .extended (.ofByte opcodes.2)
  | .indexLead index =>
      match IndexedOpcode.ofByte opcodes.2 with
      | .operation op => instruction = .main (.index index) op
      | .bitLead =>
          ∃ displacement op, instruction = .indexedBits index displacement op
      | .leadIgnored => instruction = .ignoredLead

theorem hasOpcodes_fetch (bus : Bus σ) (pc : UInt16) (state : σ) :
    ((fetch pc).run bus state).1.HasOpcodes (bus.opcodes pc state) := by
  have first :
      (Microcode.fetchFirst pc).run bus state = bus.fetchFirst pc state :=
    rfl
  unfold fetch HasOpcodes Bus.opcodes
  rw [Microcode.run_bind, first]
  cases Opcode.ofByte (bus.fetchFirst pc state).1 with
  | operation op => rfl
  | bitLead => rfl
  | extendedLead => rfl
  | indexLead index =>
      dsimp only
      have second :
          (Microcode.fetchSecond pc).run bus (bus.fetchFirst pc state).2 =
            bus.fetchSecond pc (bus.fetchFirst pc state).2 :=
        rfl
      unfold fetchIndexed
      rw [Microcode.run_bind, second]
      cases IndexedOpcode.ofByte
          (bus.fetchSecond pc (bus.fetchFirst pc state).2).1 with
      | operation op => rfl
      | bitLead => exact ⟨_, _, rfl⟩
      | leadIgnored => rfl

section HasOpcodes

variable {instruction : Instruction} {opcodes : UInt8 × UInt8}
  (has : instruction.HasOpcodes opcodes)

include has

/-- An instruction counts as many refresh cycles as its first two bytes say. -/
theorem refreshCount_of_hasOpcodes :
    instruction.refreshCount.toNat = refreshCycles opcodes := by
  revert has
  rw [refreshCycles_of_ofByte]
  unfold HasOpcodes
  cases Opcode.ofByte opcodes.1 with
  | operation op =>
      rintro rfl
      rfl
  | bitLead =>
      rintro rfl
      rfl
  | extendedLead =>
      rintro rfl
      rfl
  | indexLead index =>
      dsimp only
      cases IndexedOpcode.ofByte opcodes.2 with
      | operation op =>
          rintro rfl
          rfl
      | bitLead =>
          rintro ⟨displacement, op, rfl⟩
          rfl
      | leadIgnored =>
          rintro rfl
          rfl

theorem extended_iff_of_hasOpcodes (op : ExtendedOperation) :
    instruction = .extended op ↔
      opcodes.1 = 0xED ∧ ExtendedOperation.ofByte opcodes.2 = op := by
  rw [← (Opcode.leads opcodes.1).2.1]
  revert has
  unfold HasOpcodes
  cases Opcode.ofByte opcodes.1 with
  | operation op =>
      rintro rfl
      simp
  | bitLead =>
      rintro rfl
      simp
  | extendedLead =>
      rintro rfl
      simp
  | indexLead index =>
      dsimp only
      cases IndexedOpcode.ofByte opcodes.2 with
      | operation op =>
          rintro rfl
          simp
      | bitLead =>
          rintro ⟨displacement, op, rfl⟩
          simp
      | leadIgnored =>
          rintro rfl
          simp

end HasOpcodes

/-- `LD R,A` is the one instruction that stores into the refresh register. -/
theorem r_changeHidden {instruction : Instruction}
    (notLoaded : instruction ≠ .extended .ldRA) (regs : Registers) :
    (instruction.changeHidden regs).r = regs.r := by
  cases instruction with
  | main pointer op => cases op <;> rfl
  | extended op =>
      cases op with
      | ldRA => exact absurd rfl notLoaded
      | _ => rfl
  | _ => rfl

end Instruction

/-! ## Steps -/

namespace Cpu

variable (bus : Bus σ) (cpu : Cpu) (state : σ)

private theorem hasOpcodes_runInstruction :
    (cpu.runInstruction bus state).1.1.HasOpcodes
      (bus.opcodes cpu.regs.pc state) := by
  rw [fst_runInstruction]
  exact Instruction.hasOpcodes_fetch bus cpu.regs.pc state

/-- What is served at the boundary is not counted. -/
theorem r_step :
    (cpu.step bus state).1.regs.r = (cpu.runInstruction bus state).1.2.regs.r := by
  obtain ⟨_, spared⟩ := spared_step bus cpu state
  have kept := congrArg Registers.r spared
  exact kept

/-- Nor does serving change the accumulator. -/
theorem a_step :
    (cpu.step bus state).1.regs.a = (cpu.runInstruction bus state).1.2.regs.a := by
  obtain ⟨_, spared⟩ := spared_step bus cpu state
  have kept := congrArg (fun regs : Registers => regs.a) spared
  exact kept

private theorem countsOn_step (patch : bus.PatchKeeps Registers.r)
    (notLoaded : bus.opcodes cpu.regs.pc state ≠ (0xED, 0x4F)) :
    CountsOn cpu.regs.r (refreshCycles (bus.opcodes cpu.regs.pc state))
      (cpu.step bus state).1.regs.r := by
  have has := hasOpcodes_runInstruction bus cpu state
  have r := view_runInstruction Registers.r cpu state (fun _ => rfl) patch
  have notLdRA :
      (cpu.runInstruction bus state).1.1 ≠ .extended .ldRA := by
    rw [Ne, Instruction.extended_iff_of_hasOpcodes has,
      ExtendedOperation.ofByte_eq_ldRA_iff]
    intro loaded
    exact notLoaded (Prod.ext loaded.1 loaded.2)
  rw [r_step, r, Instruction.r_changeHidden notLdRA,
    ← Instruction.refreshCount_of_hasOpcodes has]
  exact .refresh cpu.regs _

/-- `LD R,A` stores the accumulator, with nothing counted on top. -/
theorem r_step_ldRA (loads : bus.opcodes cpu.regs.pc state = (0xED, 0x4F)) :
    (cpu.step bus state).1.regs.r = cpu.regs.a := by
  have has := Instruction.hasOpcodes_fetch bus cpu.regs.pc state
  have isLdRA :
      ((Instruction.fetch cpu.regs.pc).run bus state).1 = .extended .ldRA := by
    rw [Instruction.extended_iff_of_hasOpcodes has, loads]
    exact ⟨rfl, rfl⟩
  rw [r_step]
  simp only [runInstruction, Instruction.perform, Microcode.run_bind, isLdRA]
  rfl

/-- `LD A,R` reads the register when its own bytes have been counted. -/
theorem a_step_ldAR (loads : bus.opcodes cpu.regs.pc state = (0xED, 0x5F)) :
    (cpu.step bus state).1.regs.a = (cpu.regs.refresh 2).r ∧
      (cpu.step bus state).1.regs.r = (cpu.regs.refresh 2).r := by
  have has := Instruction.hasOpcodes_fetch bus cpu.regs.pc state
  have isLdAR :
      ((Instruction.fetch cpu.regs.pc).run bus state).1 = .extended .ldAR := by
    rw [Instruction.extended_iff_of_hasOpcodes has, loads]
    exact ⟨rfl, rfl⟩
  rw [a_step, r_step]
  simp only [runInstruction, Instruction.perform, Microcode.run_bind, isLdAR]
  exact ⟨rfl, rfl⟩

end Cpu

/-! ## Runs -/

/-- The refresh cycles of a sequence of instructions. -/
def totalCycles : List (UInt8 × UInt8) → Nat
  | [] => 0
  | opcodes :: rest => refreshCycles opcodes + totalCycles rest

private theorem totalCycles_append (first second : List (UInt8 × UInt8)) :
    totalCycles (first ++ second) = totalCycles first + totalCycles second := by
  induction first with
  | nil => exact (Nat.zero_add _).symm
  | cons opcodes rest inductionHypothesis =>
      rw [List.cons_append, totalCycles, inductionHypothesis, totalCycles,
        Nat.add_assoc]

namespace Command

/-- The first two bytes of the instructions that run while commands are carried
out. -/
def opcodes (bus : Bus σ) : List Command → Cpu × σ → List (UInt8 × UInt8)
  | [], _ => []
  | command :: rest, current =>
      let later := opcodes bus rest (command.apply bus current)
      match command with
      | .step => bus.opcodes current.1.regs.pc current.2 :: later
      | _ => later

/-- Of the commands, a reset and a snapshot replace the refresh register. -/
def ReplacesRefresh : Command → Prop
  | .reset | .load _ => True
  | .step | .triggerInterrupt | .clearInterrupt | .triggerNonMaskable
  | .setProgramCounter _ | .setVectorBase _ => False

private theorem opcodes_cons (bus : Bus σ) (command : Command) (rest : List Command)
    (current : Cpu × σ) :
    opcodes bus (command :: rest) current =
      opcodes bus [command] current ++
        opcodes bus rest (command.apply bus current) := by
  cases command <;> rfl

private theorem countsOn_apply {bus : Bus σ} (patch : bus.PatchKeeps Registers.r)
    {command : Command} {current : Cpu × σ} (keeps : ¬ command.ReplacesRefresh)
    (notLoaded : (0xED, 0x4F) ∉ opcodes bus [command] current) :
    CountsOn current.1.regs.r
      (totalCycles (opcodes bus [command] current))
      (command.apply bus current).1.regs.r := by
  cases command with
  | step =>
      have notFirst := List.ne_of_not_mem_cons notLoaded
      exact Cpu.countsOn_step bus current.1 current.2 patch notFirst.symm
  | setProgramCounter target =>
      have same : (current.1.setProgramCounter target).regs = current.1.regs := by
        unfold Cpu.setProgramCounter
        split <;> rfl
      exact same ▸ .refl current.1.regs.r
  | reset => exact absurd trivial keeps
  | load data => exact absurd trivial keeps
  | _ => exact .refl _

private theorem countsOn_run_of_keeps {bus : Bus σ} (patch : bus.PatchKeeps Registers.r)
    {commands : List Command} {current : Cpu × σ}
    (keep : ∀ command ∈ commands, ¬ command.ReplacesRefresh)
    (notLoaded : (0xED, 0x4F) ∉ opcodes bus commands current) :
    CountsOn current.1.regs.r
      (totalCycles (opcodes bus commands current))
      (run bus commands current).1.regs.r := by
  induction commands generalizing current with
  | nil => exact .refl _
  | cons command rest inductionHypothesis =>
      simp only [List.mem_cons, forall_eq_or_imp] at keep
      obtain ⟨keepsFirst, keepRest⟩ := keep
      rw [opcodes_cons, List.mem_append, not_or] at notLoaded
      obtain ⟨notFirst, notLater⟩ := notLoaded
      have first := countsOn_apply patch keepsFirst notFirst
      have later := inductionHypothesis keepRest notLater
      rw [opcodes_cons, totalCycles_append]
      exact first.trans later

/-- Over every run without `LD R,A` the refresh register counts the opcode bytes
of the instructions that run, and nothing else: requests and what is served at
the boundaries are not counted.  `LD R,A` makes it the accumulator, and `LD A,R`
reads the count with its own bytes in it. -/
theorem countsOn_run (bus : Bus σ) :
    (bus.PatchKeeps Registers.r →
      ∀ commands current,
        (∀ command ∈ commands, ¬ command.ReplacesRefresh) →
        (0xED, 0x4F) ∉ opcodes bus commands current →
        CountsOn current.1.regs.r
          (totalCycles (opcodes bus commands current))
          (run bus commands current).1.regs.r) ∧
      (∀ (cpu : Cpu) (state : σ),
        (cpu.step bus state).1.regs.r =
          (cpu.runInstruction bus state).1.2.regs.r) ∧
      (∀ (cpu : Cpu) (state : σ),
        bus.opcodes cpu.regs.pc state = (0xED, 0x4F) →
        (cpu.step bus state).1.regs.r = cpu.regs.a) ∧
      ∀ (cpu : Cpu) (state : σ),
        bus.opcodes cpu.regs.pc state = (0xED, 0x5F) →
        CountsOn cpu.regs.r 2 (cpu.step bus state).1.regs.a ∧
          (cpu.step bus state).1.regs.r = (cpu.step bus state).1.regs.a := by
  refine ⟨?_, Cpu.r_step bus, ?_, ?_⟩
  · intro patch commands current keep notLoaded
    exact countsOn_run_of_keeps patch keep notLoaded
  · intro cpu state loads
    exact Cpu.r_step_ldRA bus cpu state loads
  · intro cpu state loads
    obtain ⟨a, r⟩ := Cpu.a_step_ldAR bus cpu state loads
    rw [a, r]
    exact ⟨.refresh cpu.regs 2, rfl⟩

/-- A processor whose refresh register is about to go round. -/
def rolling : Cpu :=
  { Cpu.new .nmos with regs := { (Cpu.new .nmos).regs with r := 0xFE } }

/-- An index lead in front of `NOP`, `RLC B` and `HALT`; the rest is `NOP`. -/
def rollingHost : Flat :=
  Flat.new.load 0 [0xDD, 0x00, 0xCB, 0x00, 0x76]

/-- The second round of `HALT` ends in a non-maskable interrupt. -/
def rounds : List Command :=
  [.step, .step, .step, .step, .triggerNonMaskable, .step, .step]

/-- Seven cycles are counted: one for the lead and one for the opcode behind it,
two for `RLC B`, one for each round of `HALT` and one for the first instruction
of the service routine. -/
theorem countsOn_run_rolling :
    (∀ command ∈ rounds, ¬ command.ReplacesRefresh) ∧
      (0xED, 0x4F) ∉ opcodes Flat.bus rounds (rolling, rollingHost) ∧
      CountsOn 0xFE 7 (run Flat.bus rounds (rolling, rollingHost)).1.regs.r ∧
      (run Flat.bus rounds (rolling, rollingHost)).1.regs.r = 0x85 := by
  have keep : ∀ command ∈ rounds, ¬ command.ReplacesRefresh := by
    simp [rounds, ReplacesRefresh]
  have notLoaded :
      (0xED, 0x4F) ∉ opcodes Flat.bus rounds (rolling, rollingHost) := by
    decide
  have counts :=
    (countsOn_run Flat.bus).1 (fun _ _ => rfl) rounds (rolling, rollingHost) keep
      notLoaded
  have seven :
      totalCycles (opcodes Flat.bus rounds (rolling, rollingHost)) = 7 := by
    decide
  rw [seven] at counts
  exact ⟨keep, notLoaded, counts, by decide⟩

end Command

end Z80
