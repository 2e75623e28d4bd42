import Z80.Proofs.Effects
import Z80.Proofs.Halt
import Z80.Proofs.Models

/-!
# What an instruction can write

The registers that no operand names change under the few opcodes that are there to
change them, and an index register changes behind its own lead only.  Memory and
ports change where the tables say.

Main statement: `Cpu.confined_step`, for every step at the end of which nothing is
due.
-/

namespace Z80

/-! ## Opcodes -/

namespace Opcode

theorem ofByte_eq_iff (first : UInt8) :
    (ofByte first = .operation .exAf ↔ first = 0x08) ∧
      (ofByte first = .operation .exx ↔ first = 0xD9) ∧
      (ofByte first = .operation .ei ↔ first = 0xFB) ∧
      (ofByte first = .operation .di ↔ first = 0xF3) ∧
      (ofByte first = .operation .outputImmediate ↔ first = 0xD3) := by
  revert first
  refine Byte.of_forall_ofNat ?_
  decide +kernel

/-- The opcodes of `RETN` and `RETI` in the extended table. -/
def returns : List UInt8 :=
  [0x45, 0x4D, 0x55, 0x5D, 0x65, 0x6D, 0x75, 0x7D]

/-- The opcodes of `IM` in the extended table. -/
def modes : List UInt8 :=
  [0x46, 0x4E, 0x56, 0x5E, 0x66, 0x6E, 0x76, 0x7E]

/-- The opcodes of `OUT (C),r` and of the block operations that write to a port,
in the extended table. -/
def outputs : List UInt8 :=
  [0x41, 0x49, 0x51, 0x59, 0x61, 0x69, 0x71, 0x79, 0xA3, 0xAB, 0xB3, 0xBB]

end Opcode

/-- Whether an extended operation writes to a port. -/
def ExtendedOperation.outputs : ExtendedOperation → Bool
  | .output _ => true
  | .block op => op.action == .output
  | _ => false

theorem ExtendedOperation.ofByte_mem_iff (second : UInt8) :
    (ofByte second = .ldIA ↔ second = 0x47) ∧
      (ofByte second = .retn ↔ second ∈ Opcode.returns) ∧
      ((∃ mode, ofByte second = .im mode) ↔ second ∈ Opcode.modes) ∧
      ((ofByte second).outputs = true ↔ second ∈ Opcode.outputs) := by
  revert second
  refine Byte.of_forall_ofNat ?_
  decide +kernel

namespace Memory

/-- One of some opcodes of the extended table lies at an address. -/
def HoldsOneOf (ram : Memory) (pc : UInt16) (opcodes : List UInt8) : Prop :=
  ∃ opcode ∈ opcodes, ram.HoldsExtended pc opcode

variable {ram : Memory} {pc : UInt16}

/-- An operation without a use for `HL` has no lead before it. -/
theorem ofByte_of_instructionAt_main {pointer : Pointer} {op : Operation}
    (found : ram.instructionAt pc = .main pointer op)
    (plain : op.usesPointer = false) :
    Opcode.ofByte (ram.get pc) = .operation op := by
  cases pointer with
  | hl => exact ofByte_of_instructionAt found
  | index index =>
      have uses := Instruction.usesPointer_of_instructionAt found
      exact absurd (plain.symm.trans uses) Bool.false_ne_true

private theorem leadByte_of_pointer {index : Index}
    (behind : (ram.instructionAt pc).pointer = .index index) :
    ram.get pc = index.leadByte := by
  have leads := Opcode.leads (ram.get pc)
  obtain ⟨-, -, ix, iy⟩ := leads
  have lead : Opcode.ofByte (ram.get pc) = .indexLead index := by
    unfold instructionAt at behind
    cases first : Opcode.ofByte (ram.get pc) with
    | operation op => simp [first, Instruction.pointer] at behind
    | bitLead => simp [first, Instruction.pointer] at behind
    | extendedLead => simp [first, Instruction.pointer] at behind
    | indexLead other =>
        cases second : IndexedOpcode.ofByte (ram.get (pc + 1)) with
        | operation op =>
            simp only [first, second, Instruction.pointer, Pointer.index.injEq]
              at behind
            rw [behind]
        | bitLead => simp [first, second, Instruction.pointer] at behind
        | leadIgnored => simp [first, second, Instruction.pointer] at behind
  cases index with
  | ix => exact ix.mp lead
  | iy => exact iy.mp lead

theorem holdsOneOf_of_extended {op : ExtendedOperation} {opcodes : List UInt8}
    (found : ram.instructionAt pc = .extended op)
    (listed : ExtendedOperation.ofByte (ram.get (pc + 1)) = op →
      ram.get (pc + 1) ∈ opcodes) :
    ram.HoldsOneOf pc opcodes := by
  obtain ⟨lead, second⟩ := Instruction.instructionAt_eq_extended.mp found
  exact ⟨_, listed second, lead, rfl⟩

end Memory

/-! ## Hidden registers -/

/-- What may become of the hidden registers, and the bytes it takes. -/
inductive Memory.ChangesHidden (ram : Memory) (pc : UInt16) (regs : Registers) :
    Registers → Prop where
  | nothing : ChangesHidden ram pc regs regs
  | exchangeAf (opcode : ram.get pc = 0x08) :
      ChangesHidden ram pc regs regs.exchangeAf
  | exchangePairs (opcode : ram.get pc = 0xD9) :
      ChangesHidden ram pc regs regs.exchangePairs
  | enable (opcode : ram.get pc = 0xFB) :
      ChangesHidden ram pc regs (regs.setEnabled true)
  | disable (opcode : ram.get pc = 0xF3) :
      ChangesHidden ram pc regs (regs.setEnabled false)
  | restore (opcode : ram.HoldsOneOf pc Opcode.returns) :
      ChangesHidden ram pc regs { regs with iff1 := regs.iff2 }
  | setMode (mode : UInt8) (opcode : ram.HoldsOneOf pc Opcode.modes) :
      ChangesHidden ram pc regs { regs with im := mode }
  | loadI (opcode : ram.HoldsExtended pc 0x47) :
      ChangesHidden ram pc regs { regs with i := regs.a }
  | loadR (opcode : ram.HoldsExtended pc 0x4F) :
      ChangesHidden ram pc regs { regs with r := regs.a }

namespace Memory

private theorem changesHidden (ram : Memory) (pc : UInt16) (regs : Registers) :
    ram.ChangesHidden pc regs ((ram.instructionAt pc).changeHidden regs) := by
  obtain ⟨exAf, exx, ei, di, -⟩ := Opcode.ofByte_eq_iff (ram.get pc)
  obtain ⟨ldIA, retn, im, -⟩ :=
    ExtendedOperation.ofByte_mem_iff (ram.get (pc + 1))
  have ldRA := ExtendedOperation.ofByte_eq_ldRA_iff (ram.get (pc + 1))
  cases found : ram.instructionAt pc with
  | main pointer op =>
      have opcode := ofByte_of_instructionAt_main found
      cases op with
      | exAf => exact .exchangeAf (exAf.mp (opcode rfl))
      | exx => exact .exchangePairs (exx.mp (opcode rfl))
      | ei => exact .enable (ei.mp (opcode rfl))
      | di => exact .disable (di.mp (opcode rfl))
      | _ => exact .nothing
  | extended op =>
      obtain ⟨lead, second⟩ := Instruction.instructionAt_eq_extended.mp found
      cases op with
      | retn => exact .restore (holdsOneOf_of_extended found retn.mp)
      | im mode =>
          have listed := im.mp ⟨mode, second⟩
          exact .setMode _ (holdsOneOf_of_extended found fun _ => listed)
      | ldIA => exact .loadI ⟨lead, ldIA.mp second⟩
      | ldRA => exact .loadR ⟨lead, ldRA.mp second⟩
      | _ => exact .nothing
  | _ => exact .nothing

namespace ChangesHidden

variable {ram : Memory} {pc : UInt16} {regs left : Registers}
  (changes : ram.ChangesHidden pc regs left)

include changes

private theorem alternate (changed : left.alternate ≠ regs.alternate) :
    ram.get pc = 0x08 ∨ ram.get pc = 0xD9 := by
  cases changes with
  | exchangeAf opcode => exact .inl opcode
  | exchangePairs opcode => exact .inr opcode
  | _ => exact absurd rfl changed

private theorem latches
    (changed : left.iff1 ≠ regs.iff1 ∨ left.iff2 ≠ regs.iff2) :
    ram.get pc = 0xFB ∨ ram.get pc = 0xF3 ∨ ram.HoldsOneOf pc Opcode.returns := by
  cases changes with
  | enable opcode => exact .inl opcode
  | disable opcode => exact .inr (.inl opcode)
  | restore opcode => exact .inr (.inr opcode)
  | _ => simp [Registers.exchangeAf, Registers.exchangePairs] at changed

private theorem im (changed : left.im ≠ regs.im) : ram.HoldsOneOf pc Opcode.modes := by
  cases changes with
  | setMode mode opcode => exact opcode
  | _ => exact absurd rfl changed

private theorem i (changed : left.i ≠ regs.i) : ram.HoldsExtended pc 0x47 := by
  cases changes with
  | loadI opcode => exact opcode
  | _ => exact absurd rfl changed

private theorem r (changed : left.r ≠ regs.r) : ram.HoldsExtended pc 0x4F := by
  cases changes with
  | loadR opcode => exact opcode
  | _ => exact absurd rfl changed

private theorem kept : left.index = regs.index ∧ left.vectorBase = regs.vectorBase := by
  cases changes <;> exact ⟨rfl, rfl⟩

end ChangesHidden

end Memory

/-! ## Ports -/

private theorem Operation.outputs_effects {op : Operation}
    (silent : op ≠ .outputImmediate)
    (pointer : Pointer) (regs : Registers) (ram : Memory) :
    (op.effects pointer regs ram).outputs = [] := by
  cases op with
  | outputImmediate => exact absurd rfl silent
  | ldImmediate target | inc target | dec target => cases target <;> rfl
  | callIf condition =>
      unfold effects
      dsimp only
      split <;> rfl
  | _ => rfl

theorem BitOperation.outputs_effectsAt (op : BitOperation) (address : UInt16) :
    (op.effectsAt address).outputs = [] := by
  unfold effectsAt
  split <;> rfl

private theorem BitOperation.outputs_effects (op : BitOperation) (regs : Registers) :
    (op.effects regs).outputs = [] := by
  unfold effects
  split
  · rfl
  · exact op.outputs_effectsAt regs.hl

private theorem ExtendedOperation.outputs_effects {op : ExtendedOperation}
    (silent : op.outputs = false) (model : Model) (regs : Registers) (ram : Memory) :
    (op.effects model regs ram).outputs = [] := by
  cases op with
  | output => cases silent
  | block op =>
      obtain ⟨action, decrement, repeats⟩ := op
      cases action with
      | output => cases silent
      | _ => rfl
  | _ => rfl

/-- The bytes that it takes to write to a port. -/
theorem Instruction.opcode_of_outputs {ram : Memory} {pc : UInt16} (model : Model)
    (regs : Registers)
    (writes : ((ram.instructionAt pc).effects model regs ram).outputs ≠ []) :
    ram.get pc = 0xD3 ∨ ram.HoldsOneOf pc Opcode.outputs := by
  have first := (Opcode.ofByte_eq_iff (ram.get pc)).2.2.2.2
  have second := (ExtendedOperation.ofByte_mem_iff (ram.get (pc + 1))).2.2.2
  cases found : ram.instructionAt pc with
  | main pointer op =>
      rw [found] at writes
      by_cases silent : op = .outputImmediate
      · subst silent
        have opcode := Memory.ofByte_of_instructionAt_main found rfl
        exact .inl (first.mp opcode)
      · exact absurd (Operation.outputs_effects silent pointer regs ram) writes
  | extended op =>
      rw [found] at writes
      cases silent : op.outputs with
      | true =>
          refine .inr (Memory.holdsOneOf_of_extended found fun opcode => ?_)
          rw [← second, opcode]
          exact silent
      | false =>
          exact absurd (ExtendedOperation.outputs_effects silent model regs ram) writes
  | bits op =>
      rw [found] at writes
      exact absurd (op.outputs_effects regs) writes
  | indexedBits index displacement op =>
      rw [found] at writes
      exact absurd (op.outputs_effectsAt _) writes
  | ignoredLead =>
      rw [found] at writes
      exact absurd rfl writes

/-! ## Steps -/

private theorem Registers.index_hidden {pointer : Pointer} {index : Index}
    (other : pointer ≠ .index index) (regs : Registers) :
    (regs.hidden pointer).index index = regs.index index := by
  cases index with
  | ix => exact if_neg other
  | iy => exact if_neg other

private theorem Control.after_eq (control : Control) (boundary : Boundary) :
    control.after boundary =
      { control with
        checkInterrupt := decide (boundary ≠ .shielded)
        halted := control.halted || decide (boundary = .halting) } := by
  cases boundary <;> simp [after]

namespace Cpu

/-- On the flat host a patch changes nothing, so the hidden registers are what the
instruction makes of them. -/
theorem exists_changesHidden (cpu : Cpu) (flat : Flat) :
    let pointer := (flat.ram.instructionAt cpu.regs.pc).pointer
    ∃ count changed,
      flat.ram.ChangesHidden cpu.regs.pc (cpu.regs.refresh count) changed ∧
        (cpu.runInstruction Flat.bus flat).1.2.regs.hidden pointer =
          changed.hidden pointer := by
  intro pointer
  have fetched := fst_runInstruction_flat cpu flat
  have twice (regs : Registers) :
      (regs.hidden pointer).hidden pointer = regs.hidden pointer := by
    cases pointer with
    | hl => rfl
    | index index => cases index <;> rfl
  have made :=
    @view_runInstruction _ _ Flat.bus (·.hidden pointer) cpu flat
      (by rw [fetched]; exact twice) fun _ _ => rfl
  rw [fetched] at made
  exact ⟨_, _, flat.ram.changesHidden cpu.regs.pc _, made⟩

private theorem control_runInstruction (cpu : Cpu) (flat : Flat) :
    (cpu.runInstruction Flat.bus flat).1.2.control =
      { cpu.control with
        checkInterrupt :=
          decide ((flat.ram.instructionAt cpu.regs.pc).boundary ≠ .shielded)
        halted :=
          cpu.control.halted || flat.ram.get cpu.regs.pc == Opcode.halt } := by
  have after :
      (cpu.runInstruction Flat.bus flat).1.2.control =
        cpu.control.after (flat.ram.instructionAt cpu.regs.pc).boundary := by
    rw [← fst_runInstruction_flat]
    rfl
  have halts := Instruction.boundary_eq_halting_iff flat.ram cpu.regs.pc
  rw [after, Control.after_eq, decide_eq_decide.mpr halts]
  rfl

/-- What a step leaves that writes nothing but what its instruction is there to
write. -/
structure Confined (cpu : Cpu) (flat : Flat) (left : Cpu × Flat) : Prop where
  /-- `EX AF,AF'` and `EXX`. -/
  alternate : left.1.regs.alternate ≠ cpu.regs.alternate →
    flat.ram.get cpu.regs.pc = 0x08 ∨ flat.ram.get cpu.regs.pc = 0xD9
  /-- An instruction behind the lead of the index register. -/
  index : ∀ index, left.1.regs.index index ≠ cpu.regs.index index →
    flat.ram.get cpu.regs.pc = index.leadByte
  /-- `LD I,A`. -/
  i : left.1.regs.i ≠ cpu.regs.i → flat.ram.HoldsExtended cpu.regs.pc 0x47
  /-- `IM`. -/
  im : left.1.regs.im ≠ cpu.regs.im →
    flat.ram.HoldsOneOf cpu.regs.pc Opcode.modes
  /-- `EI`, `DI`, `RETN` and `RETI`. -/
  latches :
    left.1.regs.iff1 ≠ cpu.regs.iff1 ∨ left.1.regs.iff2 ≠ cpu.regs.iff2 →
      flat.ram.get cpu.regs.pc = 0xFB ∨ flat.ram.get cpu.regs.pc = 0xF3 ∨
        flat.ram.HoldsOneOf cpu.regs.pc Opcode.returns
  /-- `LD R,A`. -/
  refresh : left.1.regs.r &&& 0x80 ≠ cpu.regs.r &&& 0x80 →
    flat.ram.HoldsExtended cpu.regs.pc 0x4F
  vectorBase : left.1.regs.vectorBase = cpu.regs.vectorBase
  newPc : left.1.newPc = cpu.newPc
  model : left.1.model = cpu.model
  /-- Beside the check for interrupts, `HALT` sets the bit of a halt. -/
  control : ∃ check,
    left.1.control =
      { cpu.control with
        checkInterrupt := check
        halted := cpu.control.halted || flat.ram.get cpu.regs.pc == Opcode.halt }
  /-- Memory and ports. -/
  outside :
    let effects :=
      (flat.ram.instructionAt cpu.regs.pc).effects cpu.model cpu.regs flat.ram
    flat.ChangedBy effects left.2 ∧ effects.Few
  /-- `OUT (n),A`, `OUT (C),r` and the block operations that write to a port. -/
  outputs : left.2.writes ≠ flat.writes →
    flat.ram.get cpu.regs.pc = 0xD3 ∨
      flat.ram.HoldsOneOf cpu.regs.pc Opcode.outputs

private theorem confined_runInstruction (cpu : Cpu) (flat : Flat) :
    let ran := cpu.runInstruction Flat.bus flat
    cpu.Confined flat (ran.1.2, ran.2) := by
  intro ran
  obtain ⟨count, changed, changes, same⟩ := cpu.exists_changesHidden flat
  have outside := cpu.changedBy_runInstruction flat
  constructor
  case alternate =>
    have alternate :=
      Registers.view_eq_of_hidden Registers.alternate (fun _ => rfl) same
    rw [alternate]
    exact changes.alternate
  case index =>
    intro index different
    refine Decidable.byContradiction fun notLead => different ?_
    have other :
        (flat.ram.instructionAt cpu.regs.pc).pointer ≠ .index index :=
      fun behind => notLead (Memory.leadByte_of_pointer behind)
    have kept :=
      Registers.view_eq_of_hidden (·.index index) (Registers.index_hidden other) same
    rw [kept, changes.kept.1]
    cases index <;> rfl
  case i =>
    have i :=
      Registers.view_eq_of_hidden Registers.i (fun _ => rfl) same
    rw [i]
    exact changes.i
  case im =>
    have im :=
      Registers.view_eq_of_hidden Registers.im (fun _ => rfl) same
    rw [im]
    exact changes.im
  case latches =>
    have iff1 :=
      Registers.view_eq_of_hidden Registers.iff1 (fun _ => rfl) same
    have iff2 :=
      Registers.view_eq_of_hidden Registers.iff2 (fun _ => rfl) same
    rw [iff1, iff2]
    exact changes.latches
  case refresh =>
    have r :=
      Registers.view_eq_of_hidden Registers.r (fun _ => rfl) same
    rw [r]
    intro different
    refine changes.r fun unchanged => different ?_
    rw [unchanged]
    exact (CountsOn.refresh cpu.regs count).top
  case vectorBase =>
    have vectorBase :=
      Registers.view_eq_of_hidden Registers.vectorBase (fun _ => rfl) same
    exact vectorBase.trans changes.kept.2
  case newPc => rfl
  case model => rfl
  case control => exact ⟨_, cpu.control_runInstruction flat⟩
  case outside =>
    exact ⟨outside, Instruction.few_effects _ cpu.model cpu.regs flat.ram⟩
  case outputs =>
    intro different
    refine Instruction.opcode_of_outputs cpu.model cpu.regs fun silent => different ?_
    have writes := outside.writes
    rw [silent, List.append_nil] at writes
    exact Array.toList_inj.mp writes

/-- An instruction writes nothing but what it is there to write, if nothing is
served at its end. -/
theorem confined_step {cpu : Cpu} {flat : Flat} (nothing : cpu.NothingDue flat) :
    cpu.Confined flat (cpu.step Flat.bus flat) := by
  rw [step_of_nothingDue nothing]
  exact confined_runInstruction cpu flat

/-- A processor with an interrupt pending that it does not let in. -/
def exchanging : Cpu :=
  { Cpu.new .cmos with
    regs := { (Cpu.new .cmos).regs with sp := 0x10 }
    control := Control.none.assertInterrupt }

/-- `EX (SP),IX`, and the word on top of the stack. -/
def exchanged : Flat :=
  (Flat.new.load 0 [0xDD, 0xE3]).load 0x10 [0x34, 0x12]

/-- One index register and two bytes of memory change. -/
theorem confined_step_exchanging :
    exchanging.NothingDue exchanged ∧
      exchanging.Confined exchanged (exchanging.step Flat.bus exchanged) ∧
      ((exchanged.ram.instructionAt 0).effects .cmos exchanging.regs
        exchanged.ram).stores = [0x11, 0x10] ∧
      (exchanging.step Flat.bus exchanged).1.regs.ix = 0x1234 ∧
      (exchanging.step Flat.bus exchanged).2.peekWord 0x10 = 0xFFFF := by
  have nothing : exchanging.NothingDue exchanged :=
    ⟨rfl, rfl, fun _ => .inr (by decide)⟩
  exact ⟨nothing, confined_step nothing, by decide, by decide, by decide⟩

end Cpu

end Z80
