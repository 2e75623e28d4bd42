import Z80.Proofs.IndexedOperands
import Z80.Proofs.Timing
import Z80.Proofs.Unread

/-!
# Effects of instructions

Outside the processor an instruction stores bytes in memory and writes bytes to
ports.  The tables of the processor say where, given the registers and the memory
before it.

Main statements: `Instruction.effects_execute`, that the microcode of an
instruction has the effects of the tables, and `Cpu.changedBy_runInstruction`, that
on the flat host nothing else is changed.
-/

namespace Z80

open Microcode

/-- What is written outside the processor, in order. -/
structure Effects where
  /-- The addresses that are stored to. -/
  stores : List UInt16
  /-- The ports that are written to, with their bytes. -/
  outputs : List (UInt16 × UInt8)

namespace Effects

def none : Effects :=
  ⟨[], []⟩

def storesTo (addresses : List UInt16) : Effects :=
  ⟨addresses, []⟩

def outputsTo (port : UInt16) (byte : UInt8) : Effects :=
  ⟨[], [(port, byte)]⟩

/-- Effects one after the other. -/
def followedBy (first second : Effects) : Effects :=
  ⟨first.stores ++ second.stores, first.outputs ++ second.outputs⟩

end Effects

/-! ## The tables -/

/-- The effects of an operation of the main table.  A word is pushed high byte
first. -/
def Operation.effects (op : Operation) (pointer : Pointer) (regs : Registers)
    (ram : Memory) : Effects :=
  let pushed := .storesTo [regs.sp - 1, regs.sp - 2]
  match op with
  | .ldMemory _ | .ldImmediate .memory | .inc .memory | .dec .memory =>
      .storesTo [regs.operandAddress ram pointer]
  | .storeA address => .storesTo [regs.addressPair address]
  | .storeAAbsolute => .storesTo [ram.getWord (regs.pc + 1)]
  | .storePointerAbsolute =>
      let address := ram.getWord (regs.pc + (1 + pointer.leadBytes))
      .storesTo [address, address + 1]
  | .push _ | .call | .rst _ => pushed
  | .callIf condition => if condition.holds regs.f then pushed else .none
  | .exStack => .storesTo [regs.sp + 1, regs.sp]
  | .outputImmediate =>
      .outputsTo (Word.ofBytes regs.a (ram.get (regs.pc + 1))) regs.a
  | _ => .none

namespace BitOperation

/-- A bit test stores nothing. -/
def effectsAt (op : BitOperation) (address : UInt16) : Effects :=
  if op.action.isTest then .none else .storesTo [address]

def effects (op : BitOperation) (regs : Registers) : Effects :=
  match op.operand with
  | .register _ => .none
  | .memory => op.effectsAt regs.hl

end BitOperation

/-- The effects of one round.  The port number holds the counter that is already
counted down. -/
def BlockOperation.effects (op : BlockOperation) (regs : Registers)
    (ram : Memory) : Effects :=
  match op.action with
  | .load => .storesTo [regs.de]
  | .compare => .none
  | .input => .storesTo [regs.hl]
  | .output => .outputsTo (Word.ofBytes (regs.b - 1) regs.c) (ram.get regs.hl)

def ExtendedOperation.effects (op : ExtendedOperation) (model : Model)
    (regs : Registers) (ram : Memory) : Effects :=
  match op with
  | .output (some source) => .outputsTo regs.bc (regs.get .hl source)
  | .output none => .outputsTo regs.bc model.outputZero
  | .storePairAbsolute _ =>
      let address := ram.getWord (regs.pc + 2)
      .storesTo [address, address + 1]
  | .rrd | .rld => .storesTo [regs.hl]
  | .block op => op.effects regs ram
  | _ => .none

def Instruction.effects (instruction : Instruction) (model : Model)
    (regs : Registers) (ram : Memory) : Effects :=
  match instruction with
  | .main pointer op => op.effects pointer regs ram
  | .bits op => op.effects regs
  | .indexedBits index displacement op =>
      op.effectsAt (Word.displace (regs.index index) displacement)
  | .extended op => op.effects model regs ram
  | .ignoredLead => .none

/-! ## Microcode -/

/-- The bytes that were written to ports. -/
def Transaction.outputs : Transaction → List (UInt16 × UInt8)
  | ⟨.output port byte, _⟩ => [(port, byte)]
  | _ => []

def Transaction.effects (transaction : Transaction) : Effects :=
  ⟨transaction.stores.map Prod.fst, transaction.outputs⟩

/-- What the effects leave of a host: memory elsewhere, the answers of the ports,
and what was written to ports before. -/
structure Flat.ChangedBy (effects : Effects) (before after : Flat) : Prop where
  ram : ∀ address ∉ effects.stores,
    after.ram.get address = before.ram.get address
  writes : after.writes.toList = before.writes.toList ++ effects.outputs
  ports : after.ports = before.ports

theorem Flat.ChangedBy.trans {first second : Effects} {before middle after : Flat}
    (earlier : ChangedBy first before middle)
    (later : ChangedBy second middle after) :
    ChangedBy (first.followedBy second) before after := by
  refine ⟨?_, ?_, later.ports.trans earlier.ports⟩
  · intro address elsewhere
    have notEarlier : address ∉ first.stores :=
      fun stored => elsewhere (List.mem_append_left _ stored)
    have notLater : address ∉ second.stores :=
      fun stored => elsewhere (List.mem_append_right _ stored)
    exact (later.ram address notLater).trans (earlier.ram address notEarlier)
  · rw [later.writes, earlier.writes, List.append_assoc]
    rfl

private theorem Flat.changedBy_poke (flat : Flat) (address : UInt16) (byte : UInt8) :
    ChangedBy (.storesTo [address]) flat (flat.poke address byte) := by
  refine ⟨?_, (List.append_nil _).symm, rfl⟩
  intro asked elsewhere
  exact flat.ram.get_set_of_ne byte (List.ne_of_not_mem_cons elsewhere).symm

theorem Flat.changedBy_refl (flat : Flat) : ChangedBy .none flat flat :=
  ⟨fun _ _ => rfl, (List.append_nil _).symm, rfl⟩

theorem Flat.changedBy_addCycles (flat : Flat) (cycles : Nat) :
    ChangedBy .none flat (flat.addCycles cycles) :=
  ⟨fun _ _ => rfl, (List.append_nil _).symm, rfl⟩

private theorem Cycle.changedBy_perform (cycle : Cycle) (flat : Flat) :
    flat.ChangedBy (Transaction.effects ⟨cycle, (cycle.perform Flat.bus flat).1⟩)
      (cycle.perform Flat.bus flat).2 := by
  have written (host : Flat) (address : UInt16) (byte : UInt8) :
      host.ChangedBy (.storesTo [address])
        ((host.addCycles 3).poke address byte) :=
    (host.changedBy_addCycles 3).trans (Flat.changedBy_poke _ address byte)
  cases cycle with
  | internal cycles => exact flat.changedBy_addCycles cycles
  | input => exact flat.changedBy_addCycles 4
  | readMemory | fetchByte => exact flat.changedBy_addCycles 3
  | fetchFirst | fetchSecond => exact flat.changedBy_addCycles 4
  | readWord | fetchWord => exact flat.changedBy_addCycles 6
  | tapePatch => exact flat.changedBy_refl
  | writeMemory address byte => exact written flat address byte
  | writeWord address word =>
      exact (written flat address _).trans (written _ (address + 1) _)
  | output port byte =>
      refine ⟨fun _ _ => rfl, ?_, rfl⟩
      exact Array.toList_push

namespace Microcode

variable {α β : Type}

def effects (code : Microcode α) (flat : Flat) : Effects :=
  ⟨code.stored Flat.bus flat,
    (code.transactions Flat.bus flat).flatMap Transaction.outputs⟩

theorem effects_bind (code : Microcode α) (next : α → Microcode β)
    (flat : Flat) :
    (code >>= next).effects flat =
      (code.effects flat).followedBy
        ((next (code.run Flat.bus flat).1).effects (code.run Flat.bus flat).2) := by
  simp [effects, stored, Effects.followedBy]

/-- The effects of microcode are all that it makes of the host. -/
theorem changedBy_run (code : Microcode α) (flat : Flat) :
    flat.ChangedBy (code.effects flat) (code.run Flat.bus flat).2 := by
  induction code generalizing flat with
  | done value => exact flat.changedBy_refl
  | step cycle next inductionHypothesis =>
      have first := cycle.changedBy_perform flat
      have later := inductionHypothesis (cycle.perform Flat.bus flat).1
        (cycle.perform Flat.bus flat).2
      have together :
          (step cycle next).effects flat =
            (Transaction.effects
                ⟨cycle, (cycle.perform Flat.bus flat).1⟩).followedBy
              ((next (cycle.perform Flat.bus flat).1).effects
                (cycle.perform Flat.bus flat).2) := by
        simp [effects, stored, transactions, Effects.followedBy,
          Transaction.effects]
      rw [together]
      exact first.trans later

end Microcode

/-! ## Operations -/

/-- What is pushed lies just below the old top of the stack. -/
theorem Registers.effects_pushed (regs : Registers) :
    Effects.storesTo [regs.sp - 2 + 1, regs.sp - 2] =
      .storesTo [regs.sp - 1, regs.sp - 2] := by
  have above : regs.sp - 2 + 1 = regs.sp - 1 := by grind
  rw [above]

namespace Operation

private theorem effects_exchangeStack (pointer : Pointer) (regs : Registers)
    (flat : Flat) :
    (exchangeStack pointer regs).effects flat =
      .storesTo [regs.sp + 1, regs.sp] := by
  have back : regs.sp + 2 - 2 = regs.sp := by grind
  have stored :
      (exchangeStack pointer regs).effects flat =
        .storesTo [regs.sp + 2 - 2 + 1, regs.sp + 2 - 2] :=
    rfl
  rw [stored, back]

theorem effects_execute (op : Operation) (pointer : Pointer) (regs : Registers)
    (flat : Flat) :
    (op.execute pointer regs).effects flat = op.effects pointer regs flat.ram := by
  cases op with
  | ldRegister target source => cases source <;> cases pointer <;> rfl
  | ldMemory source => cases pointer <;> rfl
  | ldImmediate target => cases target <;> cases pointer <;> rfl
  | arithmetic op source => cases source <;> cases pointer <;> rfl
  | inc target => cases target <;> cases pointer <;> rfl
  | dec target => cases target <;> cases pointer <;> rfl
  | push source => exact regs.effects_pushed
  | call => exact regs.effects_pushed
  | rst slot => exact regs.effects_pushed
  | callIf condition =>
      unfold execute effects
      dsimp only
      split
      · exact regs.effects_pushed
      · rfl
  | retIf condition =>
      unfold execute
      dsimp only
      rw [effects_bind]
      split <;> rfl
  | exStack => exact effects_exchangeStack pointer regs flat
  | jrIf condition =>
      unfold execute
      dsimp only
      split <;> rfl
  | djnz =>
      unfold execute
      dsimp only
      rw [effects_bind]
      split <;> rfl
  | _ => rfl

end Operation

namespace BitOperation

theorem effects_execute (op : BitOperation) (regs : Registers) (flat : Flat) :
    (op.execute regs).effects flat = op.effects regs := by
  obtain ⟨action, operand⟩ := op
  cases operand with
  | register target => rfl
  | memory => cases action <;> rfl

private theorem effects_executeIndexed (op : BitOperation) (index : Index)
    (displacement : UInt8) (regs : Registers) (flat : Flat) :
    (op.executeIndexed index displacement regs).effects flat =
      op.effectsAt (Word.displace (regs.index index) displacement) := by
  obtain ⟨action, operand⟩ := op
  cases action <;> rfl

end BitOperation

namespace BlockOperation

private theorem effects_finish (again last : Nat) (more : Bool) (regs : Registers)
    (flat : Flat) : (finish again last more regs).effects flat = .none := by
  cases more <;> rfl

private theorem effects_finishPort (op : BlockOperation) (regs : Registers)
    (flat : Flat) : (op.finishPort regs).effects flat = .none := by
  unfold finishPort
  split <;> rfl

theorem effects_execute (op : BlockOperation) (regs : Registers) (flat : Flat) :
    (op.execute regs).effects flat = op.effects regs flat.ram := by
  unfold execute effects
  cases op.action with
  | load =>
      simp only [executeLoad, effects_bind, effects_finish]
      rfl
  | compare =>
      simp only [executeCompare, effects_bind, effects_finish]
      rfl
  | input =>
      simp only [executeInput, effects_bind, effects_finishPort]
      rfl
  | output =>
      simp only [executeOutput, effects_bind, effects_finishPort]
      rfl

end BlockOperation

theorem ExtendedOperation.effects_execute (op : ExtendedOperation) (model : Model)
    (regs : Registers) (flat : Flat) :
    (op.execute model regs).effects flat = op.effects model regs flat.ram := by
  cases op with
  | input target => cases target <;> rfl
  | output source => cases source <;> rfl
  | block op => exact op.effects_execute regs flat
  | _ => rfl

namespace Instruction

theorem effects_execute (instruction : Instruction) (model : Model)
    (regs : Registers) (flat : Flat) :
    (instruction.execute model regs).effects flat =
      instruction.effects model regs flat.ram := by
  cases instruction with
  | main pointer op => exact op.effects_execute pointer regs flat
  | bits op => exact op.effects_execute regs flat
  | indexedBits index displacement op =>
      exact op.effects_executeIndexed index displacement regs flat
  | extended op => exact op.effects_execute model regs flat
  | ignoredLead => rfl

/-- Where an instruction writes does not depend on the refresh register. -/
theorem effects_refresh (instruction : Instruction) (model : Model)
    (regs : Registers) (count : UInt8) (ram : Memory) :
    instruction.effects model (regs.refresh count) ram =
      instruction.effects model regs ram := by
  cases instruction with
  | main pointer op =>
      cases pointer with
      | hl => rfl
      | index index => cases index <;> rfl
  | indexedBits index displacement op => cases index <;> rfl
  | extended op =>
      cases op with
      | output source =>
          cases source with
          | none => rfl
          | some source => cases source <;> rfl
      | _ => rfl
  | _ => rfl

end Instruction

/-- Outside the processor an instruction changes what the tables say. -/
theorem Cpu.changedBy_runInstruction (cpu : Cpu) (flat : Flat) :
    flat.ChangedBy
      ((flat.ram.instructionAt cpu.regs.pc).effects cpu.model cpu.regs flat.ram)
      (cpu.runInstruction Flat.bus flat).2 := by
  have fetched :=
    flat.changedBy_addCycles (flat.ram.instructionAt cpu.regs.pc).fetchTStates
  rw [runInstruction_flat rfl]
  generalize flat.ram.instructionAt cpu.regs.pc = instruction at fetched ⊢
  have executed :=
    Microcode.changedBy_run
      (instruction.execute cpu.model
        (cpu.regs.refresh instruction.refreshCount))
      (flat.addCycles instruction.fetchTStates)
  rw [Instruction.effects_execute, Instruction.effects_refresh] at executed
  exact fetched.trans executed

/-! ## How much is written -/

/-- At most two bytes are stored, and at most one is written to a port. -/
structure Effects.Few (effects : Effects) : Prop where
  stores : effects.stores.length ≤ 2
  outputs : effects.outputs.length ≤ 1

namespace Effects.Few

theorem none : Effects.none.Few :=
  ⟨Nat.zero_le 2, Nat.zero_le 1⟩

theorem one (address : UInt16) : (storesTo [address]).Few :=
  ⟨Nat.le_succ 1, Nat.zero_le 1⟩

theorem two (first second : UInt16) : (storesTo [first, second]).Few :=
  ⟨Nat.le_refl 2, Nat.zero_le 1⟩

theorem port (number : UInt16) (byte : UInt8) : (outputsTo number byte).Few :=
  ⟨Nat.zero_le 2, Nat.le_refl 1⟩

end Effects.Few

private theorem Operation.few_effects (op : Operation) (pointer : Pointer)
    (regs : Registers) (ram : Memory) : (op.effects pointer regs ram).Few := by
  cases op with
  | storeA | storeAAbsolute | ldMemory => exact .one _
  | ldImmediate target | inc target | dec target =>
      cases target with
      | register => exact .none
      | memory => exact .one _
  | storePointerAbsolute | push | call | rst | exStack => exact .two _ _
  | callIf condition =>
      unfold effects
      dsimp only
      split
      · exact .two _ _
      · exact .none
  | outputImmediate => exact .port _ _
  | _ => exact .none

private theorem BitOperation.few_effectsAt (op : BitOperation) (address : UInt16) :
    (op.effectsAt address).Few := by
  unfold effectsAt
  split
  · exact .none
  · exact .one address

private theorem ExtendedOperation.few_effects (op : ExtendedOperation) (model : Model)
    (regs : Registers) (ram : Memory) : (op.effects model regs ram).Few := by
  cases op with
  | output source => cases source <;> exact .port _ _
  | storePairAbsolute => exact .two _ _
  | rrd | rld => exact .one _
  | block op =>
      obtain ⟨action, decrement, repeats⟩ := op
      cases action with
      | load | input => exact .one _
      | compare => exact .none
      | output => exact .port _ _
  | _ => exact .none

theorem Instruction.few_effects (instruction : Instruction) (model : Model)
    (regs : Registers) (ram : Memory) :
    (instruction.effects model regs ram).Few := by
  cases instruction with
  | main pointer op => exact op.few_effects pointer regs ram
  | bits op =>
      obtain ⟨action, operand⟩ := op
      cases operand with
      | register => exact .none
      | memory => exact BitOperation.few_effectsAt _ _
  | indexedBits index displacement op => exact op.few_effectsAt _
  | extended op => exact op.few_effects model regs ram
  | ignoredLead => exact .none

end Z80
