import Z80.Instruction.Length
import Z80.Proofs.Fetch
import Z80.Proofs.Service

/-!
# The index registers in the place of HL

An operation behind an index lead runs with an index register as its pointer,
and finds its constants one byte further on.  Without a memory operand that is
the same as running the operation without the lead, with `HL` and the index
register in each other's place.

Main statement: `Cpu.step_behindLead`, on the flat host.
-/

namespace Z80

namespace Registers

/-- The registers with `HL` and an index register in each other's place. -/
def exchange (regs : Registers) (index : Index) : Registers :=
  (regs.setHl (regs.index index)).setIndex index regs.hl

/-- The registers with which an operation without a lead byte does what the
operation behind a lead byte does with the given ones. -/
def substitute (regs : Registers) (index : Index) : Registers :=
  (regs.exchange index).advance 1

variable (regs : Registers) (index : Index)

@[simp]
theorem hl_exchange : (regs.exchange index).hl = regs.index index := by
  cases index <;> exact Word.ofBytes_high_low _

@[simp]
theorem exchange_exchange : (regs.exchange index).exchange index = regs := by
  cases index <;>
    simp [exchange, Registers.index, setIndex, setHl, inBank, Bank.hl, Bank.setHl]

theorem advance_advance (bytes more : UInt16) :
    (regs.advance bytes).advance more = regs.advance (bytes + more) := by
  simp only [advance, UInt16.add_assoc]

/-! ## What an operation finds -/

theorem hl_substitute : (regs.substitute index).hl = regs.index index :=
  hl_exchange regs index

theorem pc_substitute : (regs.substitute index).pc = regs.pc + 1 := by
  cases index <;> rfl

theorem sp_substitute : (regs.substitute index).sp = regs.sp := by
  cases index <;> rfl

theorem f_substitute : (regs.substitute index).f = regs.f := by
  cases index <;> rfl

theorem get_substitute (named : Register) :
    (regs.substitute index).get .hl named = regs.get (.index index) named := by
  cases named with
  | h => exact congrArg Word.high (hl_exchange regs index)
  | l => exact congrArg Word.low (hl_exchange regs index)
  | _ => cases index <;> rfl

private theorem pair_substitute (source : Pair) :
    (regs.substitute index).pair .hl source = regs.pair (.index index) source := by
  cases source with
  | hl => exact hl_substitute regs index
  | _ => cases index <;> rfl

private theorem stackPair_substitute (source : StackPair) :
    (regs.substitute index).stackPair .hl source =
      regs.stackPair (.index index) source := by
  cases source with
  | hl => exact hl_substitute regs index
  | _ => cases index <;> rfl

/-! ## What an operation leaves -/

theorem advance_substitute (bytes : UInt16) :
    (regs.substitute index).advance bytes =
      (regs.advance (bytes + 1)).exchange index := by
  rw [substitute, advance_advance, UInt16.add_comm]
  cases index <;> rfl

theorem setHl_substitute (word : UInt16) :
    (regs.substitute index).setHl word =
      (regs.setIndex index word).substitute index := by
  cases index <;> rfl

theorem set_substitute (target : Register) (byte : UInt8) :
    (regs.substitute index).set .hl target byte =
      (regs.set (.index index) target byte).substitute index := by
  have same := hl_substitute regs index
  cases target with
  | h => simp only [set, pointer, setPointer, setHl_substitute, same]
  | l => simp only [set, pointer, setPointer, setHl_substitute, same]
  | _ => cases index <;> rfl

private theorem setPair_substitute (target : Pair) (word : UInt16) :
    (regs.substitute index).setPair .hl target word =
      (regs.setPair (.index index) target word).substitute index := by
  cases target with
  | hl => exact setHl_substitute regs index word
  | _ => cases index <;> rfl

private theorem setStackPair_substitute (target : StackPair) (word : UInt16) :
    (regs.substitute index).setStackPair .hl target word =
      (regs.setStackPair (.index index) target word).substitute index := by
  cases target with
  | hl => exact setHl_substitute regs index word
  | _ => cases index <;> rfl

theorem withSp_substitute (sp : UInt16) :
    ({ regs.substitute index with sp := sp } : Registers) =
      ({ regs with sp := sp } : Registers).substitute index := by
  cases index <;> rfl

theorem withFlags_substitute (flags : Flags) :
    ({ regs.substitute index with f := flags } : Registers) =
      ({ regs with f := flags } : Registers).substitute index := by
  cases index <;> rfl

private theorem withPc_substitute (pc : UInt16) :
    ({ regs.substitute index with pc := pc } : Registers) =
      ({ regs with pc := pc } : Registers).exchange index := by
  cases index <;> rfl

private theorem arithmetic_substitute (op : ArithmeticOp) (operand : UInt8) :
    (regs.substitute index).arithmetic op operand =
      (regs.arithmetic op operand).substitute index := by
  cases index <;> rfl

end Registers

namespace Operation

open Microcode Registers

section Substitute

variable (index : Index) (regs : Registers) (flat : Flat)

private theorem run_fetchByte_substitute (offset : UInt16) :
    (fetchByte (regs.substitute index).pc offset).run Flat.bus flat =
      (fetchByte regs.pc (offset + 1)).run Flat.bus flat := by
  have same : (regs.substitute index).pc + offset = regs.pc + (offset + 1) := by
    rw [pc_substitute]
    grind
  exact congrArg (fun address => Flat.bus.readMemory address flat) same

private theorem run_fetchWord_substitute (offset : UInt16) :
    (fetchWord (regs.substitute index).pc offset).run Flat.bus flat =
      (fetchWord regs.pc (offset + 1)).run Flat.bus flat := by
  have same : (regs.substitute index).pc + offset = regs.pc + (offset + 1) := by
    rw [pc_substitute]
    grind
  exact congrArg (fun address => Flat.bus.readWord address flat) same

private theorem run_update_substitute (change : UInt8 → Flags → Outcome UInt8)
    (target : Register) :
    (update change (.register target) .hl (regs.substitute index)).run Flat.bus
        flat =
      (((update change (.register target) (.index index) regs).run Flat.bus
          flat).1.exchange index,
        flat) := by
  simp only [update, run_pure, get_substitute, f_substitute, set_substitute,
    withFlags_substitute, advance_substitute]
  rfl

private theorem run_pop_substitute :
    (regs.substitute index).pop.run Flat.bus flat =
      (((regs.pop.run Flat.bus flat).1.1,
          (regs.pop.run Flat.bus flat).1.2.substitute index),
        (regs.pop.run Flat.bus flat).2) := by
  simp only [Registers.pop, run_bind, run_pure, sp_substitute,
    withSp_substitute]

private theorem run_push_substitute (word : UInt16) :
    ((regs.substitute index).push word).run Flat.bus flat =
      (((regs.push word).run Flat.bus flat).1.substitute index,
        ((regs.push word).run Flat.bus flat).2) := by
  simp only [Registers.push, run_bind, run_pure, sp_substitute,
    withSp_substitute]

/-- Without a memory operand the two runs leave the same host, and registers
that have been exchanged. -/
theorem run_execute_substitute {op : Operation} (uses : op.usesPointer = true)
    (plain : op.addressesMemory = false) :
    (op.execute .hl (regs.substitute index)).run Flat.bus flat =
      (((op.execute (.index index) regs).run Flat.bus flat).1.exchange index,
        ((op.execute (.index index) regs).run Flat.bus flat).2) := by
  cases op with
  | ldRegister target source =>
      cases source with
      | memory => cases plain
      | register source =>
          simp only [execute, run_pure, get_substitute, set_substitute,
            advance_substitute]
          rfl
  | ldImmediate target =>
      cases target with
      | memory => cases plain
      | register target =>
          simp only [execute, run_bind, run_pure, run_fetchByte_substitute,
            set_substitute, advance_substitute]
          rfl
  | ldPairImmediate target =>
      simp only [execute, run_bind, run_pure, run_fetchWord_substitute,
        setPair_substitute, advance_substitute]
      rfl
  | storePointerAbsolute =>
      simp only [execute, run_bind, run_pure, run_fetchWord_substitute,
        pointer, hl_substitute, advance_substitute]
      rfl
  | loadPointerAbsolute =>
      simp only [execute, run_bind, run_pure, run_fetchWord_substitute,
        setPointer, setHl_substitute, advance_substitute]
      rfl
  | ldStackPointer =>
      simp only [execute, run_bind, run_pure, pointer, hl_substitute,
        withSp_substitute, advance_substitute]
      rfl
  | push source =>
      simp only [execute, run_bind, run_pure, run_push_substitute,
        stackPair_substitute, advance_substitute]
      rfl
  | pop target =>
      simp only [execute, run_bind, run_pure, run_pop_substitute,
        setStackPair_substitute, advance_substitute]
      rfl
  | exStack =>
      simp only [execute, exchangeStack, run_bind, run_pure,
        run_pop_substitute, run_push_substitute, pointer, setPointer,
        hl_substitute, setHl_substitute, advance_substitute]
      rfl
  | arithmetic op source =>
      cases source with
      | memory => cases plain
      | register source =>
          simp only [execute, run_pure, get_substitute, arithmetic_substitute,
            advance_substitute]
          rfl
  | inc target =>
      cases target with
      | memory => cases plain
      | register target =>
          exact run_update_substitute index regs flat Alu.increment target
  | dec target =>
      cases target with
      | memory => cases plain
      | register target =>
          exact run_update_substitute index regs flat Alu.decrement target
  | addPair source =>
      simp only [execute, run_bind, run_pure, pair_substitute, f_substitute,
        pointer, setPointer, hl_substitute, setHl_substitute,
        withFlags_substitute, advance_substitute]
      rfl
  | incPair target =>
      simp only [execute, run_bind, run_pure, pair_substitute,
        setPair_substitute, advance_substitute]
      rfl
  | decPair target =>
      simp only [execute, run_bind, run_pure, pair_substitute,
        setPair_substitute, advance_substitute]
      rfl
  | jpPointer =>
      simp only [execute, run_pure, pointer, hl_substitute, withPc_substitute]
  | ldMemory => cases plain
  | _ => cases uses

end Substitute

end Operation

def Index.leadByte : Index → UInt8
  | .ix => 0xDD
  | .iy => 0xFD

theorem Index.ofByte_leadByte (index : Index) :
    Opcode.ofByte index.leadByte = .indexLead index := by
  cases index <;> decide

/-- At an address there is an index lead, and behind it the opcode of an
operation that uses `HL`. -/
structure Memory.HoldsIndexed (ram : Memory) (pc : UInt16) (index : Index)
    (op : Operation) : Prop where
  lead : ram.get pc = index.leadByte
  opcode : Opcode.ofByte (ram.get (pc + 1)) = .operation op
  uses : op.usesPointer = true

namespace Instruction

open Microcode

theorem boundary_main_of_usesPointer {op : Operation}
    (uses : op.usesPointer = true) (pointer : Pointer) :
    (main pointer op).boundary = .plain := by
  cases op <;> first | rfl | cases uses

private theorem run_fetch_operation {flat : Flat} {pc : UInt16} {op : Operation}
    (opcode : Opcode.ofByte (flat.ram.get pc) = .operation op) :
    (fetch pc).run Flat.bus flat = (.main .hl op, flat.addCycles 4) := by
  have first :
      (fetchFirst pc).run Flat.bus flat =
        (flat.ram.get pc, flat.addCycles 4) :=
    rfl
  unfold fetch
  rw [run_bind, first, opcode]
  rfl

private theorem run_fetch_indexed {flat : Flat} {pc : UInt16} {index : Index}
    {op : Operation} (holds : flat.ram.HoldsIndexed pc index op) :
    (fetch pc).run Flat.bus flat =
      (.main (.index index) op, flat.addCycles 8) := by
  have first :
      (fetchFirst pc).run Flat.bus flat =
        (index.leadByte, flat.addCycles 4) := by
    rw [← holds.lead]
    rfl
  have second :
      (fetchSecond pc).run Flat.bus (flat.addCycles 4) =
        (flat.ram.get (pc + 1), flat.addCycles 8) :=
    rfl
  have indexed :
      IndexedOpcode.ofByte (flat.ram.get (pc + 1)) = .operation op := by
    simp [IndexedOpcode.ofByte, holds.opcode, holds.uses]
  unfold fetch
  rw [run_bind, first, Index.ofByte_leadByte]
  unfold fetchIndexed
  rw [run_bind, second, indexed]
  rfl

end Instruction

namespace Registers

theorem refresh_refresh (regs : Registers) :
    (regs.refresh 1).refresh 1 = regs.refresh 2 := by
  have twice (r : UInt8) :
      let once := (r &&& 0x80) ||| ((r + 1) &&& 0x7F)
      (once &&& 0x80) ||| ((once + 1) &&& 0x7F) =
        (r &&& 0x80) ||| ((r + 2) &&& 0x7F) := by
    revert r
    refine Byte.of_forall_ofNat ?_
    decide +kernel
  exact congrArg (fun r => { regs with r := r }) (twice regs.r)

end Registers

namespace Cpu

def exchange (cpu : Cpu) (index : Index) : Cpu :=
  { cpu with regs := cpu.regs.exchange index }

/-- The processor that has fetched a lead byte, with `HL` in the index
register's place and the other way round. -/
def behindLead (cpu : Cpu) (index : Index) : Cpu :=
  { cpu with regs := ((cpu.regs.exchange index).refresh 1).advance 1 }

private theorem refresh_behindLead (cpu : Cpu) (index : Index) :
    (cpu.behindLead index).regs.refresh 1 =
      (cpu.regs.refresh 2).substitute index := by
  rw [← Registers.refresh_refresh]
  cases index <;> rfl

theorem runInstruction_operation {cpu : Cpu} {flat : Flat} {op : Operation}
    (opcode : Opcode.ofByte (flat.ram.get cpu.regs.pc) = .operation op)
    (uses : op.usesPointer = true) :
    cpu.runInstruction Flat.bus flat =
      let left :=
        (op.execute .hl (cpu.regs.refresh 1)).run Flat.bus (flat.addCycles 4)
      ((.main .hl op,
          { cpu with regs := left.1, control := cpu.control.after .plain }),
        left.2) := by
  have fetched := Instruction.run_fetch_operation opcode
  have plain := Instruction.boundary_main_of_usesPointer uses .hl
  simp only [runInstruction, Instruction.perform, Microcode.run_bind, fetched,
    Microcode.run_pure, plain]
  rfl

theorem runInstruction_indexed {cpu : Cpu} {flat : Flat} {index : Index}
    {op : Operation} (holds : flat.ram.HoldsIndexed cpu.regs.pc index op) :
    cpu.runInstruction Flat.bus flat =
      let left :=
        (op.execute (.index index) (cpu.regs.refresh 2)).run Flat.bus
          (flat.addCycles 8)
      ((.main (.index index) op,
          { cpu with regs := left.1, control := cpu.control.after .plain }),
        left.2) := by
  have fetched := Instruction.run_fetch_indexed holds
  have plain := Instruction.boundary_main_of_usesPointer holds.uses (.index index)
  simp only [runInstruction, Instruction.perform, Microcode.run_bind, fetched,
    Microcode.run_pure, plain]
  rfl

theorem step_flat_of_usesPointer {cpu left : Cpu} {flat host : Flat}
    {pointer : Pointer} {op : Operation} (uses : op.usesPointer = true)
    (ran : cpu.runInstruction Flat.bus flat = ((.main pointer op, left), host)) :
    cpu.step Flat.bus flat = left.served host := by
  have plain := Instruction.boundary_main_of_usesPointer uses pointer
  have notSampling : (Instruction.main pointer op).boundary ≠ .sampling := by
    rw [plain]
    decide
  unfold step
  simp only [ran, if_neg notSampling, service_flat_eq_served]

section Served

variable (cpu : Cpu) (index : Index) (flat : Flat)

@[simp]
theorem exchange_exchange : (cpu.exchange index).exchange index = cpu := by
  simp [exchange]

private theorem jumped_exchange :
    (cpu.exchange index).jumped = cpu.jumped.exchange index := by
  obtain ⟨regs, control, newPc, model⟩ := cpu
  cases index <;> cases newPc <;> rfl

private theorem nonMaskableTaken_exchange :
    (cpu.exchange index).nonMaskableTaken flat =
      ((cpu.nonMaskableTaken flat).1.exchange index,
        (cpu.nonMaskableTaken flat).2) := by
  cases index <;> rfl

private theorem interruptTaken_exchange :
    (cpu.exchange index).interruptTaken flat =
      ((cpu.interruptTaken flat).1.exchange index,
        (cpu.interruptTaken flat).2) := by
  have mode : (cpu.exchange index).regs.im = cpu.regs.im := by
    cases index <;> rfl
  simp only [interruptTaken, mode]
  split
  · cases index <;> rfl
  · split
    · cases index <;> rfl
    · cases index <;> rfl

/-- What is served at a boundary does not look at `HL` or the index
registers. -/
theorem served_exchange :
    (cpu.exchange index).served flat =
      ((cpu.served flat).1.exchange index, (cpu.served flat).2) := by
  have enabled : (cpu.exchange index).regs.iff1 = cpu.regs.iff1 := by
    cases index <;> rfl
  exact served_commutes flat (·.exchange index) rfl enabled
    (jumped_exchange cpu index)
    (fun cpu => nonMaskableTaken_exchange cpu index flat)
    (interruptTaken_exchange cpu index flat)

end Served

/-- Without a memory operand, an instruction behind an index lead is the
instruction without it, run one byte, one refresh cycle and four clock cycles
later, with `HL` and the index register in each other's place. -/
theorem step_behindLead {cpu : Cpu} {flat : Flat} {index : Index}
    {op : Operation} (holds : flat.ram.HoldsIndexed cpu.regs.pc index op)
    (plain : op.addressesMemory = false) :
    cpu.step Flat.bus flat =
      let next := (cpu.behindLead index).step Flat.bus (flat.addCycles 4)
      (next.1.exchange index, next.2) := by
  have pc : (cpu.behindLead index).regs.pc = cpu.regs.pc + 1 := by
    cases index <;> rfl
  have opcode :
      Opcode.ofByte
          ((flat.addCycles 4).ram.get (cpu.behindLead index).regs.pc) =
        .operation op := by
    rw [pc]
    exact holds.opcode
  let ran :=
    (op.execute (.index index) (cpu.regs.refresh 2)).run Flat.bus
      (flat.addCycles 8)
  let left : Cpu :=
    { cpu with regs := ran.1, control := cpu.control.after .plain }
  have here : cpu.step Flat.bus flat = left.served ran.2 :=
    step_flat_of_usesPointer holds.uses (runInstruction_indexed holds)
  have there :
      (cpu.behindLead index).step Flat.bus (flat.addCycles 4) =
        (left.exchange index).served ran.2 := by
    rw [step_flat_of_usesPointer holds.uses
        (runInstruction_operation opcode holds.uses),
      refresh_behindLead,
      Operation.run_execute_substitute index _ _ holds.uses plain]
    rfl
  rw [here, there, served_exchange]
  simp only [exchange_exchange]

end Cpu

end Z80
