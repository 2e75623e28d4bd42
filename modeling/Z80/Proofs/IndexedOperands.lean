import Z80.Instruction.Timing
import Z80.Proofs.Substitution

/-!
# Operations behind an index lead

An operation with a memory operand is a function of that operand.  Behind an
index lead the operand lies elsewhere, but `H` and `L` are what they were, so
the operation does what it does without the lead to the same byte.

Main statement: `Cpu.step_indexed`, for every operation that an index lead
changes and every state on the flat host.
-/

namespace Z80

private theorem Memory.set_get (ram : Memory) (address : UInt16) :
    ram.set address (ram.get address) = ram := by
  apply Memory.ext
  intro asked
  rw [get_set]
  split
  case isTrue same => rw [same]
  case isFalse => rfl

/-- The address of the memory operand of the instruction at the program
counter. -/
def Registers.operandAddress (regs : Registers) (ram : Memory) :
    Pointer → UInt16
  | .hl => regs.hl
  | .index index => Word.displace (regs.index index) (ram.get (regs.pc + 2))

namespace Operation

open Microcode

/-! ## Memory operands -/

/-- What an operation leaves of its memory operand and of the registers, given
the operand and the constant behind the opcode. -/
def onMemory (op : Operation) (byte constant : UInt8) (regs : Registers) :
    UInt8 × Registers :=
  match op with
  | .ldRegister target _ => (byte, regs.set .hl target byte)
  | .ldMemory source => (regs.get .hl source, regs)
  | .ldImmediate _ => (constant, regs)
  | .arithmetic op _ => (byte, regs.arithmetic op byte)
  | .inc _ =>
      let outcome := Alu.increment byte regs.f
      (outcome.value, { regs with f := outcome.flags })
  | .dec _ =>
      let outcome := Alu.decrement byte regs.f
      (outcome.value, { regs with f := outcome.flags })
  | _ => (byte, regs)

private theorem usesPointer_of_addressesMemory {op : Operation}
    (memory : op.addressesMemory = true) : op.usesPointer = true := by
  cases op with
  | ldRegister target source =>
      cases source with
      | register => cases memory
      | memory => exact Bool.or_true _
  | ldMemory => rfl
  | ldImmediate operand | arithmetic _ operand | inc operand | dec operand =>
      cases operand with
      | register => cases memory
      | memory => rfl
  | _ => cases memory

section OnMemory

variable (op : Operation) (byte constant : UInt8) (regs : Registers)

theorem onMemory_refresh (count : UInt8) :
    op.onMemory byte constant (regs.refresh count) =
      ((op.onMemory byte constant regs).1,
        (op.onMemory byte constant regs).2.refresh count) := by
  cases op with
  | ldRegister target source => cases target <;> rfl
  | ldMemory source => cases source <;> rfl
  | _ => rfl

private theorem onMemory_withPc (pc : UInt16) :
    op.onMemory byte constant { regs with pc := pc } =
      ((op.onMemory byte constant regs).1,
        { (op.onMemory byte constant regs).2 with pc := pc }) := by
  cases op with
  | ldRegister target source => cases target <;> rfl
  | ldMemory source => cases source <;> rfl
  | _ => rfl

private theorem index_onMemory (index : Index) :
    (op.onMemory byte constant regs).2.index index = regs.index index := by
  cases op with
  | ldRegister target source => cases target <;> cases index <;> rfl
  | _ => cases index <;> rfl

private theorem pc_onMemory : (op.onMemory byte constant regs).2.pc = regs.pc := by
  cases op with
  | ldRegister target source => cases target <;> rfl
  | _ => rfl

end OnMemory

private theorem run_operandAddress_flat (pointer : Pointer) (regs : Registers)
    (flat : Flat) :
    (pointer.operandAddress regs).run Flat.bus flat =
      (regs.operandAddress flat.ram pointer,
        flat.addCycles (8 * pointer.leadBytes.toNat)) := by
  cases pointer <;> rfl

/-- An operation with a memory operand changes the byte at the operand's
address by `onMemory`, and takes the time of the processor's tables. -/
theorem run_execute_memory {op : Operation}
    (memory : op.addressesMemory = true) (pointer : Pointer) (regs : Registers)
    (flat : Flat) :
    (op.execute pointer regs).run Flat.bus
        (flat.addCycles (4 * (1 + pointer.leadBytes.toNat))) =
      let address := regs.operandAddress flat.ram pointer
      let constant := flat.ram.get (regs.pc + pointer.memoryLength)
      let outcome := op.onMemory (flat.ram.get address) constant regs
      (outcome.2.advance (UInt16.ofNat (Instruction.main pointer op).length),
        { flat with
          ram := flat.ram.set address outcome.1
          cycles :=
            flat.cycles + (Instruction.main pointer op).tStates regs flat.ram }) := by
  have kept := Memory.set_get flat.ram (regs.operandAddress flat.ram pointer)
  cases op with
  | ldRegister target source =>
      cases source with
      | register => cases memory
      | memory =>
          simp only [onMemory, kept]
          cases pointer <;> rfl
  | ldMemory source => cases pointer <;> rfl
  | ldImmediate target =>
      cases target with
      | register => cases memory
      | memory => cases pointer <;> rfl
  | arithmetic op source =>
      cases source with
      | register => cases memory
      | memory =>
          simp only [onMemory, kept]
          cases pointer <;> rfl
  | inc target | dec target =>
      cases target with
      | register => cases memory
      | memory =>
          simp only [execute, update, run_bind, run_operandAddress_flat]
          cases pointer <;> rfl
  | _ => cases memory

/-- In a memory an operation lies at a place without a lead byte, and finds the
operand and the constant there that it finds behind an index lead. -/
structure StandsAt (op : Operation) (place : UInt16) (there : Memory)
    (regs : Registers) (index : Index) (ram : Memory) : Prop where
  opcode : there.get place = ram.get (regs.pc + 1)
  operand : there.get regs.hl = ram.get (regs.operandAddress ram (.index index))
  constant : op = .ldImmediate .memory →
    there.get (place + 1) = ram.get (regs.pc + 3)

/-- There is always such a memory and place. -/
theorem exists_standsAt (op : Operation) (regs : Registers) (index : Index)
    (ram : Memory) : ∃ place there, op.StandsAt place there regs index ram := by
  let bytes :=
    [ram.get (regs.operandAddress ram (.index index)), ram.get (regs.pc + 1),
      ram.get (regs.pc + 3)]
  have first : regs.hl + 1 ≠ regs.hl := by grind
  have second : regs.hl + 1 + 1 ≠ regs.hl := by grind
  have third : regs.hl + 1 + 1 ≠ regs.hl + 1 := by grind
  refine ⟨regs.hl + 1, ram.load regs.hl bytes, ?_, ?_, ?_⟩
  · simp [bytes, Memory.load, Memory.get_set]
  · simp [bytes, Memory.load, Memory.get_set, second]
  · simp [bytes, Memory.load]

private theorem StandsAt.onMemory_eq {op : Operation} {place : UInt16}
    {there ram : Memory}
    {regs : Registers} {index : Index}
    (stands : op.StandsAt place there regs index ram)
    (memory : op.addressesMemory = true) (moved : Registers) :
    op.onMemory (there.get regs.hl) (there.get (place + 1)) moved =
      op.onMemory (ram.get (regs.operandAddress ram (.index index)))
        (ram.get (regs.pc + 3)) moved := by
  rw [stands.operand]
  cases op with
  | ldImmediate target =>
      cases target with
      | register => cases memory
      | memory => rw [stands.constant rfl]
  | _ => rfl

end Operation

namespace Cpu

variable {cpu : Cpu} {flat other : Flat} {index : Index} {op : Operation}

theorem runInstruction_indexedMemory
    (holds : flat.ram.HoldsIndexed cpu.regs.pc index op)
    (memory : op.addressesMemory = true) :
    cpu.runInstruction Flat.bus flat =
      let address := cpu.regs.operandAddress flat.ram (.index index)
      let constant := flat.ram.get (cpu.regs.pc + 3)
      let outcome := op.onMemory (flat.ram.get address) constant cpu.regs
      ((.main (.index index) op,
          { cpu with
            regs :=
              (outcome.2.refresh 2).advance
                (UInt16.ofNat (Instruction.main (.index index) op).length)
            control := cpu.control.after .plain }),
        { flat with
          ram := flat.ram.set address outcome.1
          cycles := flat.cycles + op.indexedTStates cpu.regs }) := by
  have address :
      (cpu.regs.refresh 2).operandAddress flat.ram (.index index) =
        cpu.regs.operandAddress flat.ram (.index index) := by
    cases index <;> rfl
  have spec :=
    Operation.run_execute_memory memory (.index index) (cpu.regs.refresh 2) flat
  simp only [Operation.onMemory_refresh, address] at spec
  have ran := runInstruction_indexed holds
  have eight : 4 * (1 + (Pointer.index index).leadBytes.toNat) = 8 := rfl
  rw [eight] at spec
  rw [spec] at ran
  exact ran

private theorem runInstruction_memory
    (opcode : Opcode.ofByte (flat.ram.get cpu.regs.pc) = .operation op)
    (memory : op.addressesMemory = true) :
    cpu.runInstruction Flat.bus flat =
      let constant := flat.ram.get (cpu.regs.pc + 1)
      let outcome := op.onMemory (flat.ram.get cpu.regs.hl) constant cpu.regs
      ((.main .hl op,
          { cpu with
            regs :=
              (outcome.2.refresh 1).advance (UInt16.ofNat (1 + op.constantBytes))
            control := cpu.control.after .plain }),
        { flat with
          ram := flat.ram.set cpu.regs.hl outcome.1
          cycles := flat.cycles + op.tStates cpu.regs }) := by
  have uses := Operation.usesPointer_of_addressesMemory memory
  have spec :=
    Operation.run_execute_memory memory .hl (cpu.regs.refresh 1) flat
  simp only [Operation.onMemory_refresh] at spec
  have four : 4 * (1 + Pointer.hl.leadBytes.toNat) = 4 := rfl
  have ran := runInstruction_operation opcode uses
  rw [four] at spec
  rw [spec] at ran
  exact ran

/-- With a memory operand, an instruction behind an index lead does to the
indexed byte, the accumulator and the flags what the instruction without it
does to the byte at `HL`, wherever that one lies.  It is two bytes longer and
takes one more refresh cycle. -/
theorem step_indexedMemory {place : UInt16}
    (holds : flat.ram.HoldsIndexed cpu.regs.pc index op)
    (memory : op.addressesMemory = true)
    (stands : op.StandsAt place other.ram cpu.regs index flat.ram) :
    let address := cpu.regs.operandAddress flat.ram (.index index)
    let plain :=
      { cpu with regs := { cpu.regs with pc := place } }.runInstruction
        Flat.bus other
    let left := plain.1.2
    cpu.step Flat.bus flat =
      Cpu.service Flat.bus
        { left with
          regs :=
            { left.regs.refresh 1 with
              pc := cpu.regs.pc + 2 + (left.regs.pc - place) } }
        { flat with
          ram := flat.ram.set address (plain.2.ram.get cpu.regs.hl)
          cycles := flat.cycles + op.indexedTStates cpu.regs } := by
  intro address plain left
  let outcome :=
    op.onMemory (flat.ram.get address) (flat.ram.get (cpu.regs.pc + 3)) cpu.regs
  let ended : Registers :=
    ({ outcome.2 with pc := place }.refresh 1).advance
      (UInt16.ofNat (1 + op.constantBytes))
  have opcode : Opcode.ofByte (other.ram.get place) = .operation op := by
    rw [stands.opcode]
    exact holds.opcode
  have ran :
      plain =
        ((.main .hl op,
            { cpu with regs := ended, control := cpu.control.after .plain }),
          { other with
            ram := other.ram.set cpu.regs.hl outcome.1
            cycles := other.cycles + op.tStates cpu.regs }) := by
    have spec : plain = _ := runInstruction_memory opcode memory
    simp only [Operation.onMemory_withPc] at spec
    rw [stands.onMemory_eq memory] at spec
    exact spec
  have leaves :
      left = { cpu with regs := ended, control := cpu.control.after .plain } :=
    congrArg (fun ran => ran.1.2) ran
  have stored : plain.2.ram.get cpu.regs.hl = outcome.1 := by
    rw [ran]
    exact Memory.get_set_self _ _ _
  have behind :
      cpu.regs.pc + 2 + (ended.pc - place) =
        outcome.2.pc +
          UInt16.ofNat (Instruction.main (.index index) op).length := by
    have started : outcome.2.pc = cpu.regs.pc := op.pc_onMemory _ _ cpu.regs
    have length :
        (Instruction.main (.index index) op).length =
          2 + (1 + op.constantBytes) := by
      simp only [Instruction.length, Instruction.opcodeBytes,
        Instruction.operandBytes, Operation.operandBytes, memory,
        Bool.toNat_true]
    have distance :
        place + UInt16.ofNat (1 + op.constantBytes) - place =
          UInt16.ofNat (1 + op.constantBytes) := by
      grind
    rw [started, length, UInt16.ofNat_add, ← UInt16.add_assoc]
    exact congrArg (cpu.regs.pc + 2 + ·) distance
  have moved :
      { ended.refresh 1 with pc := cpu.regs.pc + 2 + (ended.pc - place) } =
        (outcome.2.refresh 2).advance
          (UInt16.ofNat (Instruction.main (.index index) op).length) := by
    rw [behind, ← Registers.refresh_refresh]
    rfl
  rw [leaves, stored, moved, service_flat_eq_served]
  exact step_flat_of_usesPointer holds.uses
    (runInstruction_indexedMemory holds memory)

/-- Nothing that is served at a boundary changes the index registers. -/
theorem index_service_flat (cpu : Cpu) (flat : Flat) (index : Index) :
    (cpu.service Flat.bus flat).1.regs.index index = cpu.regs.index index := by
  rw [service_flat_eq_served, served]
  have taken (cpu : Cpu) :
      (cpu.nonMaskableTaken flat).1.regs.index index = cpu.regs.index index := by
    cases index <;> rfl
  have accepted :
      (cpu.interruptTaken flat).1.regs.index index = cpu.regs.index index := by
    obtain ⟨sp, pc, taken⟩ := exists_fst_interruptTaken cpu flat
    rw [taken]
    cases index <;> rfl
  have jumped : cpu.jumped.regs.index index = cpu.regs.index index := by
    cases index <;> rfl
  split
  · rw [taken]
    split
    · exact jumped
    · rfl
  · split
    · exact jumped
    · split
      · exact accepted
      · rfl

private theorem index_step_indexedMemory
    (holds : flat.ram.HoldsIndexed cpu.regs.pc index op)
    (memory : op.addressesMemory = true) :
    (cpu.step Flat.bus flat).1.regs.index index = cpu.regs.index index := by
  rw [step_flat_of_usesPointer holds.uses
      (runInstruction_indexedMemory holds memory),
    ← service_flat_eq_served, index_service_flat]
  have kept := op.index_onMemory
    (flat.ram.get (cpu.regs.operandAddress flat.ram (.index index)))
    (flat.ram.get (cpu.regs.pc + 3)) cpu.regs index
  rw [← kept]
  cases index <;> rfl

/-- An operation behind an index lead, with whatever is served after it, is the
operation without the lead.  If it has no memory operand, then the index
register stands in the place of `HL`.  If it has one, then `HL`, `H` and `L` are
themselves, and the operand is the byte a displacement away from the index
register. -/
theorem step_indexed (holds : flat.ram.HoldsIndexed cpu.regs.pc index op) :
    (op.addressesMemory = false →
      cpu.step Flat.bus flat =
        let next := (cpu.behindLead index).step Flat.bus (flat.addCycles 4)
        (next.1.exchange index, next.2)) ∧
      (op.addressesMemory = true →
        (cpu.step Flat.bus flat).1.regs.index index = cpu.regs.index index ∧
          (∃ place there,
            op.StandsAt place there cpu.regs index flat.ram) ∧
          ∀ (place : UInt16) (other : Flat),
            op.StandsAt place other.ram cpu.regs index flat.ram →
              let address := cpu.regs.operandAddress flat.ram (.index index)
              let plain : Cpu :=
                { cpu with regs := { cpu.regs with pc := place } }
              let ran := plain.runInstruction Flat.bus other
              let left := ran.1.2
              plain.step Flat.bus other = left.service Flat.bus ran.2 ∧
                cpu.step Flat.bus flat =
                  Cpu.service Flat.bus
                    { left with
                      regs :=
                        { left.regs.refresh 1 with
                          pc := cpu.regs.pc + 2 + (left.regs.pc - place) } }
                    { flat with
                      ram := flat.ram.set address (ran.2.ram.get cpu.regs.hl)
                      cycles := flat.cycles + op.indexedTStates cpu.regs }) := by
  refine ⟨step_behindLead holds, ?_⟩
  intro memory
  refine ⟨index_step_indexedMemory holds memory,
    op.exists_standsAt cpu.regs index flat.ram, ?_⟩
  intro place other stands address plain ran left
  have opcode : Opcode.ofByte (other.ram.get plain.regs.pc) = .operation op :=
    (congrArg Opcode.ofByte stands.opcode).trans holds.opcode
  have fetched : ran.1.1 = .main .hl op := by
    rw [show ran = _ from runInstruction_operation opcode holds.uses]
  refine ⟨?_, step_indexedMemory holds memory stands⟩
  rw [service_flat_eq_served]
  exact step_flat_of_usesPointer holds.uses
    (Prod.ext (Prod.ext fetched rfl) rfl)

/-- `INC (IX-2)` and `LD IXH,9`. -/
def indexing : Flat :=
  Flat.new.load 0 [0xDD, 0x34, 0xFE, 0xDD, 0x26, 0x09, 0x7F]

/-- The byte at `IX-2`, and `INC (HL)` behind it. -/
def incrementing : Flat :=
  Flat.new.load 0 [0x7F, 0x34]

def indexer (pc : UInt16) : Cpu :=
  { Cpu.new .cmos with
    regs := { (Cpu.new .cmos).regs with pc := pc, ix := 8 } }

theorem step_indexed_indexing :
    indexing.ram.HoldsIndexed 0 .ix (.inc .memory) ∧
      ((indexer 0).step Flat.bus indexing).1.regs.ix = 8 ∧
      ((indexer 0).step Flat.bus indexing).2.ram.get 6 = 0x80 ∧
      indexing.ram.HoldsIndexed 3 .ix (.ldImmediate (.register .h)) ∧
      ((indexer 3).step Flat.bus indexing).1.regs.ix = 0x0908 := by
  have memory : indexing.ram.HoldsIndexed 0 .ix (.inc .memory) :=
    ⟨by decide, by decide, rfl⟩
  have stands :
      Operation.StandsAt (.inc .memory) 1 incrementing.ram (indexer 0).regs .ix
        indexing.ram :=
    ⟨by decide, by decide, fun constant => nomatch constant⟩
  have half : indexing.ram.HoldsIndexed 3 .ix (.ldImmediate (.register .h)) :=
    ⟨by decide, by decide, rfl⟩
  obtain ⟨kept, _, stored⟩ := (@step_indexed (indexer 0) _ _ _ memory).2 rfl
  have loaded := (@step_indexed (indexer 3) _ _ _ half).1 rfl
  refine ⟨memory, kept, ?_, half, ?_⟩
  · rw [(stored 1 incrementing stands).2]
    decide
  · rw [loaded]
    decide

end Cpu

end Z80
