import Z80.Proofs.IndexedOperands
import Z80.Proofs.Timing

/-!
# The bit table behind an index lead

Behind an index lead every operation of the bit table works on the indexed byte.
It does to that byte and to the flags what the operation without the lead does to
the byte at `HL`.  The register field, which then does not name the operand, names
a register that receives a copy of the result.  A test stores nothing, and shows
the address in two bits of the flags.

Main statement: `Cpu.step_indexedBits`, for every opcode, displacement and state
on the flat host.
-/

namespace Z80

open Microcode

namespace BitOperation

/-- The opcode of the same action on the byte at `HL`. -/
def memoryOpcode (opcode : UInt8) : UInt8 :=
  opcode / 8 * 8 + 6

private theorem ofByte_memoryOpcode (opcode : UInt8) :
    ofByte (memoryOpcode opcode) = ⟨(ofByte opcode).action, .memory⟩ := by
  revert opcode
  refine Byte.of_forall_ofNat ?_
  decide +kernel

/-! ## Microcode -/

private theorem apply_of_isTest {action : BitAction} (test : action.isTest = true)
    (byte : UInt8) (flags : Flags) : (action.apply byte flags).value = byte := by
  cases action with
  | test index => rfl
  | _ => cases test

/-- What an operation leaves of the registers and the byte at `HL`. -/
theorem run_execute_memory (action : BitAction) (regs : Registers) (flat : Flat) :
    let outcome := action.apply (flat.ram.get regs.hl) regs.f
    let left := (execute ⟨action, .memory⟩ regs).run Flat.bus flat
    left.1 = { regs with f := outcome.flags }.advance 2 ∧
      left.2.ram.get regs.hl = outcome.value := by
  dsimp only [execute]
  simp only [run_bind]
  cases test : action.isTest with
  | true => exact ⟨rfl, (apply_of_isTest test _ regs.f).symm⟩
  | false => exact ⟨rfl, Memory.get_set_self _ _ _⟩

/-- What an operation leaves of the registers and the indexed byte. -/
theorem run_executeIndexed (op : BitOperation) (index : Index)
    (displacement : UInt8) (regs : Registers) (flat : Flat) :
    let address := Word.displace (regs.index index) displacement
    let outcome := op.action.apply (flat.ram.get address) regs.f
    (op.executeIndexed index displacement regs).run Flat.bus flat =
      if op.action.isTest then
        ({ regs with
            f := outcome.flags.withUndocumented (Word.high address) }.advance 4,
          flat.addCycles 6)
      else
        ((op.operand.copyTo { regs with f := outcome.flags }
            outcome.value).advance 4,
          (flat.poke address outcome.value).addCycles 9) := by
  dsimp only [executeIndexed]
  simp only [run_bind]
  cases op.action.isTest <;> rfl

end BitOperation

/-! ## Copies -/

namespace Registers

private theorem get_set_self (regs : Registers) (target : Register) (byte : UInt8) :
    (regs.set .hl target byte).get .hl target = byte := by
  cases target with
  | h => exact Word.high_ofBytes _ _ |>.trans (Word.high_ofBytes _ _)
  | l => exact Word.low_ofBytes _ _ |>.trans (Word.low_ofBytes _ _)
  | _ => rfl

private theorem get_advance (regs : Registers) (bytes : UInt16) (named : Register) :
    (regs.advance bytes).get .hl named = regs.get .hl named := by
  cases named <;> rfl

private theorem index_advance (regs : Registers) (bytes : UInt16) (index : Index) :
    (regs.advance bytes).index index = regs.index index := by
  cases index <;> rfl

private theorem index_copyTo (regs : Registers) (byte : UInt8) (target : Operand)
    (index : Index) :
    (target.copyTo regs byte).index index = regs.index index := by
  cases target with
  | memory => rfl
  | register target => cases target <;> cases index <;> rfl

end Registers

/-! ## Steps -/

/-- At an address there is an index lead, the lead of the bit table, a
displacement and an opcode. -/
structure Memory.HoldsIndexedBits (ram : Memory) (pc : UInt16) (index : Index)
    (displacement opcode : UInt8) : Prop where
  lead : ram.get pc = index.leadByte
  table : ram.get (pc + 1) = 0xCB
  displacement : ram.get (pc + 2) = displacement
  opcode : ram.get (pc + 3) = opcode

private theorem Memory.HoldsIndexedBits.instructionAt {ram : Memory} {pc : UInt16}
    {index : Index} {displacement opcode : UInt8}
    (holds : ram.HoldsIndexedBits pc index displacement opcode) :
    ram.instructionAt pc = .indexedBits index displacement (.ofByte opcode) := by
  have table : IndexedOpcode.ofByte 0xCB = .bitLead := by decide
  simp only [Memory.instructionAt, holds.lead, Index.ofByte_leadByte, holds.table,
    table, holds.displacement, holds.opcode]

namespace Cpu

/-- A processor is about to run the same action on the byte at `HL`, without an
index lead, and finds the given byte and flags. -/
structure RunsOnMemory (cpu : Cpu) (flat : Flat) (opcode byte : UInt8)
    (flags : Flags) : Prop where
  nothing : cpu.NothingDue flat
  table : flat.ram.get cpu.regs.pc = 0xCB
  opcode : flat.ram.get (cpu.regs.pc + 1) = BitOperation.memoryOpcode opcode
  operand : flat.ram.get cpu.regs.hl = byte
  flags : cpu.regs.f = flags

/-- There is always such a processor. -/
theorem exists_runsOnMemory (cpu : Cpu) (flat : Flat) (opcode byte : UInt8) :
    ∃ plain other, RunsOnMemory plain other opcode byte cpu.regs.f := by
  have second : cpu.regs.hl + 1 + 1 ≠ cpu.regs.hl := by grind
  have third : cpu.regs.hl + 1 + 1 ≠ cpu.regs.hl + 1 := by grind
  refine
    ⟨{ cpu with regs := { cpu.regs with pc := cpu.regs.hl + 1 }, control := .none },
      flat.load cpu.regs.hl [byte, 0xCB, BitOperation.memoryOpcode opcode],
      ⟨rfl, rfl, fun pending => nomatch pending⟩, ?_, ?_, ?_, rfl⟩
  · simp [Flat.load, Memory.load, Memory.get_set, third]
  · simp [Flat.load, Memory.load]
  · simp [Flat.load, Memory.load, Memory.get_set, second]

private theorem RunsOnMemory.step {plain : Cpu} {other : Flat} {opcode byte : UInt8}
    {flags : Flags} (runs : RunsOnMemory plain other opcode byte flags) :
    let outcome := (BitOperation.ofByte opcode).action.apply byte flags
    let there := plain.step Flat.bus other
    there.1.regs.f = outcome.flags ∧
      there.2.ram.get plain.regs.hl = outcome.value := by
  have table : Opcode.ofByte 0xCB = .bitLead := by decide
  have found :
      other.ram.instructionAt plain.regs.pc =
        .bits ⟨(BitOperation.ofByte opcode).action, .memory⟩ := by
    simp only [Memory.instructionAt, runs.table, table, runs.opcode,
      BitOperation.ofByte_memoryOpcode]
  obtain ⟨regs, stored⟩ :=
    BitOperation.run_execute_memory (BitOperation.ofByte opcode).action
      (plain.regs.refresh 2) (other.addCycles 8)
  have operand : (other.addCycles 8).ram.get (plain.regs.refresh 2).hl = byte :=
    runs.operand
  have flags : (plain.regs.refresh 2).f = flags := runs.flags
  rw [operand, flags] at regs stored
  rw [step_of_nothingDue runs.nothing, runInstruction_flat found]
  exact ⟨congrArg (fun regs : Registers => regs.f) regs, stored⟩

/-- A test leaves the indexed byte alone, and everything else stores it. -/
theorem step_of_holdsIndexedBits {cpu : Cpu} {flat : Flat} {index : Index}
    {displacement opcode : UInt8}
    (holds :
      flat.ram.HoldsIndexedBits cpu.regs.pc index displacement opcode)
    (nothing : cpu.NothingDue flat) :
    let op := BitOperation.ofByte opcode
    let address := Word.displace (cpu.regs.index index) displacement
    let outcome := op.action.apply (flat.ram.get address) cpu.regs.f
    let control := cpu.control.after .plain
    cpu.step Flat.bus flat =
      if op.action.isTest then
        ({ cpu with
            regs :=
              { cpu.regs.refresh 2 with
                f := outcome.flags.withUndocumented
                  (Word.high address) }.advance 4
            control := control },
          flat.addCycles 20)
      else
        ({ cpu with
            regs :=
              (op.operand.copyTo { cpu.regs.refresh 2 with f := outcome.flags }
                outcome.value).advance 4
            control := control },
          (flat.poke address outcome.value).addCycles 23) := by
  intro op address outcome control
  have here : (cpu.regs.refresh 2).index index = cpu.regs.index index := by
    cases index <;> rfl
  have ran :=
    op.run_executeIndexed index displacement (cpu.regs.refresh 2)
      (flat.addCycles 14)
  dsimp only at ran
  rw [here] at ran
  rw [step_of_nothingDue nothing, runInstruction_flat holds.instructionAt]
  by_cases test : op.action.isTest = true
  · rw [if_pos test] at ran ⊢
    exact congrArg
      (fun left : Registers × Flat =>
        ({ cpu with regs := left.1, control := control }, left.2)) ran
  · rw [if_neg test] at ran ⊢
    exact congrArg
      (fun left : Registers × Flat =>
        ({ cpu with regs := left.1, control := control }, left.2)) ran

/-- What an operation on an indexed byte leaves, told from the flags and the byte
that the same action on the byte at `HL` leaves. -/
structure IndexedBitsOutcome (cpu : Cpu) (flat : Flat) (address : UInt16)
    (op : BitOperation) (flags : Flags) (byte : UInt8) (next : Cpu × Flat) :
    Prop where
  /-- The byte is stored and copied, and nothing else changes. -/
  changes : op.action.isTest = false →
    next.1.regs =
        (op.operand.copyTo { cpu.regs.refresh 2 with f := flags } byte).advance 4 ∧
      next.2.ram = flat.ram.set address byte
  /-- `H` and `L` are themselves when a copy goes there. -/
  copies : op.action.isTest = false → ∀ target, op.operand = .register target →
    next.1.regs.get .hl target = byte
  /-- Only the flags change, and two of them show the address. -/
  tests : op.action.isTest = true →
    next.1.regs =
        { cpu.regs.refresh 2 with
          f := flags.withUndocumented (Word.high address) }.advance 4 ∧
      next.2.ram = flat.ram
  indices : ∀ index, next.1.regs.index index = cpu.regs.index index
  /-- The ports, what was written there and a requested jump stay. -/
  keeps :
    next.2.ports = flat.ports ∧ next.2.writes = flat.writes ∧
      next.1.newPc = cpu.newPc

/-- The bit table behind an index lead does to the indexed byte and the flags
what the bit table does to a byte at `HL`, wherever that one lies, and copies the
byte into the register that the opcode names. -/
theorem step_indexedBits {cpu : Cpu} {flat : Flat} {index : Index}
    {displacement opcode : UInt8}
    (holds :
      flat.ram.HoldsIndexedBits cpu.regs.pc index displacement opcode)
    (nothing : cpu.NothingDue flat) :
    let address := Word.displace (cpu.regs.index index) displacement
    (∃ plain other,
        RunsOnMemory plain other opcode (flat.ram.get address) cpu.regs.f) ∧
      ∀ plain other,
        RunsOnMemory plain other opcode (flat.ram.get address) cpu.regs.f →
          let there := plain.step Flat.bus other
          IndexedBitsOutcome cpu flat address (.ofByte opcode) there.1.regs.f
            (there.2.ram.get plain.regs.hl) (cpu.step Flat.bus flat) := by
  intro address
  refine ⟨exists_runsOnMemory cpu flat opcode _, ?_⟩
  intro plain other runs there
  obtain ⟨flags, byte⟩ := runs.step
  rw [flags, byte, step_of_holdsIndexedBits holds nothing]
  generalize BitOperation.ofByte opcode = op
  by_cases test : op.action.isTest = true
  · rw [if_pos test]
    have notChanging : op.action.isTest ≠ false := by
      rw [test]
      decide
    refine ⟨fun changing => absurd changing notChanging,
      fun changing => absurd changing notChanging, fun _ => ⟨rfl, rfl⟩, ?_,
      rfl, rfl, rfl⟩
    intro index
    cases index <;> rfl
  · rw [if_neg test]
    refine ⟨fun _ => ⟨rfl, rfl⟩, ?_, fun testing => absurd testing test, ?_,
      rfl, rfl, rfl⟩
    · intro _ target named
      rw [named]
      exact (Registers.get_advance _ 4 target).trans
        (Registers.get_set_self _ target _)
    · intro index
      refine (Registers.index_advance _ 4 index).trans ?_
      rw [Registers.index_copyTo]
      cases index <;> rfl

/-- A processor about to rotate the byte two places below `IY`, with a copy to
`H`. -/
def rotating : Cpu where
  regs :=
    { Registers.zero with
      f := { Flags.none with carry := true }, h := 0x12, iy := 0x0004 }
  control := .none
  newPc := none
  model := .nmos

/-- `RR (IY-2),H`, with the displacement itself as the indexed byte. -/
def rotated : Flat :=
  Flat.new.load 0 [0xFD, 0xCB, 0xFE, 0x1C]

/-- A processor about to rotate the byte at `HL`. -/
def rotatingMemory : Cpu :=
  { rotating with regs := { rotating.regs with h := 0, l := 2 } }

def rotatedMemory : Flat :=
  Flat.new.load 0 [0xCB, 0x1E, 0xFE]

/-- The carry comes into the byte and goes out of it, and the byte replaces the
displacement. -/
theorem step_indexedBits_rotating :
    rotated.ram.HoldsIndexedBits rotating.regs.pc .iy 0xFE 0x1C ∧
      rotating.NothingDue rotated ∧
      RunsOnMemory rotatingMemory rotatedMemory 0x1C
        (rotated.ram.get (Word.displace (rotating.regs.index .iy) 0xFE))
        rotating.regs.f ∧
      (rotating.step Flat.bus rotated).1.regs.get .hl .h = 0xFF ∧
      (rotating.step Flat.bus rotated).2.ram.get 2 = 0xFF ∧
      (rotating.step Flat.bus rotated).1.regs.iy = 4 := by
  have holds : rotated.ram.HoldsIndexedBits rotating.regs.pc .iy 0xFE 0x1C := by
    constructor <;> decide
  have nothing : rotating.NothingDue rotated :=
    ⟨rfl, rfl, fun pending => nomatch pending⟩
  have runs :
      RunsOnMemory rotatingMemory rotatedMemory 0x1C
        (rotated.ram.get (Word.displace (rotating.regs.index .iy) 0xFE))
        rotating.regs.f := by
    refine ⟨⟨rfl, rfl, fun pending => nomatch pending⟩, ?_, ?_, ?_, rfl⟩ <;> decide
  have outcome := (step_indexedBits holds nothing).2 _ _ runs
  have changing : (BitOperation.ofByte 0x1C).action.isTest = false := by decide
  refine ⟨holds, nothing, runs, ?_, ?_, outcome.indices .iy⟩
  · rw [outcome.copies changing .h (by decide)]
    decide
  · rw [(outcome.changes changing).2]
    decide

end Cpu

end Z80
