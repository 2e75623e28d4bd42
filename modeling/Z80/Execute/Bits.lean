import Z80.Execute.Operation

/-!
# Operations of the bit table

Shifts, bit tests, and setting and resetting bits.  Behind an index lead the
operand is always the indexed byte, and a register field names a register that
receives a copy of the result.
-/

namespace Z80

open Microcode

namespace BitAction

/-- What an action leaves of a byte and the flags. -/
def apply (action : BitAction) (byte : UInt8) (flags : Flags) : Outcome UInt8 :=
  match action with
  | .shift op => op.apply byte flags
  | .test index => ⟨byte, Alu.testBit index byte flags⟩
  | .reset index => ⟨byte &&& ~~~Byte.mask index, flags⟩
  | .set index => ⟨byte ||| Byte.mask index, flags⟩

/-- Whether an action only looks at its operand. -/
def isTest : BitAction → Bool
  | .test _ => true
  | .shift _ | .reset _ | .set _ => false

end BitAction

/-- Copy a byte into the register that an operand names, if it names one. -/
def Operand.copyTo (regs : Registers) (byte : UInt8) : Operand → Registers
  | .register target => regs.set .hl target byte
  | .memory => regs

namespace BitOperation

def execute (op : BitOperation) (regs : Registers) : Microcode Registers :=
  match op.operand with
  | .register target =>
      let outcome := op.action.apply (regs.get .hl target) regs.f
      let regs := regs.set .hl target outcome.value
      return { regs with f := outcome.flags }.advance 2
  | .memory => do
      let byte ← readMemory regs.hl
      let outcome := op.action.apply byte regs.f
      internal 1
      unless op.action.isTest do
        writeMemory regs.hl outcome.value
      return { regs with f := outcome.flags }.advance 2

/-- Run an operation of the bit table on an indexed byte.  A test takes bits 5
and 3 of the flags from the high byte of the address. -/
def executeIndexed (op : BitOperation) (index : Index) (displacement : UInt8)
    (regs : Registers) : Microcode Registers := do
  let address := Word.displace (regs.index index) displacement
  internal 2
  let byte ← readMemory address
  let outcome := op.action.apply byte regs.f
  internal 1
  if op.action.isTest then
    let flags := outcome.flags.withUndocumented (Word.high address)
    return { regs with f := flags }.advance 4
  else do
    writeMemory address outcome.value
    let regs := { regs with f := outcome.flags }
    return (op.operand.copyTo regs outcome.value).advance 4

end BitOperation

end Z80
