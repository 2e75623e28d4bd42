import Z80.Execute.Operation

/-!
# Block operations

A block operation handles one byte and counts.  A repeating one leaves the
program counter where it is until its counter has run out or, for a search,
until the byte is found, so that it runs again as the next instruction.
-/

namespace Z80

open Microcode

namespace BlockOperation

/-- Finish one round.  A round that is to be repeated takes `again` cycles and
stays at the instruction; the last one takes `last` cycles and moves on. -/
def finish (again last : Nat) (more : Bool) (regs : Registers) :
    Microcode Registers :=
  if more then do
    internal again
    return regs
  else do
    internal last
    return regs.advance 2

/-- The flags with bits 5 and 3 taken from bits 1 and 3 of a byte, as the block
loads and searches leave them. -/
def withBlockBits (flags : Flags) (byte : UInt8) : Flags :=
  { flags with
    bit5 := Byte.testBit byte 1
    bit3 := Byte.testBit byte 3 }

/-- Step `HL` and count `BC` down. -/
def stepCounted (op : BlockOperation) (regs : Registers) : Registers :=
  (regs.setHl (Word.neighbour op.decrement regs.hl)).setBc (regs.bc - 1)

/-! ## Loads and searches -/

def loadFlags (byte : UInt8) (regs : Registers) : Flags :=
  { withBlockBits regs.f (byte + regs.a) with
    half := false
    parity := regs.bc != 0
    subtract := false }

/-- Copy the byte at `HL` to `DE`. -/
def executeLoad (op : BlockOperation) (regs : Registers) :
    Microcode Registers := do
  let byte ← readMemory regs.hl
  writeMemory regs.de byte
  let stepped :=
    (op.stepCounted regs).setDe (Word.neighbour op.decrement regs.de)
  let flags := loadFlags byte stepped
  finish 7 2 (op.repeats && flags.parity) { stepped with f := flags }

def compareFlags (byte : UInt8) (regs : Registers) : Flags :=
  let difference := Alu.sub regs.a byte false
  let half := difference.flags.half
  { withBlockBits (Flags.ofSign difference.value)
      (difference.value - UInt8.ofNat half.toNat) with
    half := half
    parity := regs.bc != 0
    subtract := true
    carry := regs.f.carry }

/-- Compare the accumulator with the byte at `HL`. -/
def executeCompare (op : BlockOperation) (regs : Registers) :
    Microcode Registers := do
  let byte ← readMemory regs.hl
  let stepped := op.stepCounted regs
  let flags := compareFlags byte stepped
  finish 10 5 (op.repeats && flags.parity && !flags.zero)
    { stepped with f := flags }

/-! ## Ports -/

/-- The flags after a byte went through a port.  `other` is added to the byte,
and the sum gives the carries and, with the counter, the parity. -/
def portFlags (byte other counter : UInt8) : Flags :=
  let sum := byte.toNat + other.toNat
  { Flags.ofResult counter with
    half := 256 ≤ sum
    parity := Byte.evenParity (UInt8.ofNat (sum % 8) ^^^ counter)
    subtract := Byte.testBit byte 7
    carry := 256 ≤ sum }

/-- Step `HL` and count `B` down. -/
def stepPort (op : BlockOperation) (regs : Registers) : Registers :=
  let stepped := regs.setHl (Word.neighbour op.decrement regs.hl)
  { stepped with b := stepped.b - 1 }

def finishPort (op : BlockOperation) (regs : Registers) :
    Microcode Registers :=
  if op.repeats && !regs.f.zero then do
    internal 5
    return regs
  else
    return regs.advance 2

/-- Store a byte from port `BC` at `HL`. -/
def executeInput (op : BlockOperation) (regs : Registers) :
    Microcode Registers := do
  internal 1
  let byte ← input regs.bc
  writeMemory regs.hl byte
  let stepped := op.stepPort regs
  let other := if op.decrement then stepped.c - 1 else stepped.c + 1
  op.finishPort { stepped with f := portFlags byte other stepped.b }

/-- Write the byte at `HL` to port `BC`.  The counter is already counted down
when it appears in the port number. -/
def executeOutput (op : BlockOperation) (regs : Registers) :
    Microcode Registers := do
  internal 1
  let byte ← readMemory regs.hl
  let stepped := op.stepPort regs
  output stepped.bc byte
  op.finishPort { stepped with f := portFlags byte stepped.l stepped.b }

def execute (op : BlockOperation) (regs : Registers) : Microcode Registers :=
  match op.action with
  | .load => op.executeLoad regs
  | .compare => op.executeCompare regs
  | .input => op.executeInput regs
  | .output => op.executeOutput regs

end BlockOperation

end Z80
