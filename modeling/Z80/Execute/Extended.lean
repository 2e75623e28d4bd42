import Z80.Execute.Block
import Z80.Model

/-!
# Operations of the extended table

Ports addressed by `BC`, word arithmetic, the interrupt registers, decimal
rotations and block operations.  Every operation is two bytes long, and those
with an absolute address four.
-/

namespace Z80

open Microcode

namespace ExtendedOperation

/-- Load the accumulator from an interrupt register.  The parity bit shows
whether interrupts are enabled. -/
def loadInterruptRegister (byte : UInt8) (regs : Registers) :
    Microcode Registers := do
  internal 1
  let flags :=
    { Flags.ofResult byte with parity := regs.iff2, carry := regs.f.carry }
  return { regs with a := byte, f := flags }.advance 2

/-- Replace the accumulator, with the flags of a decimal rotation. -/
def withRotated (regs : Registers) (accumulator : UInt8) : Registers :=
  { regs with
    a := accumulator
    f := { Flags.ofLogical accumulator with carry := regs.f.carry } }

/-- Rotate the digits of the byte at `HL` through the low digit of the
accumulator.  `store` and `keep` give the new byte and accumulator. -/
def rotateDigits (store keep : UInt8 → UInt8 → UInt8) (regs : Registers) :
    Microcode Registers := do
  let byte ← readMemory regs.hl
  internal 4
  writeMemory regs.hl (store regs.a byte)
  return (withRotated regs (keep regs.a byte)).advance 2

def updateHl (outcome : Outcome UInt16) (regs : Registers) :
    Microcode Registers := do
  internal 7
  let regs := regs.setHl outcome.value
  return { regs with f := outcome.flags }.advance 2

def execute (op : ExtendedOperation) (model : Model) (regs : Registers) :
    Microcode Registers :=
  match op with
  | .nop => return regs.advance 2
  | .input target => do
      let byte ← Microcode.input regs.bc
      let flags := { Flags.ofLogical byte with carry := regs.f.carry }
      let regs := { regs with f := flags }
      return match target with
        | some target => (regs.set .hl target byte).advance 2
        | none => regs.advance 2
  | .output source => do
      let byte :=
        match source with
        | some source => regs.get .hl source
        | none => model.outputZero
      Microcode.output regs.bc byte
      return regs.advance 2
  | .sbcPair source =>
      updateHl (Alu.sbcWord regs.hl (regs.pair .hl source) regs.f.carry) regs
  | .adcPair source =>
      updateHl (Alu.adcWord regs.hl (regs.pair .hl source) regs.f.carry) regs
  | .storePairAbsolute source => do
      let address ← fetchWord regs.pc 2
      writeWord address (regs.pair .hl source)
      return regs.advance 4
  | .loadPairAbsolute target => do
      let address ← fetchWord regs.pc 2
      let word ← readWord address
      return (regs.setPair .hl target word).advance 4
  | .neg =>
      let outcome := Alu.negate regs.a
      return { regs with a := outcome.value, f := outcome.flags }.advance 2
  | .retn => { regs with iff1 := regs.iff2 }.popPc
  | .im mode => return { regs with im := UInt8.ofNat mode.val }.advance 2
  | .ldIA => do
      internal 1
      return { regs with i := regs.a }.advance 2
  | .ldRA => do
      internal 1
      return { regs with r := regs.a }.advance 2
  | .ldAI => loadInterruptRegister regs.i regs
  | .ldAR => loadInterruptRegister regs.r regs
  | .rrd =>
      rotateDigits (fun a byte => byte / 16 + a % 16 * 16)
        (fun a byte => a / 16 * 16 + byte % 16) regs
  | .rld =>
      rotateDigits (fun a byte => byte % 16 * 16 + a % 16)
        (fun a byte => a / 16 * 16 + byte / 16) regs
  | .block op => op.execute regs
  | .tapePatch => do
      let patched ← Microcode.tapePatch regs
      return patched.advance 2

end ExtendedOperation

end Z80
