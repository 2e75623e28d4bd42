import Z80.Execute.Stack
import Z80.Instruction.Operation

/-!
# Operations of the main table

Operand bytes lie behind the opcode, at fixed offsets from the program
counter, which still points at the first byte of the instruction.  The program
counter moves on when the operation is done.
-/

namespace Z80

open Microcode

namespace Pointer

/-- The length of an operation on the memory operand, without immediate
bytes. -/
def memoryLength (pointer : Pointer) : UInt16 :=
  1 + pointer.leadBytes + pointer.displacementBytes

/-- The address of the memory operand.  An index register is moved by the
displacement byte behind the opcode. -/
def address (pointer : Pointer) (regs : Registers) : Microcode UInt16 :=
  match pointer with
  | .hl => pure regs.hl
  | .index register => do
      let displacement ← fetchByte regs.pc 2
      return Word.displace (regs.index register) displacement

/-- Internal cycles that only the index registers need. -/
def settle (pointer : Pointer) (cycles : Nat) : Microcode Unit :=
  match pointer with
  | .hl => pure ()
  | .index _ => internal cycles

/-- The address of the memory operand, with the five cycles that adding the
displacement takes. -/
def operandAddress (pointer : Pointer) (regs : Registers) :
    Microcode UInt16 := do
  let address ← pointer.address regs
  pointer.settle 5
  return address

end Pointer

namespace Registers

def arithmetic (regs : Registers) (op : ArithmeticOp) (operand : UInt8) :
    Registers :=
  let outcome := op.apply regs.a operand regs.f
  { regs with a := outcome.value, f := outcome.flags }

/-- Jump by the displacement byte behind the opcode, counted from the next
instruction. -/
def jumpRelative (regs : Registers) : Microcode Registers := do
  let displacement ← fetchByte regs.pc 1
  internal 5
  return { regs with pc := Word.displace (regs.pc + 2) displacement }

/-- Fetch the displacement byte behind the opcode and go on with the next
instruction. -/
def skipRelative (regs : Registers) : Microcode Registers := do
  let _ ← fetchByte regs.pc 1
  return regs.advance 2

/-- Fetch the word behind the opcode and call it. -/
def callAbsolute (regs : Registers) : Microcode Registers := do
  let target ← fetchWord regs.pc 1
  regs.pushPc (regs.pc + 3) target

def setEnabled (regs : Registers) (enabled : Bool) : Registers :=
  { regs with iff1 := enabled, iff2 := enabled }

end Registers

namespace Operation

/-! ## Loads and exchanges -/

/-- Store a constant into the memory operand.  The constant lies behind the
displacement. -/
def storeImmediate (pointer : Pointer) (regs : Registers) :
    Microcode Registers := do
  let address ← pointer.address regs
  let byte ← fetchByte regs.pc pointer.memoryLength
  pointer.settle 2
  writeMemory address byte
  return regs.advance (pointer.memoryLength + 1)

/-- Swap the pointer with the word on top of the stack. -/
def exchangeStack (pointer : Pointer) (regs : Registers) :
    Microcode Registers := do
  let (word, popped) ← regs.pop
  let pushed ← popped.push (regs.pointer pointer)
  internal 2
  return (pushed.setPointer pointer word).advance (1 + pointer.leadBytes)

/-! ## Counting -/

/-- Replace a byte operand by what a function of it and the flags leaves. -/
def update (change : UInt8 → Flags → Outcome UInt8) (target : Operand)
    (pointer : Pointer) (regs : Registers) : Microcode Registers :=
  match target with
  | .register target =>
      let outcome := change (regs.get pointer target) regs.f
      let regs := regs.set pointer target outcome.value
      return { regs with f := outcome.flags }.advance (1 + pointer.leadBytes)
  | .memory => do
      let address ← pointer.operandAddress regs
      let byte ← readMemory address
      let outcome := change byte regs.f
      internal 1
      writeMemory address outcome.value
      return { regs with f := outcome.flags }.advance pointer.memoryLength

/-! ## The accumulator and the flags -/

def complement (regs : Registers) : Registers :=
  let a := ~~~regs.a
  { regs with
    a := a
    f := { regs.f.withUndocumented a with half := true, subtract := true } }

def setCarry (regs : Registers) : Registers :=
  { regs with
    f :=
      { regs.f.withUndocumented regs.a with
        half := false
        subtract := false
        carry := true } }

/-- Complement the carry.  The half carry keeps the old one. -/
def complementCarry (regs : Registers) : Registers :=
  { regs with
    f :=
      { regs.f.withUndocumented regs.a with
        half := regs.f.carry
        subtract := false
        carry := !regs.f.carry } }

/-- Replace the accumulator and the flags by what a function of them
leaves. -/
def updateA (change : UInt8 → Flags → Outcome UInt8) (regs : Registers) :
    Registers :=
  let outcome := change regs.a regs.f
  { regs with a := outcome.value, f := outcome.flags }

/-! ## All operations -/

def execute (op : Operation) (pointer : Pointer) (regs : Registers) :
    Microcode Registers :=
  let lead := pointer.leadBytes
  match op with
  | .nop => return regs.advance 1
  | .halt => return regs
  | .di => return (regs.setEnabled false).advance 1
  | .ei => return (regs.setEnabled true).advance 1
  | .ldRegister target (.register source) =>
      return (regs.set pointer target (regs.get pointer source)).advance (1 + lead)
  | .ldRegister target .memory => do
      let address ← pointer.operandAddress regs
      let byte ← readMemory address
      return (regs.set .hl target byte).advance pointer.memoryLength
  | .ldMemory source => do
      let address ← pointer.operandAddress regs
      writeMemory address (regs.get .hl source)
      return regs.advance pointer.memoryLength
  | .ldImmediate (.register target) => do
      let byte ← fetchByte regs.pc (1 + lead)
      return (regs.set pointer target byte).advance (2 + lead)
  | .ldImmediate .memory => storeImmediate pointer regs
  | .ldPairImmediate target => do
      let word ← fetchWord regs.pc (1 + lead)
      return (regs.setPair pointer target word).advance (3 + lead)
  | .storeA address => do
      writeMemory (regs.addressPair address) regs.a
      return regs.advance 1
  | .loadA address => do
      let byte ← readMemory (regs.addressPair address)
      return { regs with a := byte }.advance 1
  | .storeAAbsolute => do
      let address ← fetchWord regs.pc 1
      writeMemory address regs.a
      return regs.advance 3
  | .loadAAbsolute => do
      let address ← fetchWord regs.pc 1
      let byte ← readMemory address
      return { regs with a := byte }.advance 3
  | .storePointerAbsolute => do
      let address ← fetchWord regs.pc (1 + lead)
      writeWord address (regs.pointer pointer)
      return regs.advance (3 + lead)
  | .loadPointerAbsolute => do
      let address ← fetchWord regs.pc (1 + lead)
      let word ← readWord address
      return (regs.setPointer pointer word).advance (3 + lead)
  | .ldStackPointer => do
      internal 2
      return { regs with sp := regs.pointer pointer }.advance (1 + lead)
  | .push source => do
      let regs ← regs.push (regs.stackPair pointer source)
      return regs.advance (1 + lead)
  | .pop target => do
      let (word, regs) ← regs.pop
      return (regs.setStackPair pointer target word).advance (1 + lead)
  | .exAf => return regs.exchangeAf.advance 1
  | .exx => return regs.exchangePairs.advance 1
  | .exDeHl => return ((regs.setDe regs.hl).setHl regs.de).advance 1
  | .exStack => exchangeStack pointer regs
  | .arithmetic op (.register source) =>
      return (regs.arithmetic op (regs.get pointer source)).advance (1 + lead)
  | .arithmetic op .memory => do
      let address ← pointer.operandAddress regs
      let byte ← readMemory address
      return (regs.arithmetic op byte).advance pointer.memoryLength
  | .arithmeticImmediate op => do
      let byte ← fetchByte regs.pc 1
      return (regs.arithmetic op byte).advance 2
  | .inc target => update Alu.increment target pointer regs
  | .dec target => update Alu.decrement target pointer regs
  | .daa => return (updateA Alu.decimalAdjust regs).advance 1
  | .cpl => return (complement regs).advance 1
  | .scf => return (setCarry regs).advance 1
  | .ccf => return (complementCarry regs).advance 1
  | .rotateA op => return (updateA op.applyAccumulator regs).advance 1
  | .addPair source => do
      let outcome :=
        Alu.addWord (regs.pointer pointer) (regs.pair pointer source) regs.f
      let regs := regs.setPointer pointer outcome.value
      internal 7
      return { regs with f := outcome.flags }.advance (1 + lead)
  | .incPair target => do
      internal 2
      return (regs.setPair pointer target (regs.pair pointer target + 1)).advance
        (1 + lead)
  | .decPair target => do
      internal 2
      return (regs.setPair pointer target (regs.pair pointer target - 1)).advance
        (1 + lead)
  | .jp => do
      let target ← fetchWord regs.pc 1
      return { regs with pc := target }
  | .jpIf condition => do
      let target ← fetchWord regs.pc 1
      return if condition.holds regs.f then { regs with pc := target }
        else regs.advance 3
  | .jpPointer => return { regs with pc := regs.pointer pointer }
  | .jr => regs.jumpRelative
  | .jrIf condition =>
      if condition.holds regs.f then regs.jumpRelative else regs.skipRelative
  | .djnz => do
      internal 1
      let counted : Registers := { regs with b := regs.b - 1 }
      if counted.b == 0 then counted.skipRelative else counted.jumpRelative
  | .call => regs.callAbsolute
  | .callIf condition =>
      if condition.holds regs.f then
        regs.callAbsolute
      else do
        let _ ← fetchWord regs.pc 1
        return regs.advance 3
  | .ret => regs.popPc
  | .retIf condition => do
      internal 1
      if condition.holds regs.f then regs.popPc else return regs.advance 1
  | .rst slot => regs.pushPc (regs.pc + 1) (UInt16.ofNat (slot.val * 8))
  | .outputImmediate => do
      let byte ← fetchByte regs.pc 1
      output (Word.ofBytes regs.a byte) regs.a
      return regs.advance 2
  | .inputImmediate => do
      let byte ← fetchByte regs.pc 1
      let a ← input (Word.ofBytes regs.a byte)
      return { regs with a := a }.advance 2

end Operation

end Z80
