import Z80.Registers

/-!
# Operands

The operands that opcodes name: byte registers, register pairs, conditions and
the memory operand.  Which register pair `HL`, `H`, `L` and `(HL)` stand for
depends on the opcode's lead byte, so the accessors take a `Pointer`.
-/

namespace Z80

inductive Register where
  | b
  | c
  | d
  | e
  | h
  | l
  | a
  deriving DecidableEq

/-- A byte operand: a register, or the byte that the pointer addresses. -/
inductive Operand where
  | register (named : Register)
  | memory
  deriving DecidableEq

inductive Pair where
  | bc
  | de
  | hl
  | sp
  deriving DecidableEq

/-- A register pair that can be pushed and popped. -/
inductive StackPair where
  | bc
  | de
  | hl
  | af
  deriving DecidableEq

/-- A register pair that addresses memory for the accumulator alone. -/
inductive AddressPair where
  | bc
  | de
  deriving DecidableEq

inductive Condition where
  | nonZero
  | zero
  | noCarry
  | carry
  | parityOdd
  | parityEven
  | plus
  | minus
  deriving DecidableEq

inductive Index where
  | ix
  | iy
  deriving DecidableEq

/-- The register pair that stands in for `HL`: `HL` itself, or the index
register that the lead byte selects. -/
inductive Pointer where
  | hl
  | index (index : Index)
  deriving DecidableEq

namespace Pointer

/-- The number of lead bytes in front of the opcode. -/
def leadBytes : Pointer → UInt16
  | .hl => 0
  | .index _ => 1

/-- The number of displacement bytes of a memory operand. -/
def displacementBytes : Pointer → UInt16
  | .hl => 0
  | .index _ => 1

end Pointer

namespace Registers

/-! ## Pointers -/

def index (regs : Registers) : Index → UInt16
  | .ix => regs.ix
  | .iy => regs.iy

def setIndex (regs : Registers) : Index → UInt16 → Registers
  | .ix, word => { regs with ix := word }
  | .iy, word => { regs with iy := word }

def pointer (regs : Registers) : Pointer → UInt16
  | .hl => regs.hl
  | .index index => regs.index index

def setPointer (regs : Registers) : Pointer → UInt16 → Registers
  | .hl, word => regs.setHl word
  | .index index, word => regs.setIndex index word

/-! ## Byte registers -/

/-- Read a byte register; `H` and `L` are the halves of the pointer. -/
def get (regs : Registers) (pointer : Pointer) : Register → UInt8
  | .b => regs.b
  | .c => regs.c
  | .d => regs.d
  | .e => regs.e
  | .h => Word.high (regs.pointer pointer)
  | .l => Word.low (regs.pointer pointer)
  | .a => regs.a

/-- Write a byte register; `H` and `L` are the halves of the pointer. -/
def set (regs : Registers) (pointer : Pointer) : Register → UInt8 → Registers
  | .b, byte => { regs with b := byte }
  | .c, byte => { regs with c := byte }
  | .d, byte => { regs with d := byte }
  | .e, byte => { regs with e := byte }
  | .h, byte =>
      regs.setPointer pointer
        (Word.ofBytes byte (Word.low (regs.pointer pointer)))
  | .l, byte =>
      regs.setPointer pointer
        (Word.ofBytes (Word.high (regs.pointer pointer)) byte)
  | .a, byte => { regs with a := byte }

/-! ## Register pairs -/

def pair (regs : Registers) (pointer : Pointer) : Pair → UInt16
  | .bc => regs.bc
  | .de => regs.de
  | .hl => regs.pointer pointer
  | .sp => regs.sp

def setPair (regs : Registers) (pointer : Pointer) :
    Pair → UInt16 → Registers
  | .bc, word => regs.setBc word
  | .de, word => regs.setDe word
  | .hl, word => regs.setPointer pointer word
  | .sp, word => { regs with sp := word }

def stackPair (regs : Registers) (pointer : Pointer) : StackPair → UInt16
  | .bc => regs.bc
  | .de => regs.de
  | .hl => regs.pointer pointer
  | .af => regs.af

def setStackPair (regs : Registers) (pointer : Pointer) :
    StackPair → UInt16 → Registers
  | .bc, word => regs.setBc word
  | .de, word => regs.setDe word
  | .hl, word => regs.setPointer pointer word
  | .af, word => regs.setAf word

def addressPair (regs : Registers) : AddressPair → UInt16
  | .bc => regs.bc
  | .de => regs.de

end Registers

def Condition.holds (flags : Flags) : Condition → Bool
  | .nonZero => !flags.zero
  | .zero => flags.zero
  | .noCarry => !flags.carry
  | .carry => flags.carry
  | .parityOdd => !flags.parity
  | .parityEven => flags.parity
  | .plus => !flags.sign
  | .minus => flags.sign

end Z80
