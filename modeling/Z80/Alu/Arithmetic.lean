import Z80.Flags

/-!
# Byte arithmetic and logic

Sums and differences are taken as exact numbers.  The result is the number
modulo 256, the carry tells that the unsigned number did not fit, the parity
bit tells that the signed number did not fit, and the half carry is the carry
between the two digits of four bits.
-/

namespace Z80

/-- What an operation leaves: a value and the flag register. -/
structure Outcome (α : Type) where
  value : α
  flags : Flags
  deriving DecidableEq

/-- The eight operations of the accumulator, in opcode order. -/
inductive ArithmeticOp where
  | add
  | adc
  | sub
  | sbc
  | and
  | xor
  | or
  | cp
  deriving DecidableEq

namespace Alu

/-- Whether an exact signed result lies outside the signed bytes. -/
def byteOverflow (exact : Int) : Bool :=
  exact < -128 || 127 < exact

/-! ## Sums and differences -/

/-- The sum of two bytes and an incoming carry. -/
def add (left right : UInt8) (carry : Bool) : Outcome UInt8 :=
  let total := left.toNat + right.toNat + carry.toNat
  let result := UInt8.ofNat total
  { value := result
    flags :=
      { Flags.ofResult result with
        half := 16 ≤ left.toNat % 16 + right.toNat % 16 + carry.toNat
        parity :=
          byteOverflow (Byte.signed left + Byte.signed right + carry.toNat)
        carry := 256 ≤ total } }

/-- The difference of two bytes, less an incoming borrow. -/
def sub (left right : UInt8) (borrow : Bool) : Outcome UInt8 :=
  let result := left - right - UInt8.ofNat borrow.toNat
  { value := result
    flags :=
      { Flags.ofResult result with
        half := left.toNat % 16 < right.toNat % 16 + borrow.toNat
        parity :=
          byteOverflow (Byte.signed left - Byte.signed right - borrow.toNat)
        subtract := true
        carry := left.toNat < right.toNat + borrow.toNat } }

/-- The flags of a difference, with bits 5 and 3 taken from the right
operand. -/
def compare (left right : UInt8) : Flags :=
  (sub left right false).flags.withUndocumented right

/-! ## Logic -/

/-- Conjunction of two bytes.  The half carry is always set. -/
def and (left right : UInt8) : Outcome UInt8 :=
  { value := left &&& right
    flags := { Flags.ofLogical (left &&& right) with half := true } }

def xor (left right : UInt8) : Outcome UInt8 :=
  { value := left ^^^ right
    flags := .ofLogical (left ^^^ right) }

def or (left right : UInt8) : Outcome UInt8 :=
  { value := left ||| right
    flags := .ofLogical (left ||| right) }

/-! ## One operand -/

/-- A byte plus one.  The carry stays as it is. -/
def increment (byte : UInt8) (flags : Flags) : Outcome UInt8 :=
  let sum := add byte 1 false
  { sum with flags := { sum.flags with carry := flags.carry } }

/-- A byte minus one.  The carry stays as it is. -/
def decrement (byte : UInt8) (flags : Flags) : Outcome UInt8 :=
  let difference := sub byte 1 false
  { difference with flags := { difference.flags with carry := flags.carry } }

/-- A byte with its sign changed: the difference from zero. -/
def negate (byte : UInt8) : Outcome UInt8 :=
  sub 0 byte false

/-- Test a bit.  The flags are those of the byte with every other bit
cleared, and the carry stays as it is. -/
def testBit (index : Fin 8) (byte : UInt8) (flags : Flags) : Flags :=
  { Flags.ofLogical (byte &&& Byte.mask index) with
    half := true
    carry := flags.carry }

end Alu

/-- Apply an operation of the accumulator.  A comparison leaves the
accumulator as it is. -/
def ArithmeticOp.apply (op : ArithmeticOp) (accumulator operand : UInt8)
    (flags : Flags) : Outcome UInt8 :=
  match op with
  | .add => Alu.add accumulator operand false
  | .adc => Alu.add accumulator operand flags.carry
  | .sub => Alu.sub accumulator operand false
  | .sbc => Alu.sub accumulator operand flags.carry
  | .and => Alu.and accumulator operand
  | .xor => Alu.xor accumulator operand
  | .or => Alu.or accumulator operand
  | .cp => ⟨accumulator, Alu.compare accumulator operand⟩

end Z80
