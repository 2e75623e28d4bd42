import Z80.Alu.Arithmetic

/-!
# Shifts and rotations

Every shift moves a byte by one place.  A shift to the left doubles the byte
and puts an incoming bit at the bottom; a shift to the right halves it and puts
an incoming bit at the top.  The bit pushed out becomes the carry.
-/

namespace Z80

/-- The eight shifts and rotations, in opcode order.  `sll` is undocumented
and shifts a one in from the right. -/
inductive ShiftOp where
  | rlc
  | rrc
  | rl
  | rr
  | sla
  | sra
  | sll
  | srl
  deriving DecidableEq

namespace ShiftOp

def leftward : ShiftOp → Bool
  | .rlc | .rl | .sla | .sll => true
  | .rrc | .rr | .sra | .srl => false

/-- The bit that a shift brings in. -/
def incoming (op : ShiftOp) (byte : UInt8) (carry : Bool) : Bool :=
  match op with
  | .rlc => Byte.testBit byte 7
  | .rrc => Byte.testBit byte 0
  | .rl => carry
  | .rr => carry
  | .sla => false
  | .sra => Byte.testBit byte 7
  | .sll => true
  | .srl => false

/-- The bit that a shift pushes out. -/
def outgoing (op : ShiftOp) (byte : UInt8) : Bool :=
  if op.leftward then Byte.testBit byte 7 else Byte.testBit byte 0

/-- The byte one place further. -/
def shifted (op : ShiftOp) (byte : UInt8) (carry : Bool) : UInt8 :=
  let bit := (op.incoming byte carry).toNat
  if op.leftward then
    UInt8.ofNat (byte.toNat * 2 + bit)
  else
    UInt8.ofNat (byte.toNat / 2 + bit * 128)

/-- Shift a byte.  The flags are those of the result with its parity. -/
def apply (op : ShiftOp) (byte : UInt8) (flags : Flags) : Outcome UInt8 :=
  let result := op.shifted byte flags.carry
  { value := result
    flags := { Flags.ofLogical result with carry := op.outgoing byte } }

/-- Rotate the accumulator.  The sign, zero and parity bits stay as they
are. -/
def applyAccumulator (op : ShiftOp) (accumulator : UInt8) (flags : Flags) :
    Outcome UInt8 :=
  let result := op.shifted accumulator flags.carry
  { value := result
    flags :=
      { flags.withUndocumented result with
        half := false
        subtract := false
        carry := op.outgoing accumulator } }

end ShiftOp

end Z80
