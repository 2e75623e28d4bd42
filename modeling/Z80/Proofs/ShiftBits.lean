import Mathlib.Data.Nat.Bitwise
import Z80.Alu.Shift

/-!
# Shifts bit by bit

A shift is defined on numbers: it doubles a byte or halves it.  A circuit moves the
bits of a byte by one place and puts a bit that comes in where there is room.

Main statements: `ShiftOp.row_of_leftward` and `ShiftOp.row_of_rightward`, both
bytes are the same row of bits but for one at each end, and from them
`ShiftOp.shifted_eq_shiftedBits`.
-/

namespace Z80

namespace Byte

/-! ## Bits at the ends -/

private theorem toNat_ofNat_bit (bit : Bool) :
    (UInt8.ofNat bit.toNat).toNat = bit.toNat := by
  cases bit <;> rfl

private theorem toNat_highest (bit : Bool) :
    (UInt8.ofNat bit.toNat <<< 7).toNat = bit.toNat * 2 ^ 7 := by
  cases bit <;> rfl

section Ends

variable (byte : UInt8)

private theorem shiftRight_seven : byte >>> 7 = UInt8.ofNat (testBit byte 7).toNat := by
  have bound := byte.toNat_lt
  have lowered : (byte >>> 7).toNat = byte.toNat >>> 7 := UInt8.toNat_shiftRight byte 7
  apply UInt8.toNat_inj.mp
  rw [lowered, toNat_ofNat_bit, testBit, Nat.toNat_testBit, Nat.shiftRight_eq_div_pow]
  omega

private theorem shiftLeft_seven :
    byte <<< 7 = UInt8.ofNat (testBit byte 0).toNat <<< 7 := by
  have raised : (byte <<< 7).toNat = byte.toNat <<< 7 % 2 ^ 8 :=
    UInt8.toNat_shiftLeft byte 7
  apply UInt8.toNat_inj.mp
  rw [raised, toNat_highest, testBit, Nat.toNat_testBit, Nat.shiftLeft_eq]
  omega

private theorem and_highest :
    byte &&& (0x80 : UInt8) = UInt8.ofNat (testBit byte 7).toNat <<< 7 := by
  apply UInt8.toNat_inj.mp
  rw [UInt8.toNat_and, toNat_highest]
  exact Nat.and_two_pow byte.toNat 7

end Ends

/-! ## Rows of bits -/

section Rows

variable (byte : UInt8) (bit : Bool)

/-- Twice a byte has room below it for the bit that comes in. -/
private theorem row_of_double :
    2 * byte.toNat + bit.toNat =
      (byte <<< 1 ||| UInt8.ofNat bit.toNat).toNat + 256 * (testBit byte 7).toNat := by
  have bound := byte.toNat_lt
  have bitBound := bit.toNat_le
  have shifted : (byte <<< 1).toNat = byte.toNat <<< 1 % 2 ^ 8 :=
    UInt8.toNat_shiftLeft byte 1
  have doubled : (byte <<< 1).toNat = 2 ^ 1 * (byte.toNat % 128) := by
    rw [shifted, Nat.shiftLeft_eq]
    omega
  have room : bit.toNat < 2 ^ 1 := by omega
  rw [UInt8.toNat_or, doubled, toNat_ofNat_bit, ← Nat.two_pow_add_eq_or_of_lt room,
    testBit, Nat.toNat_testBit]
  omega

/-- Half a byte has room above it. -/
private theorem row_of_half :
    2 * (byte >>> 1 ||| UInt8.ofNat bit.toNat <<< 7).toNat + (testBit byte 0).toNat =
      byte.toNat + 256 * bit.toNat := by
  have bound := byte.toNat_lt
  have shifted : (byte >>> 1).toNat = byte.toNat >>> 1 := UInt8.toNat_shiftRight byte 1
  have room : byte.toNat / 2 ^ 1 < 2 ^ 7 := by omega
  rw [UInt8.toNat_or, shifted, Nat.shiftRight_eq_div_pow, toNat_highest,
    Nat.mul_comm bit.toNat, Nat.or_comm, ← Nat.two_pow_add_eq_or_of_lt room, testBit,
    Nat.toNat_testBit]
  omega

end Rows

end Byte

/-! ## Circuits -/

namespace ShiftOp

/-- The byte that a circuit puts together from the bits of another one and a bit
that comes in. -/
def shiftedBits (op : ShiftOp) (byte : UInt8) (carry : Bool) : UInt8 :=
  let bit := UInt8.ofNat carry.toNat
  match op with
  | .rlc => byte <<< 1 ||| byte >>> 7
  | .rrc => byte >>> 1 ||| byte <<< 7
  | .rl => byte <<< 1 ||| bit
  | .rr => byte >>> 1 ||| bit <<< 7
  | .sla => byte <<< 1
  | .sra => byte >>> 1 ||| (byte &&& 0x80)
  | .sll => byte <<< 1 ||| 1
  | .srl => byte >>> 1

section Rows

variable {op : ShiftOp} (byte : UInt8) (carry : Bool)

/-- The circuits of all shifts to the left differ in the bit that comes in. -/
private theorem shiftedBits_of_leftward (leftward : op.leftward = true) :
    op.shiftedBits byte carry =
      byte <<< 1 ||| UInt8.ofNat (op.incoming byte carry).toNat := by
  cases op with
  | rlc => exact congrArg (byte <<< 1 ||| ·) (Byte.shiftRight_seven byte)
  | rl => rfl
  | sla => exact UInt8.or_zero.symm
  | sll => rfl
  | _ => contradiction

private theorem shiftedBits_of_rightward (rightward : op.leftward = false) :
    op.shiftedBits byte carry =
      byte >>> 1 ||| UInt8.ofNat (op.incoming byte carry).toNat <<< 7 := by
  cases op with
  | rrc => exact congrArg (byte >>> 1 ||| ·) (Byte.shiftLeft_seven byte)
  | rr => rfl
  | sra => exact congrArg (byte >>> 1 ||| ·) (Byte.and_highest byte)
  | srl => exact UInt8.or_zero.symm
  | _ => contradiction

/-- The bit pushed out is above the byte of the circuit. -/
theorem row_of_leftward (leftward : op.leftward = true) :
    2 * byte.toNat + (op.incoming byte carry).toNat =
      (op.shiftedBits byte carry).toNat + 256 * (Byte.testBit byte 7).toNat := by
  rw [shiftedBits_of_leftward byte carry leftward]
  exact Byte.row_of_double byte (op.incoming byte carry)

/-- The bit pushed out is below the byte of the circuit. -/
theorem row_of_rightward (rightward : op.leftward = false) :
    2 * (op.shiftedBits byte carry).toNat + (Byte.testBit byte 0).toNat =
      byte.toNat + 256 * (op.incoming byte carry).toNat := by
  rw [shiftedBits_of_rightward byte carry rightward]
  exact Byte.row_of_half byte (op.incoming byte carry)

end Rows

theorem shifted_eq_shiftedBits (op : ShiftOp) (byte : UInt8) (carry : Bool) :
    op.shifted byte carry = op.shiftedBits byte carry := by
  have bound := (op.shiftedBits byte carry).toNat_lt
  apply UInt8.toNat_inj.mp
  unfold shifted
  cases leftward : op.leftward with
  | true =>
      have row := row_of_leftward byte carry leftward
      rw [if_pos rfl, UInt8.toNat_ofNat']
      omega
  | false =>
      have row := row_of_rightward byte carry leftward
      have bitBound := (Byte.testBit byte 0).toNat_le
      rw [if_neg Bool.false_ne_true, UInt8.toNat_ofNat']
      omega

end ShiftOp

end Z80
