import Z80.Alu.Arithmetic

/-!
# Decimal correction

After the sum or difference of two bytes that hold two decimal digits each,
the correction brings the accumulator back to two decimal digits.  The low
digit is out of range when it is above nine or a half carry left it, and the
whole byte when it is above `0x99` or a carry left it.
-/

namespace Z80

namespace Alu

/-- Whether the low digit needs correction. -/
def lowDigitOff (accumulator : UInt8) (half : Bool) : Bool :=
  half || 9 < accumulator.toNat % 16

/-- Whether the high digit needs correction.  This is also the carry that the
correction leaves. -/
def highDigitOff (accumulator : UInt8) (carry : Bool) : Bool :=
  carry || 0x99 < accumulator.toNat

/-- The amount by which the accumulator is corrected: six for each digit out
of range. -/
def decimalCorrection (accumulator : UInt8) (half carry : Bool) : UInt8 :=
  (if lowDigitOff accumulator half then 0x06 else 0) +
    (if highDigitOff accumulator carry then 0x60 else 0)

/-- Correct the accumulator after a decimal sum or difference.  Whether it was
a difference stays recorded in the flags. -/
def decimalAdjust (accumulator : UInt8) (flags : Flags) : Outcome UInt8 :=
  let correction := decimalCorrection accumulator flags.half flags.carry
  let result :=
    if flags.subtract then accumulator - correction
    else accumulator + correction
  { value := result
    flags :=
      { Flags.ofLogical result with
        half :=
          if flags.subtract then flags.half && accumulator.toNat % 16 < 6
          else 9 < accumulator.toNat % 16
        subtract := flags.subtract
        carry := highDigitOff accumulator flags.carry } }

end Alu

end Z80
