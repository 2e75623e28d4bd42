import Z80.Alu.Arithmetic

/-!
# Word arithmetic

The sums and differences of register pairs.  The half carry is the one out of
bit 11, and bits 5 and 3 of the flags come from the high byte of the result.
-/

namespace Z80

namespace Alu

/-- Whether an exact signed result lies outside the signed words. -/
def wordOverflow (exact : Int) : Bool :=
  exact < -32768 || 32767 < exact

/-- The sign and zero bits of a word, and bits 5 and 3 of its high byte. -/
def ofWordResult (result : UInt16) : Flags :=
  { Flags.ofResult (Word.high result) with zero := result == 0 }

/-- The sum of two words.  The sign, zero and parity bits stay as they are. -/
def addWord (left right : UInt16) (flags : Flags) : Outcome UInt16 :=
  let total := left.toNat + right.toNat
  let result := UInt16.ofNat total
  { value := result
    flags :=
      { flags.withUndocumented (Word.high result) with
        half := 4096 ≤ left.toNat % 4096 + right.toNat % 4096
        subtract := false
        carry := 65536 ≤ total } }

/-- The sum of two words and the carry. -/
def adcWord (left right : UInt16) (carry : Bool) : Outcome UInt16 :=
  let total := left.toNat + right.toNat + carry.toNat
  let result := UInt16.ofNat total
  { value := result
    flags :=
      { ofWordResult result with
        half := 4096 ≤ left.toNat % 4096 + right.toNat % 4096 + carry.toNat
        parity :=
          wordOverflow (Word.signed left + Word.signed right + carry.toNat)
        carry := 65536 ≤ total } }

/-- The difference of two words, less the borrow. -/
def sbcWord (left right : UInt16) (borrow : Bool) : Outcome UInt16 :=
  let result := left - right - UInt16.ofNat borrow.toNat
  { value := result
    flags :=
      { ofWordResult result with
        half := left.toNat % 4096 < right.toNat % 4096 + borrow.toNat
        parity :=
          wordOverflow (Word.signed left - Word.signed right - borrow.toNat)
        subtract := true
        carry := left.toNat < right.toNat + borrow.toNat } }

end Alu

end Z80
