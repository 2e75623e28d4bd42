import Z80.Proofs.BinaryChain
import Z80.Proofs.CarryBits

/-!
# Words as pairs of bytes

Words can be added and subtracted by two operations on bytes, first on the low
bytes and then, with the carry between them, on the high ones.  An operation on
words leaves what these two leave, but its zero bit is about the whole word, and
the sum without a carry keeps the bits that tell about a result.

Main statement: `Alu.isBytewise_words`, for all words and flags.
-/

namespace Z80

/-! ## Halves -/

namespace Word

theorem toNat_eq_halves (word : UInt16) :
    word.toNat = (high word).toNat * 256 + (low word).toNat := by
  rw [← toNat_ofBytes, ofBytes_high_low]

/-- The sign of a word is the sign of its high byte. -/
private theorem signed_eq_halves (word : UInt16) :
    signed word = 256 * Byte.signed (high word) + (low word).toNat := by
  have lowBound := (low word).toNat_lt
  have highBound := (high word).toNat_lt
  unfold signed Byte.signed
  rw [toNat_eq_halves word]
  split <;> split <;> omega

private theorem testBit_high (word : UInt16) (index : Nat) :
    Byte.testBit (high word) index = testBit word (index + 8) := by
  unfold Byte.testBit testBit
  rw [toNat_high, Nat.testBit_add]

private theorem high_xor (left right : UInt16) :
    high (left ^^^ right) = high left ^^^ high right := by
  apply UInt8.toNat_inj.mp
  rw [UInt8.toNat_xor, toNat_high, toNat_high, toNat_high, UInt16.toNat_xor]
  exact Nat.xor_div_two_pow (n := 8)

private theorem high_and (left right : UInt16) :
    high (left &&& right) = high left &&& high right := by
  apply UInt8.toNat_inj.mp
  rw [UInt8.toNat_and, toNat_high, toNat_high, toNat_high, UInt16.toNat_and]
  exact Nat.and_div_two_pow (n := 8)

end Word

namespace Alu

/-! ## Two steps -/

/-- An operation on bytes, done on the low bytes of two words and then, with the
carry that is left, on their high bytes.  The flags are the ones it ends with. -/
def bytewise (operation : UInt8 → UInt8 → Bool → Outcome UInt8)
    (left right : UInt16) (carry : Bool) : Outcome UInt16 :=
  let lower := operation (Word.low left) (Word.low right) carry
  let upper := operation (Word.high left) (Word.high right) lower.flags.carry
  { value := Word.ofBytes upper.value lower.value
    flags := upper.flags }

/-- The zero bit tells about the whole word. -/
def withWordZero (outcome : Outcome UInt16) : Outcome UInt16 :=
  { outcome with flags := { outcome.flags with zero := outcome.value == 0 } }

/-- An outcome shows its high byte, but for the zero bit. -/
private theorem eq_withWordZero {word : Outcome UInt16} {upper : Outcome UInt8}
    {low : UInt8}
    (value : word.value = Word.ofBytes upper.value low)
    (half : word.flags.half = upper.flags.half)
    (parity : word.flags.parity = upper.flags.parity)
    (carry : word.flags.carry = upper.flags.carry)
    (shown :
      word.flags =
        { ofWordResult word.value with
          half := word.flags.half
          parity := word.flags.parity
          subtract := upper.flags.subtract
          carry := word.flags.carry })
    (upperShown :
      upper.flags =
        { Flags.ofResult upper.value with
          half := upper.flags.half
          parity := upper.flags.parity
          subtract := upper.flags.subtract
          carry := upper.flags.carry }) :
    word = withWordZero ⟨Word.ofBytes upper.value low, upper.flags⟩ := by
  obtain ⟨wordValue, wordFlags⟩ := word
  dsimp only at value half parity carry shown
  rw [half, parity, carry, value, ofWordResult, Word.high_ofBytes] at shown
  rw [value, shown, upperShown]
  rfl

section Words

variable (left right : UInt16)

section HighBits

variable {result : UInt16} {high : UInt8} (same : Word.high result = high)
include same

/-- The bits that tell carries of words are those of their high bytes. -/
private theorem half_eq_high :
    Word.testBit (left ^^^ right ^^^ result) 12 =
      Byte.testBit (Word.high left ^^^ Word.high right ^^^ high) 4 := by
  rw [← same, ← Word.high_xor, ← Word.high_xor, Word.testBit_high]

private theorem parity_eq_high_sum :
    Word.testBit ((left ^^^ result) &&& (right ^^^ result)) 15 =
      Byte.testBit ((Word.high left ^^^ high) &&& (Word.high right ^^^ high)) 7 := by
  rw [← same, ← Word.high_xor, ← Word.high_xor, ← Word.high_and, Word.testBit_high]

private theorem parity_eq_high_difference :
    Word.testBit ((right ^^^ left) &&& (result ^^^ left)) 15 =
      Byte.testBit
        ((Word.high right ^^^ Word.high left) &&& (high ^^^ Word.high left)) 7 := by
  rw [← same, ← Word.high_xor, ← Word.high_xor, ← Word.high_and, Word.testBit_high]

end HighBits

/-- The circuit for words is the circuit for bytes twice: the bits that tell the
half carry and the overflow are those of the high bytes. -/
private theorem adcWordWide_eq_bytewise (carry : Bool) :
    adcWordWide left right carry =
      withWordZero (bytewise addWide left right carry) := by
  have word := adcWordWide_exact left right carry
  have lower := addWide_exact (Word.low left) (Word.low right) carry
  have leftHalves := Word.toNat_eq_halves left
  have rightHalves := Word.toNat_eq_halves right
  dsimp only [bytewise]
  generalize addWide (Word.low left) (Word.low right) carry = low at lower ⊢
  have upper := addWide_exact (Word.high left) (Word.high right) low.flags.carry
  have lowBound := low.value.toNat_lt
  have highBound :=
    (addWide (Word.high left) (Word.high right) low.flags.carry).value.toNat_lt
  have wordBound := (adcWordWide left right carry).value.toNat_lt
  have value :
      (adcWordWide left right carry).value =
        Word.ofBytes
          (addWide (Word.high left) (Word.high right) low.flags.carry).value
          low.value := by
    apply UInt16.toNat_inj.mp
    rw [Word.toNat_ofBytes]
    omega
  have carries :
      (adcWordWide left right carry).flags.carry =
        (addWide (Word.high left) (Word.high right) low.flags.carry).flags.carry :=
    bit_eq_of_toNat_eq (by omega)
  have high := (congrArg Word.high value).trans (Word.high_ofBytes _ _)
  exact eq_withWordZero value (half_eq_high left right high)
    (parity_eq_high_sum left right high) carries rfl rfl

private theorem sbcWordWide_eq_bytewise (borrow : Bool) :
    sbcWordWide left right borrow =
      withWordZero (bytewise subWide left right borrow) := by
  have word := sbcWordWide_exact left right borrow
  have lower := subWide_exact (Word.low left) (Word.low right) borrow
  have leftHalves := Word.toNat_eq_halves left
  have rightHalves := Word.toNat_eq_halves right
  dsimp only [bytewise]
  generalize subWide (Word.low left) (Word.low right) borrow = low at lower ⊢
  have upper := subWide_exact (Word.high left) (Word.high right) low.flags.carry
  have lowBound := low.value.toNat_lt
  have highBound :=
    (subWide (Word.high left) (Word.high right) low.flags.carry).value.toNat_lt
  have wordBound := (sbcWordWide left right borrow).value.toNat_lt
  have value :
      (sbcWordWide left right borrow).value =
        Word.ofBytes
          (subWide (Word.high left) (Word.high right) low.flags.carry).value
          low.value := by
    apply UInt16.toNat_inj.mp
    rw [Word.toNat_ofBytes]
    omega
  have carries :
      (sbcWordWide left right borrow).flags.carry =
        (subWide (Word.high left) (Word.high right) low.flags.carry).flags.carry :=
    bit_eq_of_toNat_eq (by omega)
  have high := (congrArg Word.high value).trans (Word.high_ofBytes _ _)
  exact eq_withWordZero value (half_eq_high left right high)
    (parity_eq_high_difference left right high) carries rfl rfl

/-- The carry out of the low bytes goes into every part of the sum of the high
bytes. -/
theorem adcWord_eq_bytewise (carry : Bool) :
    adcWord left right carry = withWordZero (bytewise add left right carry) := by
  rw [adcWord_eq_adcWordWide, adcWordWide_eq_bytewise]
  simp only [bytewise, add_eq_addWide]

/-- So does the borrow. -/
theorem sbcWord_eq_bytewise (borrow : Bool) :
    sbcWord left right borrow = withWordZero (bytewise sub left right borrow) := by
  rw [sbcWord_eq_sbcWordWide, sbcWordWide_eq_bytewise]
  simp only [bytewise, sub_eq_subWide]

/-- The sum without a carry takes from the two steps what a carry is about, and
keeps the other flags. -/
theorem addWord_eq_bytewise (flags : Flags) :
    addWord left right flags =
      let sum := bytewise add left right false
      { value := sum.value
        flags :=
          { flags with
            bit5 := sum.flags.bit5
            half := sum.flags.half
            bit3 := sum.flags.bit3
            subtract := false
            carry := sum.flags.carry } } := by
  rw [addWord_eq_addWordWide, addWordWide_eq_keepingSign, ← adcWord_eq_adcWordWide,
    adcWord_eq_bytewise]
  rfl

/-! ## Comparisons -/

/-- The sign and the parity bit of a difference together tell which of the signed
numbers is the smaller one. -/
theorem order_sbcWord (borrow : Bool) :
    ((sbcWord left right borrow).flags.sign ^^
        (sbcWord left right borrow).flags.parity) =
      decide (Word.signed left < Word.signed right + borrow.toNat) := by
  have lower := subWide_exact (Word.low left) (Word.low right) borrow
  rw [← sub_eq_subWide] at lower
  rw [sbcWord_eq_bytewise, Word.signed_eq_halves left, Word.signed_eq_halves right]
  dsimp only [withWordZero, bytewise]
  generalize sub (Word.low left) (Word.low right) borrow = low at lower ⊢
  have lowBound := low.value.toNat_lt
  have order :=
    ArithmeticOp.apply_order true (Word.high left) (Word.high right) low.flags
  refine order.trans (decide_eq_decide.mpr ?_)
  simp only [exactly]
  omega

private theorem zero_sbcWord_iff (borrow : Bool) :
    (sbcWord left right borrow).flags.zero = true ↔
      left.toNat = (right.toNat + borrow.toNat) % 65536 := by
  have leftBound := left.toNat_lt
  have rightBound := right.toNat_lt
  have borrowBound := borrow.toNat_le
  have nothing : (0 : UInt16).toNat = 0 := rfl
  dsimp only [sbcWord, ofWordResult]
  rw [beq_iff_eq, ← UInt16.toNat_inj, nothing, UInt16.toNat_sub, UInt16.toNat_sub,
    UInt16.toNat_ofNat']
  omega

private theorem value_sbcWord_adcWord (carry : Bool) :
    (sbcWord (adcWord left right carry).value right carry).value = left :=
  Word.sub_sub_eq UInt16.toNat_ofNat'.symm

/-- What the operations on words have to do with the ones on bytes, and what a
difference tells about its operands. -/
structure IsBytewise (flags : Flags) : Prop where
  sum :
    adcWord left right flags.carry =
      withWordZero (bytewise add left right flags.carry)
  difference :
    sbcWord left right flags.carry =
      withWordZero (bytewise sub left right flags.carry)
  plainSum :
    addWord left right flags =
      let sum := bytewise add left right false
      { value := sum.value
        flags :=
          { flags with
            bit5 := sum.flags.bit5
            half := sum.flags.half
            bit3 := sum.flags.bit3
            subtract := false
            carry := sum.flags.carry } }
  /-- The carry bit tells which of the unsigned numbers is the smaller one. -/
  less :
    (sbcWord left right flags.carry).flags.carry = true ↔
      left.toNat < right.toNat + flags.carry.toNat
  signedLess :
    ((sbcWord left right flags.carry).flags.sign ^^
        (sbcWord left right flags.carry).flags.parity) = true ↔
      Word.signed left < Word.signed right + flags.carry.toNat
  equal :
    (sbcWord left right flags.carry).flags.zero = true ↔
      left.toNat = (right.toNat + flags.carry.toNat) % 65536
  /-- The difference undoes the sum. -/
  restores :
    (sbcWord (adcWord left right flags.carry).value right flags.carry).value =
      left

/-- Operations on words are two operations on bytes, whatever the words and the
flags. -/
theorem isBytewise_words (flags : Flags) : IsBytewise left right flags where
  sum := adcWord_eq_bytewise left right flags.carry
  difference := sbcWord_eq_bytewise left right flags.carry
  plainSum := addWord_eq_bytewise left right flags
  less := decide_eq_true_iff
  signedLess := by
    rw [order_sbcWord, decide_eq_true_iff]
  equal := zero_sbcWord_iff left right flags.carry
  restores := value_sbcWord_adcWord left right flags.carry

end Words

end Alu

end Z80
