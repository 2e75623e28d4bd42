import Mathlib.Data.Nat.Bitwise
import Z80.Alu.Wide

/-!
# Carries bit by bit

The flags of sums and differences are defined on exact numbers.  A circuit does
not have these: it adds or subtracts in twice as many bits, which may wrap, and
finds the carries in the bits where operands and result differ.

Main statements: `Number.half_of_sum` and `Number.parity_of_sum`, what the bits
of a sum tell in any width, and with them `Alu.add_eq_addWide` and
`Alu.sub_eq_subWide`, and for words `Alu.addWord_eq_addWordWide`,
`Alu.adcWord_eq_adcWordWide` and `Alu.sbcWord_eq_sbcWordWide`.  The circuit finds
the same flags.
-/

namespace Z80

theorem bit_eq_of_toNat_eq {left right : Bool} (same : left.toNat = right.toNat) :
    left = right := by
  rw [Bool.eq_iff_iff, ← Bool.toNat_eq_one, ← Bool.toNat_eq_one, same]

private theorem xor_decide (left right : Prop) [Decidable left] [Decidable right] :
    (decide left ^^ decide right) = decide (¬ (left ↔ right)) := by
  by_cases left <;> by_cases right <;> simp [*]

/-! ## Numbers -/

namespace Number

/-- The two's complement reading of a number below `range`. -/
def signed (range number : Nat) : Int :=
  if 2 * number < range then number else number - range

/-- Whether an exact signed result lies outside the signed numbers. -/
def overflow (range : Nat) (exact : Int) : Bool :=
  2 * exact < -range || range ≤ 2 * exact

/-- The highest bit of a number. -/
theorem testBit_of_lt {number place : Nat} (bound : number < 2 ^ (place + 1)) :
    number.testBit place = decide (2 ^ place ≤ number) := by
  by_cases high : 2 ^ place ≤ number
  · rw [decide_eq_true high]
    exact Nat.testBit_of_two_pow_le_and_two_pow_add_one_gt high bound
  · rw [decide_eq_false high]
    exact Nat.testBit_lt_two_pow (Nat.lt_of_not_le high)

/-- A sum of two digits and a carry carries at most once. -/
private theorem add_carry_div {base : Nat} (left right : Nat) (carry : Bool)
    (positive : 0 < base) :
    (left + right + carry.toNat) / base =
      left / base + right / base +
        (decide (base ≤ left % base + right % base + carry.toNat)).toNat := by
  have leftDigit := Nat.mod_lt left positive
  have rightDigit := Nat.mod_lt right positive
  have carryBound := carry.toNat_le
  have parts :
      left + right + carry.toNat =
        base * (left / base + right / base) +
          (left % base + right % base + carry.toNat) := by
    rw [Nat.mul_add]
    have leftParts := Nat.div_add_mod left base
    have rightParts := Nat.div_add_mod right base
    omega
  rw [parts, Nat.mul_add_div positive]
  congr 1
  by_cases carries : base ≤ left % base + right % base + carry.toNat
  · rw [decide_eq_true carries, Bool.toNat_true]
    exact Nat.div_eq_of_lt_le (by omega) (by omega)
  · rw [decide_eq_false carries]
    exact Nat.div_eq_of_lt (Nat.lt_of_not_le carries)

/-- A number below twice the base goes around once at most. -/
private theorem mod_of_lt_two_mul {base total : Nat} (bound : total < 2 * base) :
    total % base = total ∨ total % base + base = total := by
  by_cases fits : total < base
  · exact .inl (Nat.mod_eq_of_lt fits)
  · right
    rw [Nat.mod_eq_sub_mod (Nat.le_of_not_lt fits), Nat.mod_eq_of_lt (by omega)]
    omega

section Sum

variable {place width base range left right result : Nat} {carry : Bool}

/-- A bit of a sum is not the sum of the operands' bits if a carry comes into
it. -/
theorem half_of_sum (power : 2 ^ place = base) (rangePower : 2 ^ width = range)
    (within : place < width) (sum : result = (left + right + carry.toNat) % range) :
    decide (base ≤ left % base + right % base + carry.toNat) =
      (left ^^^ right ^^^ result).testBit place := by
  subst power rangePower
  have quotient := add_carry_div left right carry (Nat.two_pow_pos place)
  rw [Nat.testBit_xor, Nat.testBit_xor, sum, Nat.testBit_mod_two_pow,
    decide_eq_true within, Bool.true_and]
  generalize decide (2 ^ place ≤ _) = carries at quotient ⊢
  simp only [Nat.testBit_eq_decide_div_mod_eq, quotient, xor_decide]
  cases carries with
  | false =>
      rw [Bool.toNat_false]
      exact (decide_eq_false (by omega)).symm
  | true =>
      rw [Bool.toNat_true]
      exact (decide_eq_true (by omega)).symm

/-- The top bit of a sum differs from that of both operands if the signed sum does
not fit. -/
theorem parity_of_sum (rangePower : 2 ^ (place + 1) = range) (leftBound : left < range)
    (rightBound : right < range)
    (sum : result = (left + right + carry.toNat) % range) :
    overflow range (signed range left + signed range right + carry.toNat) =
      ((left ^^^ result) &&& (right ^^^ result)).testBit place := by
  subst rangePower
  have resultBound : result < 2 ^ (place + 1) := by
    rw [sum]
    exact Nat.mod_lt _ (Nat.two_pow_pos _)
  have carryBound := carry.toNat_le
  rw [Nat.testBit_and, Nat.testBit_xor, Nat.testBit_xor, testBit_of_lt leftBound,
    testBit_of_lt rightBound, testBit_of_lt resultBound, xor_decide, xor_decide,
    ← Bool.decide_and]
  unfold overflow signed
  rw [← Bool.decide_or]
  refine decide_eq_decide.mpr ?_
  have wraps :=
    mod_of_lt_two_mul
      (show left + right + carry.toNat < 2 * 2 ^ (place + 1) by omega)
  rw [← sum] at wraps
  clear sum
  rw [Nat.pow_succ'] at *
  generalize 2 ^ place = half at *
  split <;> split <;> push_cast <;> omega

end Sum

section Difference

variable {place width base range left right result : Nat} {borrow : Bool}

/-- A digit is borrowed from if the sum that restores it carries. -/
private theorem lt_iff_le_of_mod (rightBound : right < base)
    (resultBound : result < base)
    (difference : (result + right + borrow.toNat) % base = left) :
    left < right + borrow.toNat ↔ base ≤ result + right + borrow.toNat := by
  have borrowBound := borrow.toNat_le
  have wraps :=
    mod_of_lt_two_mul (show result + right + borrow.toNat < 2 * base by omega)
  rw [difference] at wraps
  have leftBound : left < base := by
    rw [← difference]
    exact Nat.mod_lt _ (by omega)
  omega

/-- The borrows of a difference are the carries of the sum that undoes it. -/
theorem half_of_difference (power : 2 ^ place = base) (rangePower : 2 ^ width = range)
    (within : place < width)
    (difference : (result + right + borrow.toNat) % range = left) :
    decide (left % base < right % base + borrow.toNat) =
      (left ^^^ right ^^^ result).testBit place := by
  have operands : left ^^^ right ^^^ result = result ^^^ right ^^^ left := by
    rw [Nat.xor_comm, Nat.xor_comm left, Nat.xor_assoc]
  have positive : 0 < base := power ▸ Nat.two_pow_pos place
  have divides : base ∣ range := by
    rw [← power, ← rangePower]
    exact Nat.pow_dvd_pow 2 (Nat.le_of_lt within)
  have digits :
      (result % base + right % base + borrow.toNat) % base = left % base := by
    rw [← difference, Nat.mod_mod_of_dvd _ divides, Nat.add_mod,
      ← Nat.add_mod result, ← Nat.add_mod]
  rw [operands, ← half_of_sum power rangePower within difference.symm]
  refine decide_eq_decide.mpr (lt_iff_le_of_mod ?_ ?_ digits)
  · exact Nat.mod_lt _ positive
  · exact Nat.mod_lt _ positive

theorem parity_of_difference (rangePower : 2 ^ (place + 1) = range)
    (rightBound : right < range) (resultBound : result < range)
    (difference : (result + right + borrow.toNat) % range = left) :
    overflow range (signed range left - signed range right - borrow.toNat) =
      ((right ^^^ left) &&& (result ^^^ left)).testBit place := by
  have borrowBound := borrow.toNat_le
  have leftBound : left < range := by
    rw [← difference]
    exact Nat.mod_lt _ (by omega)
  rw [Nat.and_comm,
    ← parity_of_sum rangePower resultBound rightBound difference.symm]
  have wraps :=
    mod_of_lt_two_mul (show result + right + borrow.toNat < 2 * range by omega)
  rw [difference] at wraps
  subst rangePower
  unfold overflow signed
  rw [← Bool.decide_or, ← Bool.decide_or]
  refine decide_eq_decide.mpr ?_
  clear difference
  rw [Nat.pow_succ'] at *
  generalize 2 ^ place = half at *
  split <;> split <;> split <;> omega

end Difference

section Exact

variable {base total left right value : Nat} {carry borrow : Bool}

/-- What is left over is the carry. -/
theorem carry_of_exact (exact : total = value + base * carry.toNat)
    (valueBound : value < base) : carry = decide (base ≤ total) := by
  cases carry with
  | false =>
      rw [Bool.toNat_false] at exact
      exact (decide_eq_false (by omega)).symm
  | true =>
      rw [Bool.toNat_true] at exact
      exact (decide_eq_true (by omega)).symm

variable (exact : left + base * carry.toNat = value + right + borrow.toNat)
include exact

theorem mod_of_exact (leftBound : left < base) :
    (value + right + borrow.toNat) % base = left := by
  rw [← exact, Nat.add_mul_mod_self_left, Nat.mod_eq_of_lt leftBound]

theorem borrow_of_exact (valueBound : value < base) :
    carry = decide (left < right + borrow.toNat) := by
  cases carry with
  | false =>
      rw [Bool.toNat_false] at exact
      exact (decide_eq_false (by omega)).symm
  | true =>
      rw [Bool.toNat_true] at exact
      exact (decide_eq_true (by omega)).symm

end Exact

end Number

/-! ## Bytes -/

namespace Byte

theorem signed_eq_number (byte : UInt8) :
    signed byte = Number.signed 256 byte.toNat := by
  unfold signed Number.signed
  split <;> split <;> omega

end Byte

namespace Word

/-- Whether bit `index` of a word is set. -/
def testBit (word : UInt16) (index : Nat) : Bool :=
  word.toNat.testBit index

theorem signed_eq_number (word : UInt16) :
    signed word = Number.signed 65536 word.toNat := by
  unfold signed Number.signed
  split <;> split <;> omega

/-- What gives the left word again when the right one and the borrow are added is
their difference. -/
theorem sub_sub_eq {left right result : UInt16} {borrow : Bool}
    (sum : (result.toNat + right.toNat + borrow.toNat) % 65536 = left.toNat) :
    left - right - UInt16.ofNat borrow.toNat = result := by
  have rightBound := right.toNat_lt
  have resultBound := result.toNat_lt
  have borrowBound := borrow.toNat_le
  apply UInt16.toNat_inj.mp
  rw [UInt16.toNat_sub, UInt16.toNat_sub, UInt16.toNat_ofNat']
  omega

end Word

namespace Alu

theorem byteOverflow_eq_number (exact : Int) :
    byteOverflow exact = Number.overflow 256 exact := by
  unfold byteOverflow Number.overflow
  congr 1 <;> exact decide_eq_decide.mpr (by omega)

theorem wordOverflow_eq_number (exact : Int) :
    wordOverflow exact = Number.overflow 65536 exact := by
  unfold wordOverflow Number.overflow
  congr 1 <;> exact decide_eq_decide.mpr (by omega)

/-- A sum in 16 bits.  Bit 4 of the result is not the sum of the operands' bits
if a carry comes into it, and the top bit differs from that of both operands if
the signed sum does not fit. -/
def addWide (left right : UInt8) (carry : Bool) : Outcome UInt8 :=
  let wide := left.toUInt16 + right.toUInt16 + UInt16.ofNat carry.toNat
  let result := Word.low wide
  { value := result
    flags :=
      { Flags.ofResult result with
        half := Byte.testBit (left ^^^ right ^^^ result) 4
        parity := Byte.testBit ((left ^^^ result) &&& (right ^^^ result)) 7
        carry := Byte.testBit (Word.high wide) 0 } }

/-- A difference in 16 bits, which wraps if it is below zero. -/
def subWide (left right : UInt8) (borrow : Bool) : Outcome UInt8 :=
  let wide := left.toUInt16 - right.toUInt16 - UInt16.ofNat borrow.toNat
  let result := Word.low wide
  { value := result
    flags :=
      { Flags.ofResult result with
        half := Byte.testBit (left ^^^ right ^^^ result) 4
        parity := Byte.testBit ((right ^^^ left) &&& (result ^^^ left)) 7
        subtract := true
        carry := Byte.testBit (Word.high wide) 0 } }

section Bytes

variable (left right : UInt8)

/-- The sum fits in 16 bits. -/
theorem addWide_exact (carry : Bool) :
    left.toNat + right.toNat + carry.toNat =
      (addWide left right carry).value.toNat +
        256 * (addWide left right carry).flags.carry.toNat := by
  have leftBound := left.toNat_lt
  have rightBound := right.toNat_lt
  have carryBound := carry.toNat_le
  have wide :
      (left.toUInt16 + right.toUInt16 + UInt16.ofNat carry.toNat).toNat =
        left.toNat + right.toNat + carry.toNat := by
    simp only [UInt16.toNat_add, UInt8.toNat_toUInt16, UInt16.toNat_ofNat']
    omega
  simp only [addWide, Byte.testBit, Nat.toNat_testBit, Word.toNat_low,
    Word.toNat_high, wide]
  omega

/-- The difference wraps if it is below zero, and then the high byte is odd. -/
theorem subWide_exact (borrow : Bool) :
    left.toNat + 256 * (subWide left right borrow).flags.carry.toNat =
      (subWide left right borrow).value.toNat + right.toNat + borrow.toNat := by
  have leftBound := left.toNat_lt
  have rightBound := right.toNat_lt
  have borrowBound := borrow.toNat_le
  have wide :
      (left.toUInt16 - right.toUInt16 - UInt16.ofNat borrow.toNat).toNat =
        (left.toNat + 65536 - right.toNat - borrow.toNat) % 65536 := by
    simp only [UInt16.toNat_sub, UInt8.toNat_toUInt16, UInt16.toNat_ofNat']
    omega
  simp only [subWide, Byte.testBit, Nat.toNat_testBit, Word.toNat_low,
    Word.toNat_high, wide]
  omega

section Sum

variable (carry : Bool)

theorem toNat_addWide :
    (addWide left right carry).value.toNat =
      (left.toNat + right.toNat + carry.toNat) % 256 := by
  rw [addWide_exact, Nat.add_mul_mod_self_left]
  exact (Nat.mod_eq_of_lt (UInt8.toNat_lt _)).symm

theorem half_addWide :
    (addWide left right carry).flags.half =
      decide (16 ≤ left.toNat % 16 + right.toNat % 16 + carry.toNat) := by
  have sum := toNat_addWide left right carry
  dsimp only [addWide] at sum ⊢
  rw [Byte.testBit, UInt8.toNat_xor, UInt8.toNat_xor]
  exact
    (Number.half_of_sum (by decide : 2 ^ 4 = 16) (by decide : 2 ^ 8 = 256) (by decide)
      sum).symm

theorem parity_addWide :
    (addWide left right carry).flags.parity =
      byteOverflow (Byte.signed left + Byte.signed right + carry.toNat) := by
  have sum := toNat_addWide left right carry
  dsimp only [addWide] at sum ⊢
  rw [Byte.testBit, UInt8.toNat_and, UInt8.toNat_xor, UInt8.toNat_xor,
    byteOverflow_eq_number, Byte.signed_eq_number, Byte.signed_eq_number]
  exact
    (Number.parity_of_sum (by decide : 2 ^ (7 + 1) = 256) left.toNat_lt right.toNat_lt
      sum).symm

private theorem carry_addWide :
    (addWide left right carry).flags.carry =
      decide (256 ≤ left.toNat + right.toNat + carry.toNat) :=
  Number.carry_of_exact (addWide_exact left right carry) (UInt8.toNat_lt _)

theorem add_eq_addWide : add left right carry = addWide left right carry := by
  have value :
      UInt8.ofNat (left.toNat + right.toNat + carry.toNat) =
        (addWide left right carry).value := by
    rw [← UInt8.toNat_inj, UInt8.toNat_ofNat', toNat_addWide]
  dsimp only [add]
  rw [value, ← half_addWide, ← parity_addWide, ← carry_addWide]
  rfl

end Sum

section Difference

variable (borrow : Bool)

theorem toNat_subWide :
    ((subWide left right borrow).value.toNat + right.toNat + borrow.toNat) % 256 =
      left.toNat :=
  Number.mod_of_exact (subWide_exact left right borrow) left.toNat_lt

theorem half_subWide :
    (subWide left right borrow).flags.half =
      decide (left.toNat % 16 < right.toNat % 16 + borrow.toNat) := by
  have difference := toNat_subWide left right borrow
  dsimp only [subWide] at difference ⊢
  rw [Byte.testBit, UInt8.toNat_xor, UInt8.toNat_xor]
  exact
    (Number.half_of_difference (by decide : 2 ^ 4 = 16) (by decide : 2 ^ 8 = 256)
      (by decide) difference).symm

theorem parity_subWide :
    (subWide left right borrow).flags.parity =
      byteOverflow (Byte.signed left - Byte.signed right - borrow.toNat) := by
  have difference := toNat_subWide left right borrow
  dsimp only [subWide] at difference ⊢
  rw [Byte.testBit, UInt8.toNat_and, UInt8.toNat_xor, UInt8.toNat_xor,
    byteOverflow_eq_number, Byte.signed_eq_number, Byte.signed_eq_number]
  exact
    (Number.parity_of_difference (by decide : 2 ^ (7 + 1) = 256) right.toNat_lt
      (UInt8.toNat_lt _) difference).symm

private theorem carry_subWide :
    (subWide left right borrow).flags.carry =
      decide (left.toNat < right.toNat + borrow.toNat) :=
  Number.borrow_of_exact (subWide_exact left right borrow) (UInt8.toNat_lt _)

theorem sub_eq_subWide : sub left right borrow = subWide left right borrow := by
  have value :
      left - right - UInt8.ofNat borrow.toNat = (subWide left right borrow).value := by
    have difference := toNat_subWide left right borrow
    have rightBound := right.toNat_lt
    have valueBound := (subWide left right borrow).value.toNat_lt
    have borrowBound := borrow.toNat_le
    rw [← UInt8.toNat_inj, UInt8.toNat_sub, UInt8.toNat_sub, UInt8.toNat_ofNat']
    omega
  dsimp only [sub]
  rw [value, ← half_subWide, ← parity_subWide, ← carry_subWide]
  rfl

end Difference

end Bytes

/-! ## Words -/

/-- The flags of a result in 32 bits.  The half carry is the one into bit 12, and
the carry is bit 16. -/
def wideFlags (left right : UInt16) (wide : UInt32) (flags : Flags) : Flags :=
  { flags with
    half := Word.testBit (left ^^^ right ^^^ wide.toUInt16) 12
    carry := wide.toNat.testBit 16 }

def addWordWide (left right : UInt16) (flags : Flags) : Outcome UInt16 :=
  let wide := left.toUInt32 + right.toUInt32
  let result := wide.toUInt16
  { value := result
    flags :=
      wideFlags left right wide
        { flags.withUndocumented (Word.high result) with subtract := false } }

def adcWordWide (left right : UInt16) (carry : Bool) : Outcome UInt16 :=
  let wide := left.toUInt32 + right.toUInt32 + UInt32.ofNat carry.toNat
  let result := wide.toUInt16
  { value := result
    flags :=
      wideFlags left right wide
        { ofWordResult result with
          parity := Word.testBit ((left ^^^ result) &&& (right ^^^ result)) 15 } }

def sbcWordWide (left right : UInt16) (borrow : Bool) : Outcome UInt16 :=
  let wide := left.toUInt32 - right.toUInt32 - UInt32.ofNat borrow.toNat
  let result := wide.toUInt16
  { value := result
    flags :=
      wideFlags left right wide
        { ofWordResult result with
          parity := Word.testBit ((right ^^^ left) &&& (result ^^^ left)) 15
          subtract := true } }

section Words

variable (left right : UInt16)

/-- The sum fits in 32 bits. -/
theorem adcWordWide_exact (carry : Bool) :
    left.toNat + right.toNat + carry.toNat =
      (adcWordWide left right carry).value.toNat +
        65536 * (adcWordWide left right carry).flags.carry.toNat := by
  have leftBound := left.toNat_lt
  have rightBound := right.toNat_lt
  have carryBound := carry.toNat_le
  have wide :
      (left.toUInt32 + right.toUInt32 + UInt32.ofNat carry.toNat).toNat =
        left.toNat + right.toNat + carry.toNat := by
    simp only [UInt32.toNat_add, UInt16.toNat_toUInt32, UInt32.toNat_ofNat']
    omega
  simp only [adcWordWide, wideFlags, Nat.toNat_testBit, UInt32.toNat_toUInt16, wide]
  omega

/-- The difference wraps if it is below zero, and then bit 16 is set. -/
theorem sbcWordWide_exact (borrow : Bool) :
    left.toNat + 65536 * (sbcWordWide left right borrow).flags.carry.toNat =
      (sbcWordWide left right borrow).value.toNat + right.toNat + borrow.toNat := by
  have leftBound := left.toNat_lt
  have rightBound := right.toNat_lt
  have borrowBound := borrow.toNat_le
  have wide :
      (left.toUInt32 - right.toUInt32 - UInt32.ofNat borrow.toNat).toNat =
        (left.toNat + 4294967296 - right.toNat - borrow.toNat) % 4294967296 := by
    simp only [UInt32.toNat_sub, UInt16.toNat_toUInt32, UInt32.toNat_ofNat']
    omega
  simp only [sbcWordWide, wideFlags, Nat.toNat_testBit, UInt32.toNat_toUInt16, wide]
  omega

theorem adcWord_eq_adcWordWide (carry : Bool) :
    adcWord left right carry = adcWordWide left right carry := by
  have exact := adcWordWide_exact left right carry
  have sum :
      (adcWordWide left right carry).value.toNat =
        (left.toNat + right.toNat + carry.toNat) % 65536 := by
    rw [exact, Nat.add_mul_mod_self_left]
    exact (Nat.mod_eq_of_lt (UInt16.toNat_lt _)).symm
  have value :
      UInt16.ofNat (left.toNat + right.toNat + carry.toNat) =
        (adcWordWide left right carry).value := by
    rw [← UInt16.toNat_inj, UInt16.toNat_ofNat', sum]
  have half :=
    Number.half_of_sum (by decide : 2 ^ 12 = 4096) (by decide : 2 ^ 16 = 65536)
      (by decide) sum
  have parity :=
    Number.parity_of_sum (by decide : 2 ^ (15 + 1) = 65536) left.toNat_lt right.toNat_lt
      sum
  have carries := Number.carry_of_exact exact (UInt16.toNat_lt _)
  rw [← Word.signed_eq_number, ← Word.signed_eq_number, ← wordOverflow_eq_number]
    at parity
  dsimp only [adcWord]
  rw [value, half, parity, ← carries]
  rfl

theorem sbcWord_eq_sbcWordWide (borrow : Bool) :
    sbcWord left right borrow = sbcWordWide left right borrow := by
  have exact := sbcWordWide_exact left right borrow
  have difference := Number.mod_of_exact exact left.toNat_lt
  have value :
      left - right - UInt16.ofNat borrow.toNat =
        (sbcWordWide left right borrow).value :=
    Word.sub_sub_eq difference
  have half :=
    Number.half_of_difference (by decide : 2 ^ 12 = 4096) (by decide : 2 ^ 16 = 65536)
      (by decide) difference
  have parity :=
    Number.parity_of_difference (by decide : 2 ^ (15 + 1) = 65536) right.toNat_lt
      (UInt16.toNat_lt _) difference
  have borrows := Number.borrow_of_exact exact (UInt16.toNat_lt _)
  rw [← Word.signed_eq_number, ← Word.signed_eq_number, ← wordOverflow_eq_number]
    at parity
  dsimp only [sbcWord]
  rw [value, half, parity, ← borrows]
  rfl

/-- What a sum shows when the sign, zero and parity bits stay as they are. -/
def keepingSign (flags : Flags) (sum : Outcome UInt16) : Outcome UInt16 :=
  { value := sum.value
    flags :=
      { flags with
        bit5 := sum.flags.bit5
        half := sum.flags.half
        bit3 := sum.flags.bit3
        subtract := false
        carry := sum.flags.carry } }

theorem addWordWide_eq_keepingSign (flags : Flags) :
    addWordWide left right flags =
      keepingSign flags (adcWordWide left right false) := by
  have noCarry :
      left.toUInt32 + right.toUInt32 + UInt32.ofNat false.toNat =
        left.toUInt32 + right.toUInt32 :=
    UInt32.add_zero _
  unfold adcWordWide
  rw [noCarry]
  rfl

/-- Without a carry the circuit does the same and shows less of it. -/
theorem addWord_eq_addWordWide (flags : Flags) :
    addWord left right flags = addWordWide left right flags := by
  rw [addWordWide_eq_keepingSign, ← adcWord_eq_adcWordWide]
  rfl

end Words

end Alu

end Z80
