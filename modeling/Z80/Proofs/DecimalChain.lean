import Z80.Proofs.BinaryChain
import Z80.Proofs.DecimalTable

/-!
# Sums and differences of decimal numbers

A byte that holds two decimal digits is a digit to the base of a hundred.  `ADC`
or `SBC` works on such bytes as on any others, and `DAA` makes two decimal digits
of the result again, with the carry that a sum or difference of decimal numbers
has.

Main statement: `ArithmeticOp.isDecimalSum_and_isDecimalDifference`, for numbers
of any length.
-/

namespace Z80

namespace Decimal

/-- The number below a hundred that the two halves of a byte spell. -/
def ofByte (byte : UInt8) : Nat :=
  byte.toNat / 16 * 10 + byte.toNat % 16

/-- Both halves of a byte are decimal digits. -/
def IsPacked (byte : UInt8) : Prop :=
  byte.toNat / 16 ≤ 9 ∧ byte.toNat % 16 ≤ 9

instance (byte : UInt8) : Decidable (IsPacked byte) :=
  inferInstanceAs (Decidable (_ ∧ _))

/-- The number that bytes of two decimal digits stand for, the lowest ones
first. -/
def value (bytes : List UInt8) : Nat :=
  Nat.ofDigits 100 (bytes.map ofByte)

private theorem ofByte_lt {byte : UInt8} (packed : IsPacked byte) :
    ofByte byte < 100 := by
  obtain ⟨high, low⟩ := packed
  unfold ofByte
  omega

theorem value_lt {bytes : List UInt8} (packed : ∀ byte ∈ bytes, IsPacked byte) :
    value bytes < 100 ^ bytes.length := by
  have bound : ∀ digit ∈ bytes.map ofByte, digit < 100 := by
    intro digit member
    obtain ⟨byte, inside, rfl⟩ := List.mem_map.mp member
    exact ofByte_lt (packed byte inside)
  have fits := Nat.ofDigits_lt_base_pow_length (by omega) bound
  rw [List.length_map] at fits
  exact fits

end Decimal

/-! ## One step -/

namespace Alu

private theorem toNat_decide_cases (condition : Prop) [Decidable condition] :
    condition ∧ (decide condition).toNat = 1 ∨
      ¬ condition ∧ (decide condition).toNat = 0 := by
  by_cases holds : condition
  · exact .inl ⟨holds, by rw [decide_eq_true holds]; rfl⟩
  · exact .inr ⟨holds, by rw [decide_eq_false holds]; rfl⟩

section Step

variable {left right : UInt8} (carry : Bool)
  (leftPacked : Decimal.IsPacked left) (rightPacked : Decimal.IsPacked right)
include leftPacked rightPacked

/-- The corrected sum has two decimal digits, and with its carry it is the
decimal sum. -/
theorem decimalAdjust_add :
    let sum := add left right carry
    let outcome := decimalAdjust sum.value sum.flags
    Decimal.IsPacked outcome.value ∧
      Decimal.ofByte left + Decimal.ofByte right + carry.toNat =
        Decimal.ofByte outcome.value + 100 * outcome.flags.carry.toNat := by
  have carryBound := carry.toNat_le
  have total := addWide_exact left right carry
  have half := half_addWide left right carry
  have adds : (addWide left right carry).flags.subtract = false := rfl
  dsimp only
  rw [add_eq_addWide, decimalAdjust_eq_adjustDigits]
  generalize addWide left right carry = sum at total half adds ⊢
  have valueBound := sum.value.toNat_lt
  have halfCases :=
    toNat_decide_cases (16 ≤ left.toNat % 16 + right.toNat % 16 + carry.toNat)
  rw [← half] at halfCases
  obtain ⟨leftHigh, leftLow⟩ := leftPacked
  obtain ⟨rightHigh, rightLow⟩ := rightPacked
  have lowSame :
      sum.value.toNat % 16 + 16 * sum.flags.half.toNat =
        left.toNat % 16 + right.toNat % 16 + carry.toNat := by
    omega
  have highSame :
      sum.value.toNat / 16 + 16 * sum.flags.carry.toNat =
        left.toNat / 16 + right.toNat / 16 + sum.flags.half.toNat := by
    omega
  obtain ⟨value, carries⟩ :=
    adjustDigits_of_sum adds (by omega) (by omega) lowSame highSame
  have carryCases :=
    toNat_decide_cases
      (10 ≤
        left.toNat / 16 + right.toNat / 16 +
          (left.toNat % 16 + right.toNat % 16 + carry.toNat) / 10)
  rw [← carries] at carryCases
  unfold Decimal.IsPacked Decimal.ofByte
  omega

/-- The corrected difference has two decimal digits, and with its borrow it is
the decimal difference. -/
theorem decimalAdjust_sub :
    let difference := sub left right carry
    let outcome := decimalAdjust difference.value difference.flags
    Decimal.IsPacked outcome.value ∧
      Decimal.ofByte left + 100 * outcome.flags.carry.toNat =
        Decimal.ofByte outcome.value + (Decimal.ofByte right + carry.toNat) := by
  have carryBound := carry.toNat_le
  have leftBound := left.toNat_lt
  have rest := subWide_exact left right carry
  have half := half_subWide left right carry
  have subtracts : (subWide left right carry).flags.subtract = true := rfl
  dsimp only
  rw [sub_eq_subWide, decimalAdjust_eq_adjustDigits]
  generalize subWide left right carry = difference at rest half subtracts ⊢
  have valueBound := difference.value.toNat_lt
  have halfCases :=
    toNat_decide_cases (left.toNat % 16 < right.toNat % 16 + carry.toNat)
  rw [← half] at halfCases
  obtain ⟨leftHigh, leftLow⟩ := leftPacked
  obtain ⟨rightHigh, rightLow⟩ := rightPacked
  have lowSame :
      (difference.value.toNat : Int) % 16 =
        left.toNat % 16 - right.toNat % 16 - carry.toNat +
          16 * difference.flags.half.toNat := by
    omega
  have highSame :
      (difference.value.toNat : Int) / 16 =
        left.toNat / 16 - right.toNat / 16 - difference.flags.half.toNat +
          16 * difference.flags.carry.toNat := by
    omega
  obtain ⟨value, borrows⟩ :=
    adjustDigits_of_difference subtracts (by omega) (by omega) (by omega) (by omega)
      lowSame highSame
  rw [borrows]
  unfold Decimal.IsPacked Decimal.ofByte
  omega

end Step

end Alu

namespace ArithmeticOp

/-- An operation of the accumulator, and then `DAA`. -/
def applyDecimal (op : ArithmeticOp) (accumulator operand : UInt8)
    (flags : Flags) : Outcome UInt8 :=
  let binary := op.apply accumulator operand flags
  Alu.decimalAdjust binary.value binary.flags

/-- An operation of the accumulator and `DAA` on the bytes of two decimal
numbers, from the lowest ones up. -/
def decimalChain (op : ArithmeticOp) (flags : Flags) (left right : List UInt8) :
    List (Outcome UInt8) :=
  Outcome.chain flags (left.zipWith op.applyDecimal right)

section Step

variable (subtract : Bool) {left right : UInt8} (flags : Flags)
  (leftPacked : Decimal.IsPacked left) (rightPacked : Decimal.IsPacked right)
include leftPacked rightPacked

private theorem isPacked_applyDecimal :
    Decimal.IsPacked
      ((carrying subtract).applyDecimal left right flags).value := by
  cases subtract with
  | false => exact (Alu.decimalAdjust_add flags.carry leftPacked rightPacked).1
  | true => exact (Alu.decimalAdjust_sub flags.carry leftPacked rightPacked).1

/-- Nothing is lost: what does not fit into two digits is the carry. -/
theorem applyDecimal_exact :
    let outcome := (carrying subtract).applyDecimal left right flags
    exactly subtract (Decimal.ofByte left) (Decimal.ofByte right) flags.carry =
      Decimal.ofByte outcome.value +
        (100 : Nat) * exactly subtract 0 0 outcome.flags.carry := by
  cases subtract with
  | false =>
      have sum := (Alu.decimalAdjust_add flags.carry leftPacked rightPacked).2
      simp only [exactly, carrying, applyDecimal, apply]
      omega
  | true =>
      have difference :=
        (Alu.decimalAdjust_sub flags.carry leftPacked rightPacked).2
      simp only [exactly, carrying, applyDecimal, apply]
      omega

end Step

/-! ## Chains -/

section Chain

variable (subtract : Bool) {left right : List UInt8} (flags : Flags)

theorem length_decimalChain (op : ArithmeticOp)
    (sameLength : left.length = right.length) :
    (op.decimalChain flags left right).length = left.length := by
  unfold decimalChain
  rw [Outcome.length_chain, List.length_zipWith, ← sameLength, Nat.min_self]

variable (leftPacked : ∀ byte ∈ left, Decimal.IsPacked byte)
  (rightPacked : ∀ byte ∈ right, Decimal.IsPacked byte)
include leftPacked rightPacked

/-- Every byte of a chain has two decimal digits. -/
theorem isPacked_of_mem_decimalChain :
    ∀ byte ∈ Outcome.values ((carrying subtract).decimalChain flags left right),
      Decimal.IsPacked byte := by
  induction left generalizing right flags with
  | nil => exact fun _ member => nomatch member
  | cons left leftRest inductionHypothesis =>
      cases right with
      | nil => exact fun _ member => nomatch member
      | cons right rightRest =>
          obtain ⟨leftHere, leftPacked⟩ := List.forall_mem_cons.mp leftPacked
          obtain ⟨rightHere, rightPacked⟩ := List.forall_mem_cons.mp rightPacked
          refine List.forall_mem_cons.mpr ⟨?_, ?_⟩
          · exact isPacked_applyDecimal subtract flags leftHere rightHere
          · exact inductionHypothesis _ leftPacked rightPacked

variable (sameLength : left.length = right.length)
include sameLength

private theorem decimalChain_exact :
    let outcomes := (carrying subtract).decimalChain flags left right
    exactly subtract (Decimal.value left) (Decimal.value right) flags.carry =
      Decimal.value (Outcome.values outcomes) +
        (100 ^ left.length : Nat) *
          exactly subtract 0 0 (Outcome.lastFlags flags outcomes).carry := by
  refine Outcome.chain_exactly ?_ flags sameLength leftPacked rightPacked
  intro left right flags leftPacked rightPacked
  exact applyDecimal_exact subtract flags leftPacked rightPacked

private theorem values_decimalChain_lt :
    Decimal.value
        (Outcome.values ((carrying subtract).decimalChain flags left right)) <
      100 ^ left.length := by
  have fits :=
    Decimal.value_lt
      (isPacked_of_mem_decimalChain subtract flags leftPacked rightPacked)
  rw [Outcome.length_values, length_decimalChain flags _ sameLength] at fits
  exact fits

/-- What a chain leaves is the exact result modulo what the digits can hold, and
a carry if that is not the exact result. -/
theorem decimalChain_result :
    let exact :=
      exactly subtract (Decimal.value left) (Decimal.value right) flags.carry
    let outcomes := (carrying subtract).decimalChain flags left right
    (Decimal.value (Outcome.values outcomes) : Int) =
        exact % (100 ^ left.length : Nat) ∧
      (Outcome.lastFlags flags outcomes).carry =
        decide (exact < 0 ∨ (100 ^ left.length : Nat) ≤ exact) := by
  have kept := decimalChain_exact subtract flags leftPacked rightPacked sameLength
  have fits :=
    values_decimalChain_lt subtract flags leftPacked rightPacked sameLength
  exact ⟨value_of_exactly kept fits, carry_of_exactly kept fits⟩

end Chain

/-! ## Results -/

/-- What is left when two decimal numbers and a carry are added: the sum modulo
what the digits can hold, in valid digits, with a carry if that is not the
sum. -/
structure IsDecimalSum (left right : List UInt8) (flags : Flags)
    (outcomes : List (Outcome UInt8)) : Prop where
  length : outcomes.length = left.length
  packed : ∀ byte ∈ Outcome.values outcomes, Decimal.IsPacked byte
  value :
    Decimal.value (Outcome.values outcomes) =
      (Decimal.value left + Decimal.value right + flags.carry.toNat) %
        100 ^ left.length
  carry :
    (Outcome.lastFlags flags outcomes).carry =
      decide
        (100 ^ left.length ≤
          Decimal.value left + Decimal.value right + flags.carry.toNat)

/-- What is left when a decimal number and a borrow are subtracted from
another: the difference modulo what the digits can hold, in valid digits, with
a borrow if it is below zero. -/
structure IsDecimalDifference (left right : List UInt8) (flags : Flags)
    (outcomes : List (Outcome UInt8)) : Prop where
  length : outcomes.length = left.length
  packed : ∀ byte ∈ Outcome.values outcomes, Decimal.IsPacked byte
  value :
    (Decimal.value (Outcome.values outcomes) : Int) =
      (Decimal.value left - Decimal.value right - flags.carry.toNat : Int) %
        (100 ^ left.length : Nat)
  borrow :
    (Outcome.lastFlags flags outcomes).carry =
      decide (Decimal.value left < Decimal.value right + flags.carry.toNat)

/-- Two decimal numbers of as many bytes are added by `ADC` and `DAA` and
subtracted by `SBC` and `DAA`, from the lowest bytes up.  The correction tells a
sum from a difference by a bit that it never changes. -/
theorem isDecimalSum_and_isDecimalDifference (left right : List UInt8)
    (flags : Flags) (sameLength : left.length = right.length)
    (leftPacked : ∀ byte ∈ left, Decimal.IsPacked byte)
    (rightPacked : ∀ byte ∈ right, Decimal.IsPacked byte) :
    IsDecimalSum left right flags (adc.decimalChain flags left right) ∧
      IsDecimalDifference left right flags (sbc.decimalChain flags left right) ∧
      ∀ accumulator found,
        (Alu.decimalAdjust accumulator found).flags.subtract = found.subtract := by
  obtain ⟨sum, carry⟩ :=
    decimalChain_result false flags leftPacked rightPacked sameLength
  obtain ⟨difference, borrow⟩ :=
    decimalChain_result true flags leftPacked rightPacked sameLength
  have leftFits := Decimal.value_lt leftPacked
  simp only [exactly] at sum carry difference borrow
  refine ⟨?_, ?_, fun accumulator found => rfl⟩
  · refine ⟨length_decimalChain flags adc sameLength,
      isPacked_of_mem_decimalChain false flags leftPacked rightPacked, ?_, ?_⟩
    · exact_mod_cast sum
    · exact carry.trans (decide_eq_decide.mpr (by omega))
  · refine ⟨length_decimalChain flags sbc sameLength,
      isPacked_of_mem_decimalChain true flags leftPacked rightPacked, difference,
      ?_⟩
    exact borrow.trans (decide_eq_decide.mpr (by omega))

/-- A carry through all digits of a sum, and a borrow through all digits of a
difference. -/
theorem isDecimalSum_and_isDecimalDifference_twoBytes :
    let flags := { Flags.none with carry := true }
    let sum := adc.decimalChain flags [0x58, 0x99] [0x41, 0x00]
    let difference := sbc.decimalChain flags [0x00, 0x10] [0x00, 0x10]
    (∀ byte ∈ [0x58, 0x99, 0x41, 0x00, 0x10], Decimal.IsPacked byte) ∧
      Decimal.value (Outcome.values sum) = 0 ∧
      (Outcome.lastFlags flags sum).carry = true ∧
      Decimal.value (Outcome.values difference) = 9999 ∧
      (Outcome.lastFlags flags difference).carry = true := by
  have added :=
    (isDecimalSum_and_isDecimalDifference [0x58, 0x99] [0x41, 0x00]
      { Flags.none with carry := true } rfl (by simp [Decimal.IsPacked])
      (by simp [Decimal.IsPacked])).1
  have subtracted :=
    (isDecimalSum_and_isDecimalDifference [0x00, 0x10] [0x00, 0x10]
      { Flags.none with carry := true } rfl (by simp [Decimal.IsPacked])
      (by simp [Decimal.IsPacked])).2.1
  refine ⟨by simp [Decimal.IsPacked], ?_, ?_, ?_, ?_⟩
  · rw [added.value]
    decide
  · rw [added.carry]
    decide
  · exact Int.natCast_inj.mp (subtracted.value.trans (by decide))
  · rw [subtracted.borrow]
    decide

end ArithmeticOp

end Z80
