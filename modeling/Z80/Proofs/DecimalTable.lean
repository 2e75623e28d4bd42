import Z80.Alu.Tables
import Z80.Proofs.CarryBits

/-!
# The decimal correction digit by digit

The decimal correction is defined on the whole accumulator.  A processor looks it
up in a table with an entry for each accumulator and each of the flags that matter.
The table is filled digit by digit, where a digit that wraps below zero borrows
from the one above.

Main statements: `Alu.decimalAdjust_eq_lookUp`, the correction is the one in the
table, and with `Alu.decimalEntry_eq_entryOf`, which tells how the table is filled,
`Alu.decimalAdjust_eq_adjustDigits`.  What the digits become after a sum and after a
difference is in `Alu.adjustDigits_of_sum` and `Alu.adjustDigits_of_difference`.
-/

namespace Z80.Alu

/-- The flags that a decimal correction looks at. -/
def correctionFlags (carry half subtract : Bool) : Flags :=
  { Flags.none with carry := carry, half := half, subtract := subtract }

/-- The flags that a place in the table stands for. -/
def placeFlags (index : Nat) : Flags :=
  correctionFlags (index.testBit 8) (index.testBit 9) (index.testBit 10)

/-! ## The table -/

/-- The entry that a correction has at a place of its table. -/
def entryOf (correction : UInt8 → Flags → Outcome UInt8) (index : Nat) : UInt16 :=
  let outcome := correction (UInt8.ofNat index) (placeFlags index)
  Word.ofBytes outcome.value outcome.flags.toByte

/-- The outcome that an entry stands for. -/
def ofEntry (entry : UInt16) : Outcome UInt8 :=
  { value := Word.high entry
    flags := Flags.ofByte (Word.low entry) }

section Place

variable (accumulator : UInt8) (flags : Flags)

/-- The place of a correction in the table tells the accumulator and the
flags. -/
private theorem ofNat_decimalIndex :
    UInt8.ofNat (decimalIndex accumulator flags) = accumulator := by
  have bound := accumulator.toNat_lt
  apply UInt8.toNat_inj.mp
  rw [UInt8.toNat_ofNat']
  unfold decimalIndex
  omega

private theorem placeFlags_decimalIndex :
    placeFlags (decimalIndex accumulator flags) =
      correctionFlags flags.carry flags.half flags.subtract := by
  have bound := accumulator.toNat_lt
  have carryBound := flags.carry.toNat_le
  have halfBound := flags.half.toNat_le
  have subtractBound := flags.subtract.toNat_le
  unfold placeFlags decimalIndex
  congr 1 <;>
    refine bit_eq_of_toNat_eq ?_ <;>
    rw [Nat.toNat_testBit] <;>
    omega

end Place

/-- Looking a correction up finds what it leaves. -/
private theorem ofEntry_entryOf (correction : UInt8 → Flags → Outcome UInt8)
    (looks : ∀ accumulator flags,
      correction accumulator
          (correctionFlags flags.carry flags.half flags.subtract) =
        correction accumulator flags)
    (accumulator : UInt8) (flags : Flags) :
    ofEntry (entryOf correction (decimalIndex accumulator flags)) =
      correction accumulator flags := by
  unfold ofEntry entryOf
  rw [ofNat_decimalIndex, placeFlags_decimalIndex, looks, Word.high_ofBytes,
    Word.low_ofBytes, Flags.ofByte_toByte]

/-- The correction can be looked up. -/
theorem decimalAdjust_eq_lookUp (accumulator : UInt8) (flags : Flags) :
    decimalAdjust accumulator flags =
      ofEntry (decimalEntry (decimalIndex accumulator flags)) :=
  (ofEntry_entryOf decimalAdjust (fun _ _ => rfl) accumulator flags).symm

/-! ## Single digits -/

/-- Correct the low digit in a byte of its own.  The other part is the half carry
that it leaves. -/
def adjustLow (low : UInt8) (half subtract : Bool) : UInt8 × Bool :=
  if 9 < low || half then
    let moved := if subtract then low - 6 else low + 6
    (if subtract then moved else moved % 16, Byte.testBit moved 4)
  else
    (low, false)

/-- Correct the high digit in a byte of its own.  The other part is the carry that
it leaves. -/
def adjustHigh (high : UInt8) (carry subtract : Bool) : UInt8 × Bool :=
  if 9 < high || carry then
    let moved := if subtract then high - 6 else high + 6
    (moved, carry || if subtract then 9 < high else 16 ≤ moved)
  else
    (high, carry)

/-- Correct the low digit and then the high digit.  What leaves the low digit goes
into the high one, as a carry after a sum and as a borrow when the digits are put
together after a difference. -/
def adjustDigits (accumulator : UInt8) (flags : Flags) : Outcome UInt8 :=
  let low := accumulator % 16
  let high := accumulator / 16
  let correctedLow := adjustLow low flags.half flags.subtract
  let carriedHigh :=
    if correctedLow.2 && !flags.subtract then high + 1 else high
  let carry := flags.carry || (flags.subtract && 9 < low && 9 ≤ high)
  let correctedHigh := adjustHigh carriedHigh carry flags.subtract
  let result := correctedHigh.1 * 16 + correctedLow.1
  { value := result
    flags :=
      { Flags.ofLogical result with
        half := correctedLow.2
        subtract := flags.subtract
        carry := correctedHigh.2 } }

private theorem adjustDigits_correctionFlags (accumulator : UInt8) :
    ∀ carry half subtract : Bool,
      let flags := correctionFlags carry half subtract
      let outcome := decimalAdjust accumulator flags
      let digits := adjustDigits accumulator flags
      outcome.value = digits.value ∧ outcome.flags.half = digits.flags.half ∧
        outcome.flags.carry = digits.flags.carry := by
  revert accumulator
  refine Byte.of_forall_ofNat ?_
  decide +kernel

/-- The outcome of a correction, whose other flags depend on the result alone. -/
def corrected (result : UInt8) (half subtract carry : Bool) : Outcome UInt8 :=
  { value := result
    flags :=
      { Flags.ofLogical result with
        half := half
        subtract := subtract
        carry := carry } }

private theorem decimalAdjust_correctionFlags (accumulator : UInt8)
    (carry half subtract : Bool) :
    let flags := correctionFlags carry half subtract
    decimalAdjust accumulator flags = adjustDigits accumulator flags := by
  intro flags
  obtain ⟨value, half, carry⟩ :=
    adjustDigits_correctionFlags accumulator carry half subtract
  have whole :
      let outcome := decimalAdjust accumulator flags
      outcome =
        corrected outcome.value outcome.flags.half subtract outcome.flags.carry :=
    rfl
  dsimp only at whole
  rw [whole, value, half, carry]
  rfl

/-- The table is filled digit by digit. -/
theorem decimalEntry_eq_entryOf (index : Nat) :
    decimalEntry index = entryOf adjustDigits index := by
  have filled :=
    decimalAdjust_correctionFlags (UInt8.ofNat index) (index.testBit 8)
      (index.testBit 9) (index.testBit 10)
  unfold entryOf placeFlags
  rw [← filled]
  rfl

theorem decimalAdjust_eq_adjustDigits (accumulator : UInt8) (flags : Flags) :
    decimalAdjust accumulator flags = adjustDigits accumulator flags := by
  rw [decimalAdjust_eq_lookUp, decimalEntry_eq_entryOf]
  exact ofEntry_entryOf adjustDigits (fun _ _ => rfl) accumulator flags

/-! ## Sums and differences of digits -/

private theorem digitOff_iff (digit : UInt8) (carry : Bool) :
    (decide (9 < digit) || carry) = true ↔ 9 < digit.toNat ∨ carry.toNat = 1 := by
  rw [Bool.or_eq_true, decide_eq_true_iff, UInt8.lt_iff_toNat_lt, Bool.toNat_eq_one]
  exact Iff.rfl

section Sum

variable {digit : UInt8} {carry : Bool} {sum : Nat}
  (bound : sum < 20) (same : digit.toNat + 16 * carry.toNat = sum)
include bound same

/-- Two decimal digits and a carry add up to less than twenty, so that what is left
above the digit is one carry: it came out of the sum or comes out of the
correction. -/
private theorem adjustLow_of_sum :
    (adjustLow digit carry false).1.toNat = sum % 10 ∧
      carry.toNat + (adjustLow digit carry false).2.toNat = sum / 10 := by
  have carryBound := carry.toNat_le
  have raised : (digit + 6).toNat = (digit.toNat + 6) % 256 := UInt8.toNat_add digit 6
  have within : ((digit + 6) % 16).toNat = (digit + 6).toNat % 16 := UInt8.toNat_mod _ _
  have bit : (Byte.testBit (digit + 6) 4).toNat = (digit + 6).toNat / 2 ^ 4 % 2 :=
    Nat.toNat_testBit _ _
  unfold adjustLow
  by_cases off : (decide (9 < digit) || carry) = true
  · rw [if_pos off]
    simp only [Bool.false_eq_true, if_false]
    obtain above | carried := (digitOff_iff digit carry).mp off
    · have nothing : carry.toNat = 0 := by omega
      omega
    · omega
  · rw [if_neg off]
    rw [digitOff_iff] at off
    simp only [Bool.toNat_false]
    omega

private theorem adjustHigh_of_sum :
    (adjustHigh digit carry false).1.toNat % 16 = sum % 10 ∧
      (adjustHigh digit carry false).2 = decide (10 ≤ sum) := by
  have carryBound := carry.toNat_le
  have raised : (digit + 6).toNat = (digit.toNat + 6) % 256 := UInt8.toNat_add digit 6
  have carried : carry = true ↔ carry.toNat = 1 := Bool.toNat_eq_one.symm
  have fits : 16 ≤ digit + 6 ↔ 16 ≤ (digit + 6).toNat := UInt8.le_iff_toNat_le
  unfold adjustHigh
  by_cases off : (decide (9 < digit) || carry) = true
  · rw [if_pos off]
    simp only [Bool.false_eq_true, if_false]
    rw [digitOff_iff] at off
    rw [Bool.eq_iff_iff, Bool.or_eq_true, decide_eq_true_iff, decide_eq_true_iff, fits,
      carried]
    omega
  · rw [if_neg off]
    rw [digitOff_iff] at off
    rw [Bool.eq_iff_iff, decide_eq_true_iff, carried]
    dsimp only
    omega

end Sum

section Difference

variable {digit : UInt8} {borrow : Bool} {difference : Int}
  (lower : -10 ≤ difference) (upper : difference < 10)
  (within : digit.toNat < 16) (same : digit.toNat = difference + 16 * borrow.toNat)
include lower upper within same

/-- A digit of a difference is out of range if it has borrowed. -/
private theorem adjustLow_of_difference :
    (adjustLow digit borrow true).1.toNat = difference % 10 := by
  have borrowBound := borrow.toNat_le
  have lowered : (digit - 6).toNat = (256 - 6 + digit.toNat) % 256 :=
    UInt8.toNat_sub digit 6
  unfold adjustLow
  by_cases off : (decide (9 < digit) || borrow) = true
  · rw [if_pos off]
    simp only [if_true]
    obtain above | borrowed := (digitOff_iff digit borrow).mp off
    · omega
    · omega
  · rw [if_neg off]
    rw [digitOff_iff] at off
    dsimp only
    omega

private theorem adjustHigh_of_difference :
    (adjustHigh digit borrow true).1.toNat = difference % 10 ∧
      (adjustHigh digit borrow true).2 = borrow := by
  have borrowBound := borrow.toNat_le
  have lowered : (digit - 6).toNat = (256 - 6 + digit.toNat) % 256 :=
    UInt8.toNat_sub digit 6
  have nine : 9 < digit ↔ 9 < digit.toNat := UInt8.lt_iff_toNat_lt
  have borrowed : borrow = true ↔ borrow.toNat = 1 := Bool.toNat_eq_one.symm
  unfold adjustHigh
  by_cases off : (decide (9 < digit) || borrow) = true
  · rw [if_pos off]
    simp only [if_true]
    rw [Bool.eq_iff_iff, Bool.or_eq_true, decide_eq_true_iff, nine, borrowed]
    obtain above | borrowed := (digitOff_iff digit borrow).mp off
    · omega
    · omega
  · rw [if_neg off]
    rw [digitOff_iff] at off
    refine ⟨?_, rfl⟩
    dsimp only
    omega

end Difference

section Digits

variable {accumulator : UInt8} {flags : Flags}

/-- The value of a byte put together from its digits. -/
private theorem toNat_ofDigits {high low : UInt8} {value : Nat}
    (lowBound : low.toNat < 16) (same : high.toNat % 16 = value) :
    (high * 16 + low).toNat = value * 16 + low.toNat := by
  have raised : (high * 16).toNat = high.toNat * 16 % 256 := UInt8.toNat_mul high 16
  rw [UInt8.toNat_add, raised]
  omega

/-- After a sum of decimal digits, the corrected digits are those of the decimal
sum. -/
theorem adjustDigits_of_sum {low high : Nat} (adds : flags.subtract = false)
    (lowBound : low < 20) (highBound : high + low / 10 < 20)
    (lowSame : accumulator.toNat % 16 + 16 * flags.half.toNat = low)
    (highSame :
      accumulator.toNat / 16 + 16 * flags.carry.toNat = high + flags.half.toNat) :
    let outcome := adjustDigits accumulator flags
    outcome.value.toNat = (high + low / 10) % 10 * 16 + low % 10 ∧
      outcome.flags.carry = decide (10 ≤ high + low / 10) := by
  have lowDigit : (accumulator % 16).toNat = accumulator.toNat % 16 :=
    UInt8.toNat_mod accumulator 16
  have highDigit : (accumulator / 16).toNat = accumulator.toNat / 16 :=
    UInt8.toNat_div accumulator 16
  rw [← lowDigit] at lowSame
  obtain ⟨lowValue, lowCarry⟩ := adjustLow_of_sum lowBound lowSame
  simp only [adjustDigits, adds, Bool.not_false, Bool.and_true, Bool.false_and,
    Bool.or_false]
  generalize adjustLow (accumulator % 16) flags.half false = correctedLow
    at lowValue lowCarry ⊢
  have carriedHigh :
      (if correctedLow.2 then accumulator / 16 + 1 else accumulator / 16).toNat +
          16 * flags.carry.toNat =
        high + low / 10 := by
    have raised : (accumulator / 16 + 1).toNat = ((accumulator / 16).toNat + 1) % 256 :=
      UInt8.toNat_add _ 1
    have bound := accumulator.toNat_lt
    cases carried : correctedLow.2 with
    | false =>
        rw [carried, Bool.toNat_false] at lowCarry
        rw [if_neg Bool.false_ne_true]
        omega
    | true =>
        rw [carried, Bool.toNat_true] at lowCarry
        rw [if_pos rfl]
        omega
  obtain ⟨highValue, carries⟩ := adjustHigh_of_sum highBound carriedHigh
  refine ⟨?_, carries⟩
  rw [toNat_ofDigits (by omega) highValue, lowValue]

/-- After a difference of decimal digits, a digit that has borrowed gets a ten. -/
theorem adjustDigits_of_difference {low high : Int} (subtracts : flags.subtract = true)
    (lowLower : -10 ≤ low) (lowUpper : low < 10)
    (highLower : -9 ≤ high) (highUpper : high < 10)
    (lowSame : (accumulator.toNat : Int) % 16 = low + 16 * flags.half.toNat)
    (highSame :
      (accumulator.toNat : Int) / 16 =
        high - flags.half.toNat + 16 * flags.carry.toNat) :
    let outcome := adjustDigits accumulator flags
    (outcome.value.toNat : Int) =
        (high - flags.half.toNat) % 10 * 16 + low % 10 ∧
      outcome.flags.carry = flags.carry := by
  have lowDigit : (accumulator % 16).toNat = accumulator.toNat % 16 :=
    UInt8.toNat_mod accumulator 16
  have highDigit : (accumulator / 16).toNat = accumulator.toNat / 16 :=
    UInt8.toNat_div accumulator 16
  have bound := accumulator.toNat_lt
  have halfBound := flags.half.toNat_le
  have lowValue :=
    adjustLow_of_difference lowLower lowUpper
      (show (accumulator % 16).toNat < 16 by omega)
      (show ((accumulator % 16).toNat : Int) = low + 16 * flags.half.toNat by omega)
  have highOutcome :=
    adjustHigh_of_difference
      (show -10 ≤ high - flags.half.toNat by omega)
      (show high - flags.half.toNat < 10 by omega)
      (show (accumulator / 16).toNat < 16 by omega)
      (show ((accumulator / 16).toNat : Int) =
        high - flags.half.toNat + 16 * flags.carry.toNat by omega)
  obtain ⟨highValue, borrows⟩ := highOutcome
  -- If the low digit has borrowed, the high one is below nine unless it has as well.
  have noCarry :
      (flags.carry ||
          (decide (9 < accumulator % 16) && decide (9 ≤ accumulator / 16))) =
        flags.carry := by
    cases carried : flags.carry with
    | true => exact Bool.true_or _
    | false =>
        rw [carried, Bool.toNat_false] at highSame
        rw [Bool.false_or, Bool.and_eq_false_imp]
        intro above
        have off : 9 < (accumulator % 16).toNat :=
          UInt8.lt_iff_toNat_lt.mp (of_decide_eq_true above)
        refine decide_eq_false fun nine => ?_
        have reached : 9 ≤ (accumulator / 16).toNat := UInt8.le_iff_toNat_le.mp nine
        omega
  simp only [adjustDigits, subtracts, Bool.not_true, Bool.and_false, Bool.true_and,
    Bool.false_eq_true, if_false, noCarry]
  refine ⟨?_, borrows⟩
  rw [toNat_ofDigits (by omega) (Nat.mod_eq_of_lt (by omega))]
  omega

end Digits

end Z80.Alu
