import Mathlib.Tactic.LinearCombination
import Z80.Proofs.CarryBits
import Z80.Proofs.Chain

/-!
# Sums and differences of several bytes

A chain of `ADC` adds two numbers of several bytes, and a chain of `SBC`
subtracts one from the other.  What a chain keeps is an exact equation: the
bytes so far and the carry that is left make up the exact result of the bytes so
far.

Main statement: `ArithmeticOp.isSum_and_isDifference`, for numbers of any length.
-/

namespace Z80

/-- An exact sum or, when subtracting, an exact difference. -/
def exactly (subtract : Bool) (left right : Int) (carry : Bool) : Int :=
  match subtract with
  | false => left + right + carry.toNat
  | true => left - right - carry.toNat

private theorem exactly_nothing (subtract carry : Bool) :
    exactly subtract (0 : Nat) (0 : Nat) carry =
      (0 : Nat) + (1 : Nat) * exactly subtract 0 0 carry := by
  rw [Int.natCast_one, Int.one_mul]
  exact (Int.zero_add _).symm

/-- If the lowest digits leave a carry, it goes into the result of the
others. -/
theorem exactly_digits {base : Int} {subtract carry carried : Bool}
    {left right digit : Int}
    (lowest :
      exactly subtract left right carry =
        digit + base * exactly subtract 0 0 carried)
    (leftRest rightRest : Int) :
    exactly subtract (left + base * leftRest) (right + base * rightRest) carry =
      digit + base * exactly subtract leftRest rightRest carried := by
  cases subtract with
  | false =>
      simp only [exactly] at lowest ⊢
      linear_combination lowest
  | true =>
      simp only [exactly] at lowest ⊢
      linear_combination lowest

/-- If no operation of a chain loses anything of its digits, then the chain loses
nothing of the numbers, whatever the base. -/
theorem Outcome.chain_exactly {base : Nat} {digit : UInt8 → Nat}
    {operation : UInt8 → UInt8 → Flags → Outcome UInt8} {isDigit : UInt8 → Prop}
    {subtract : Bool}
    (step : ∀ left right flags, isDigit left → isDigit right →
      exactly subtract (digit left) (digit right) flags.carry =
        digit (operation left right flags).value +
          base * exactly subtract 0 0 (operation left right flags).flags.carry)
    {left right : List UInt8} (flags : Flags)
    (sameLength : left.length = right.length)
    (leftDigits : ∀ byte ∈ left, isDigit byte)
    (rightDigits : ∀ byte ∈ right, isDigit byte) :
    let outcomes := chain flags (left.zipWith operation right)
    exactly subtract (Nat.ofDigits base (left.map digit) : Nat)
        (Nat.ofDigits base (right.map digit) : Nat) flags.carry =
      (Nat.ofDigits base ((values outcomes).map digit) : Nat) +
        (base ^ left.length : Nat) *
          exactly subtract 0 0 (lastFlags flags outcomes).carry := by
  induction left generalizing right flags with
  | nil =>
      obtain rfl := List.eq_nil_of_length_eq_zero sameLength.symm
      exact exactly_nothing subtract flags.carry
  | cons left leftRest inductionHypothesis =>
      cases right with
      | nil => contradiction
      | cons right rightRest =>
          obtain ⟨leftDigit, leftDigits⟩ := List.forall_mem_cons.mp leftDigits
          obtain ⟨rightDigit, rightDigits⟩ := List.forall_mem_cons.mp rightDigits
          have lowest := step left right flags leftDigit rightDigit
          have rest :=
            inductionHypothesis (operation left right flags).flags
              (Nat.succ.inj sameLength) leftDigits rightDigits
          simp only [List.map_cons, List.zipWith_cons_cons, chain, values_cons,
            lastFlags_cons, Nat.ofDigits_cons, List.length_cons,
            Nat.pow_succ'] at rest ⊢
          push_cast at rest ⊢
          rw [exactly_digits lowest, rest]
          ring

section Exact

variable {modulus value : Nat} {exact : Int} {subtract carry : Bool}
  (kept : exact = value + modulus * exactly subtract 0 0 carry)
  (fits : value < modulus)
include kept fits

/-- What fits is the exact result modulo what can be held. -/
theorem value_of_exactly : (value : Int) = exact % modulus := by
  rw [kept, Int.add_mul_emod_self_left]
  exact (Int.emod_eq_of_lt (by omega) (by omega)).symm

/-- What is carried tells that the exact result lies outside the numbers that
can be held. -/
theorem carry_of_exactly : carry = decide (exact < 0 ∨ modulus ≤ exact) := by
  rw [kept]
  cases carry with
  | false =>
      refine (decide_eq_false ?_).symm
      have nothing : exactly subtract 0 0 false = 0 := by
        cases subtract <;> rfl
      rw [nothing]
      omega
  | true =>
      refine (decide_eq_true ?_).symm
      cases subtract with
      | false =>
          have above : exactly false 0 0 true = 1 := rfl
          rw [above]
          omega
      | true =>
          have below : exactly true 0 0 true = -1 := rfl
          rw [below]
          omega

end Exact

namespace ArithmeticOp

/-- `ADC` or, when subtracting, `SBC`. -/
def carrying (subtract : Bool) : ArithmeticOp :=
  match subtract with
  | false => .adc
  | true => .sbc

/-- An operation of the accumulator on the bytes of two numbers, from the lowest
ones up. -/
def chain (op : ArithmeticOp) (flags : Flags) (left right : List UInt8) :
    List (Outcome UInt8) :=
  Outcome.chain flags (left.zipWith op.apply right)

/-! ## One step -/

section Step

variable (subtract : Bool) (left right : UInt8) (flags : Flags)

/-- The circuit that finds the result and the carries. -/
theorem apply_eq_wide :
    (carrying subtract).apply left right flags =
      match subtract with
      | false => Alu.addWide left right flags.carry
      | true => Alu.subWide left right flags.carry := by
  cases subtract with
  | false => exact Alu.add_eq_addWide left right flags.carry
  | true => exact Alu.sub_eq_subWide left right flags.carry

/-- Nothing is lost: what does not fit into the byte is the carry. -/
theorem apply_exact :
    let outcome := (carrying subtract).apply left right flags
    exactly subtract left.toNat right.toNat flags.carry =
      outcome.value.toNat + 256 * exactly subtract 0 0 outcome.flags.carry := by
  dsimp only
  rw [apply_eq_wide]
  cases subtract with
  | false =>
      have sum := Alu.addWide_exact left right flags.carry
      simp only [exactly]
      omega
  | true =>
      have difference := Alu.subWide_exact left right flags.carry
      simp only [exactly]
      omega

theorem apply_sign :
    let outcome := (carrying subtract).apply left right flags
    outcome.flags.sign = decide (Byte.signed outcome.value < 0) := by
  dsimp only
  rw [Bool.eq_iff_iff, decide_eq_true_iff, Byte.signed_lt_zero_iff]
  cases subtract <;> exact Iff.rfl

theorem apply_parity :
    ((carrying subtract).apply left right flags).flags.parity =
      Bytes.overflow 1
        (exactly subtract (Byte.signed left) (Byte.signed right) flags.carry) := by
  rw [apply_eq_wide]
  cases subtract with
  | false =>
      exact (Alu.parity_addWide left right flags.carry).trans
        (Alu.byteOverflow_eq_number _)
  | true =>
      exact (Alu.parity_subWide left right flags.carry).trans
        (Alu.byteOverflow_eq_number _)

/-- A result that does not fit has the opposite sign. -/
theorem signed_xor_overflow {byte : UInt8} {exact : Int}
    (kept : exact % 256 = byte.toNat) (lower : -256 ≤ exact)
    (upper : exact < 256) :
    (decide (Byte.signed byte < 0) ^^ Bytes.overflow 1 exact) =
      decide (exact < 0) := by
  obtain ⟨byteLower, byteUpper, byteSame⟩ := Byte.signed_range byte
  have overflow : Bytes.overflow 1 exact = decide (exact < -128 ∨ 128 ≤ exact) := by
    unfold Bytes.overflow
    rw [Bool.decide_or]
    congr 1 <;> exact decide_eq_decide.mpr (by omega)
  rw [overflow, Bool.eq_iff_iff, Bool.xor_iff_ne, ne_eq, decide_eq_decide,
    decide_eq_true_iff]
  omega

/-- The sign and the parity bit together tell the sign of the exact signed
result, whether it fits or not. -/
theorem apply_order :
    let outcome := (carrying subtract).apply left right flags
    (outcome.flags.sign ^^ outcome.flags.parity) =
      decide
        (exactly subtract (Byte.signed left) (Byte.signed right) flags.carry < 0) := by
  have kept := apply_exact subtract left right flags
  dsimp only at kept ⊢
  rw [apply_sign, apply_parity]
  generalize (carrying subtract).apply left right flags = outcome at kept ⊢
  obtain ⟨leftLower, leftUpper, leftSame⟩ := Byte.signed_range left
  obtain ⟨rightLower, rightUpper, rightSame⟩ := Byte.signed_range right
  have carryBound := flags.carry.toNat_le
  have resultBound := outcome.value.toNat_lt
  cases subtract with
  | false =>
      simp only [exactly] at kept ⊢
      exact signed_xor_overflow (by omega) (by omega) (by omega)
  | true =>
      simp only [exactly] at kept ⊢
      exact signed_xor_overflow (by omega) (by omega) (by omega)

/-- The flags that show the result byte, and the half carry that comes out of
bit 3. -/
structure Shows (incoming : Bool) (outcome : Outcome UInt8) : Prop where
  half :
    outcome.flags.half =
      match subtract with
      | false =>
          decide (16 ≤ left.toNat % 16 + right.toNat % 16 + incoming.toNat)
      | true =>
          decide (left.toNat % 16 < right.toNat % 16 + incoming.toNat)
  zero : outcome.flags.zero = (outcome.value == 0)
  bit5 : outcome.flags.bit5 = Byte.testBit outcome.value 5
  bit3 : outcome.flags.bit3 = Byte.testBit outcome.value 3
  subtract : outcome.flags.subtract = subtract

private theorem apply_shows :
    Shows subtract left right flags.carry
      ((carrying subtract).apply left right flags) := by
  rw [apply_eq_wide]
  cases subtract with
  | false => exact ⟨Alu.half_addWide left right flags.carry, rfl, rfl, rfl, rfl⟩
  | true => exact ⟨Alu.half_subWide left right flags.carry, rfl, rfl, rfl, rfl⟩

end Step

/-! ## Chains -/

private theorem chain_cons (op : ArithmeticOp) (flags : Flags) (left right : UInt8)
    (leftRest rightRest : List UInt8) :
    op.chain flags (left :: leftRest) (right :: rightRest) =
      op.apply left right flags ::
        op.chain (op.apply left right flags).flags leftRest rightRest :=
  rfl

theorem length_chain (op : ArithmeticOp) (flags : Flags)
    {left right : List UInt8} (sameLength : left.length = right.length) :
    (op.chain flags left right).length = left.length := by
  unfold chain
  rw [Outcome.length_chain, List.length_zipWith, ← sameLength, Nat.min_self]

theorem values_chain_lt (op : ArithmeticOp) (flags : Flags)
    {left right : List UInt8} (sameLength : left.length = right.length) :
    Bytes.value (Outcome.values (op.chain flags left right)) <
      256 ^ left.length := by
  have fits := Bytes.value_lt (Outcome.values (op.chain flags left right))
  rw [Outcome.length_values, length_chain op flags sameLength] at fits
  exact fits

section Chain

variable (subtract : Bool) {left right : List UInt8} (flags : Flags)

/-- The bytes of a chain and the carry that it leaves make up the exact
result. -/
theorem chain_exact (sameLength : left.length = right.length) :
    let outcomes := (carrying subtract).chain flags left right
    exactly subtract (Bytes.value left) (Bytes.value right) flags.carry =
      Bytes.value (Outcome.values outcomes) +
        (256 ^ left.length : Nat) *
          exactly subtract 0 0 (Outcome.lastFlags flags outcomes).carry := by
  refine Outcome.chain_exactly ?_ flags sameLength (fun _ _ => trivial)
    (fun _ _ => trivial)
  intro left right flags _ _
  exact apply_exact subtract left right flags

/-- The bytes of a chain are the exact result modulo what they can hold. -/
theorem chain_value (sameLength : left.length = right.length) :
    (Bytes.value (Outcome.values ((carrying subtract).chain flags left right)) :
        Int) =
      exactly subtract (Bytes.value left) (Bytes.value right) flags.carry %
        (256 ^ left.length : Nat) :=
  value_of_exactly (chain_exact subtract flags sameLength)
    (values_chain_lt (carrying subtract) flags sameLength)

/-- The carry that a chain leaves tells that the exact result lies outside the
unsigned numbers. -/
theorem chain_carry (sameLength : left.length = right.length) :
    let exact := exactly subtract (Bytes.value left) (Bytes.value right) flags.carry
    (Outcome.lastFlags flags ((carrying subtract).chain flags left right)).carry =
      decide (exact < 0 ∨ (256 ^ left.length : Nat) ≤ exact) :=
  carry_of_exactly (chain_exact subtract flags sameLength)
    (values_chain_lt (carrying subtract) flags sameLength)

/-- The sign and parity bits that a chain leaves, told from the signed numbers.
The parity bit tells whether the exact result does not fit, and with the sign bit
its sign. -/
structure ShowsSigned (left right : List UInt8) (flags : Flags)
    (outcomes : List (Outcome UInt8)) : Prop where
  sign :
    (Outcome.lastFlags flags outcomes).sign =
      decide (Bytes.signed (Outcome.values outcomes) < 0)
  parity :
    (Outcome.lastFlags flags outcomes).parity =
      Bytes.overflow left.length
        (exactly subtract (Bytes.signed left) (Bytes.signed right) flags.carry)
  order :
    ((Outcome.lastFlags flags outcomes).sign ^^
        (Outcome.lastFlags flags outcomes).parity) =
      decide
        (exactly subtract (Bytes.signed left) (Bytes.signed right) flags.carry < 0)

private theorem showsSigned_singleton (left right : UInt8) :
    ShowsSigned subtract [left] [right] flags
      ((carrying subtract).chain flags [left] [right]) := by
  have value :
      Bytes.signed
          (Outcome.values ((carrying subtract).chain flags [left] [right])) =
        Byte.signed ((carrying subtract).apply left right flags).value :=
    Bytes.signed_singleton _
  constructor
  · rw [value]
    exact apply_sign subtract left right flags
  · rw [Bytes.signed_singleton, Bytes.signed_singleton]
    exact apply_parity subtract left right flags
  · rw [Bytes.signed_singleton, Bytes.signed_singleton]
    exact apply_order subtract left right flags

/-- A step below the others only hands them a carry. -/
theorem ShowsSigned.cons {outcomes : List (Outcome UInt8)} {leftByte rightByte : UInt8}
    (rest :
      ShowsSigned subtract left right
        ((carrying subtract).apply leftByte rightByte flags).flags outcomes)
    (leftNonempty : left ≠ []) (rightNonempty : right ≠ [])
    (nonempty : Outcome.values outcomes ≠ []) :
    ShowsSigned subtract (leftByte :: left) (rightByte :: right) flags
      ((carrying subtract).apply leftByte rightByte flags :: outcomes) := by
  have lowest := apply_exact subtract leftByte rightByte flags
  have positive := List.length_pos_iff.mpr leftNonempty
  dsimp only at lowest
  generalize (carrying subtract).apply leftByte rightByte flags = outcome
    at lowest rest ⊢
  have exact :
      exactly subtract (Bytes.signed (leftByte :: left))
          (Bytes.signed (rightByte :: right)) flags.carry =
        outcome.value.toNat +
          256 * exactly subtract (Bytes.signed left) (Bytes.signed right)
            outcome.flags.carry := by
    rw [Bytes.signed_cons _ leftNonempty, Bytes.signed_cons _ rightNonempty]
    exact exactly_digits lowest _ _
  constructor
  · rw [Outcome.values_cons, Bytes.signed_cons _ nonempty, Bytes.sign_cons]
    exact rest.sign
  · rw [exact, List.length_cons, Bytes.overflow_cons _ positive]
    exact rest.parity
  · rw [exact, Bytes.sign_cons]
    exact rest.order

private theorem showsSigned_chain (sameLength : left.length = right.length)
    (nonempty : left ≠ []) :
    ShowsSigned subtract left right flags
      ((carrying subtract).chain flags left right) := by
  induction left generalizing right flags with
  | nil => contradiction
  | cons left leftRest inductionHypothesis =>
      cases right with
      | nil => contradiction
      | cons right rightRest =>
          have sameRest : leftRest.length = rightRest.length :=
            Nat.succ.inj sameLength
          by_cases single : leftRest = []
          · subst single
            obtain rfl := List.eq_nil_of_length_eq_zero sameRest.symm
            exact showsSigned_singleton subtract flags left right
          · have positive := List.length_pos_iff.mpr single
            rw [chain_cons]
            refine (inductionHypothesis _ sameRest single).cons subtract flags
              single ?_ ?_
            · exact List.length_pos_iff.mp (sameRest ▸ positive)
            · rw [← List.length_pos_iff, Outcome.length_values,
                length_chain _ _ sameRest]
              exact positive

/-- What each step of a chain shows.  The carry that comes in is the one of the
bytes below. -/
theorem chain_shows {places : Nat}
    {leftByte rightByte : UInt8} (leftHere : left[places]? = some leftByte)
    (rightHere : right[places]? = some rightByte) :
    ∃ outcome,
      ((carrying subtract).chain flags left right)[places]? = some outcome ∧
        Shows subtract leftByte rightByte
          (Outcome.lastFlags flags
            ((carrying subtract).chain flags (left.take places)
              (right.take places))).carry
          outcome := by
  refine ⟨_, ?_, apply_shows subtract leftByte rightByte _⟩
  unfold chain
  rw [Outcome.getElem?_chain, List.getElem?_zipWith, leftHere, rightHere,
    List.take_zipWith]
  rfl

end Chain

/-- What is left when two numbers and a carry are added: the sum modulo what the
bytes can hold, with a carry if it did not fit.  The parity bit tells whether
the signed sum did not fit. -/
structure IsSum (left right : List UInt8) (flags : Flags)
    (outcomes : List (Outcome UInt8)) : Prop where
  length : outcomes.length = left.length
  value :
    Bytes.value (Outcome.values outcomes) =
      (Bytes.value left + Bytes.value right + flags.carry.toNat) %
        256 ^ left.length
  carry :
    (Outcome.lastFlags flags outcomes).carry =
      decide
        (256 ^ left.length ≤
          Bytes.value left + Bytes.value right + flags.carry.toNat)
  sign :
    (Outcome.lastFlags flags outcomes).sign =
      decide (Bytes.signed (Outcome.values outcomes) < 0)
  parity :
    (Outcome.lastFlags flags outcomes).parity =
      Bytes.overflow left.length
        (Bytes.signed left + Bytes.signed right + flags.carry.toNat)
  /-- The carry into a byte is the one out of all bytes below. -/
  shows : ∀ places leftByte rightByte, left[places]? = some leftByte →
    right[places]? = some rightByte →
      ∃ outcome, outcomes[places]? = some outcome ∧
        Shows false leftByte rightByte
          (decide
            (256 ^ places ≤
              Bytes.value left % 256 ^ places +
                Bytes.value right % 256 ^ places + flags.carry.toNat))
          outcome

/-- What is left when a number and a borrow are subtracted from another: the
difference modulo what the bytes can hold, with a borrow if it is below zero.
The parity bit tells whether the signed difference did not fit, and with the
sign bit which of the signed numbers is the smaller one. -/
structure IsDifference (left right : List UInt8) (flags : Flags)
    (outcomes : List (Outcome UInt8)) : Prop where
  length : outcomes.length = left.length
  value :
    (Bytes.value (Outcome.values outcomes) : Int) =
      (Bytes.value left - Bytes.value right - flags.carry.toNat : Int) %
        (256 ^ left.length : Nat)
  borrow :
    (Outcome.lastFlags flags outcomes).carry =
      decide (Bytes.value left < Bytes.value right + flags.carry.toNat)
  sign :
    (Outcome.lastFlags flags outcomes).sign =
      decide (Bytes.signed (Outcome.values outcomes) < 0)
  parity :
    (Outcome.lastFlags flags outcomes).parity =
      Bytes.overflow left.length
        (Bytes.signed left - Bytes.signed right - flags.carry.toNat)
  less :
    ((Outcome.lastFlags flags outcomes).sign ^^
        (Outcome.lastFlags flags outcomes).parity) =
      decide (Bytes.signed left < Bytes.signed right + flags.carry.toNat)
  /-- The borrow into a byte is the one out of all bytes below. -/
  shows : ∀ places leftByte rightByte, left[places]? = some leftByte →
    right[places]? = some rightByte →
      ∃ outcome, outcomes[places]? = some outcome ∧
        Shows true leftByte rightByte
          (decide
            (Bytes.value left % 256 ^ places <
              Bytes.value right % 256 ^ places + flags.carry.toNat))
          outcome

section Carry

variable {left right : List UInt8} (flags : Flags)

theorem carry_adc (sameLength : left.length = right.length) :
    (Outcome.lastFlags flags (adc.chain flags left right)).carry =
      decide
        (256 ^ left.length ≤
          Bytes.value left + Bytes.value right + flags.carry.toNat) := by
  refine (chain_carry false flags sameLength).trans (decide_eq_decide.mpr ?_)
  simp only [exactly]
  omega

theorem carry_sbc (sameLength : left.length = right.length) :
    (Outcome.lastFlags flags (sbc.chain flags left right)).carry =
      decide (Bytes.value left < Bytes.value right + flags.carry.toNat) := by
  have fits := Bytes.value_lt left
  refine (chain_carry true flags sameLength).trans (decide_eq_decide.mpr ?_)
  simp only [exactly]
  omega

variable {places : Nat} {leftByte rightByte : UInt8}
  (leftHere : left[places]? = some leftByte)
  (rightHere : right[places]? = some rightByte)
include leftHere rightHere

/-- The numbers below a place are as long as each other. -/
theorem length_take_eq :
    (left.take places).length = places ∧
      (left.take places).length = (right.take places).length := by
  obtain ⟨leftWithin, _⟩ := List.getElem?_eq_some_iff.mp leftHere
  obtain ⟨rightWithin, _⟩ := List.getElem?_eq_some_iff.mp rightHere
  rw [List.length_take, List.length_take]
  omega

private theorem carry_adc_take :
    (Outcome.lastFlags flags
        (adc.chain flags (left.take places) (right.take places))).carry =
      decide
        (256 ^ places ≤
          Bytes.value left % 256 ^ places + Bytes.value right % 256 ^ places +
            flags.carry.toNat) := by
  obtain ⟨length, sameLength⟩ := length_take_eq leftHere rightHere
  rw [carry_adc flags sameLength, length, Bytes.value_take, Bytes.value_take]

private theorem carry_sbc_take :
    (Outcome.lastFlags flags
        (sbc.chain flags (left.take places) (right.take places))).carry =
      decide
        (Bytes.value left % 256 ^ places <
          Bytes.value right % 256 ^ places + flags.carry.toNat) := by
  obtain ⟨_, sameLength⟩ := length_take_eq leftHere rightHere
  rw [carry_sbc flags sameLength, Bytes.value_take, Bytes.value_take]

end Carry

/-- Two numbers of as many bytes are added by `ADC` and subtracted by `SBC`, from
the lowest bytes up. -/
theorem isSum_and_isDifference (left right : List UInt8) (flags : Flags)
    (sameLength : left.length = right.length) (nonempty : left ≠ []) :
    IsSum left right flags (adc.chain flags left right) ∧
      IsDifference left right flags (sbc.chain flags left right) := by
  have signedSum := showsSigned_chain false flags sameLength nonempty
  have signedDifference := showsSigned_chain true flags sameLength nonempty
  constructor
  · refine ⟨length_chain adc flags sameLength, ?_, carry_adc flags sameLength,
      signedSum.sign, signedSum.parity, ?_⟩
    · have value := chain_value false flags sameLength
      simp only [exactly] at value
      exact_mod_cast value
    · intro places leftByte rightByte leftHere rightHere
      rw [← carry_adc_take flags leftHere rightHere]
      exact chain_shows false flags leftHere rightHere
  · refine ⟨length_chain sbc flags sameLength, chain_value true flags sameLength,
      carry_sbc flags sameLength, signedDifference.sign, signedDifference.parity,
      ?_, ?_⟩
    · refine signedDifference.order.trans (decide_eq_decide.mpr ?_)
      simp only [exactly]
      omega
    · intro places leftByte rightByte leftHere rightHere
      rw [← carry_sbc_take flags leftHere rightHere]
      exact chain_shows true flags leftHere rightHere

/-- One less than the difference of zero and the largest number, and one more
than the largest signed number. -/
theorem isSum_and_isDifference_twoBytes :
    let flags := { Flags.none with carry := true }
    let difference := sbc.chain flags [0x00, 0x00] [0xFF, 0xFF]
    let sum := adc.chain flags [0xFF, 0x7F] [0x00, 0x00]
    Bytes.value (Outcome.values difference) = 0 ∧
      (Outcome.lastFlags flags difference).carry = true ∧
      Bytes.signed (Outcome.values sum) = -32768 ∧
      (Outcome.lastFlags flags sum).parity = true := by
  have subtracted :=
    (isSum_and_isDifference [0x00, 0x00] [0xFF, 0xFF] { Flags.none with carry := true } rfl
      (by decide)).2
  have added :=
    (isSum_and_isDifference [0xFF, 0x7F] [0x00, 0x00] { Flags.none with carry := true } rfl
      (by decide)).1
  refine ⟨?_, ?_, ?_, ?_⟩
  · exact Int.natCast_inj.mp (subtracted.value.trans (by decide))
  · rw [subtracted.borrow]
    decide
  · unfold Bytes.signed
    rw [added.value]
    decide
  · rw [added.parity]
    decide

end ArithmeticOp

end Z80
