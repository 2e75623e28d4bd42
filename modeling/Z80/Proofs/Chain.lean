import Mathlib.Data.List.Basic
import Mathlib.Data.Nat.Digits.Defs
import Z80.Alu.Arithmetic

/-!
# Numbers of several bytes

A number too large for a byte is worked on byte by byte.  Every operation of
such a chain finds in the flags what the one before it left there.

Main statement: `Outcome.getElem?_chain`, what each operation of a chain finds.
-/

namespace Z80

/-! ## Numbers -/

theorem Byte.signed_lt_zero_iff (byte : UInt8) :
    Byte.signed byte < 0 ↔ Byte.testBit byte 7 = true := by
  revert byte
  refine Byte.of_forall_ofNat ?_
  decide +kernel

/-- The signed reading of a byte differs from the unsigned one by a full turn
at most. -/
theorem Byte.signed_range (byte : UInt8) :
    -128 ≤ Byte.signed byte ∧ Byte.signed byte < 128 ∧
      Byte.signed byte % 256 = byte.toNat := by
  have bound := byte.toNat_lt
  unfold Byte.signed
  split <;> omega

namespace Bytes

/-- The number that bytes stand for, the lowest one first. -/
def value (bytes : List UInt8) : Nat :=
  Nat.ofDigits 256 (bytes.map UInt8.toNat)

/-- The two's complement reading of bytes. -/
def signed (bytes : List UInt8) : Int :=
  if 2 * value bytes < 256 ^ bytes.length then value bytes
  else value bytes - (256 ^ bytes.length : Nat)

/-- Whether an exact signed result lies outside the signed numbers of a number
of bytes. -/
def overflow (length : Nat) (exact : Int) : Bool :=
  2 * exact < -(256 ^ length : Nat) || (256 ^ length : Nat) ≤ 2 * exact

private theorem value_cons (byte : UInt8) (bytes : List UInt8) :
    value (byte :: bytes) = byte.toNat + 256 * value bytes :=
  rfl

theorem value_singleton (byte : UInt8) : value [byte] = byte.toNat :=
  Nat.ofDigits_singleton

theorem value_append (lower upper : List UInt8) :
    value (lower ++ upper) = value lower + 256 ^ lower.length * value upper := by
  unfold value
  rw [List.map_append, Nat.ofDigits_append, List.length_map]

theorem toNat_lt_of_mem {bytes : List UInt8} :
    ∀ digit ∈ bytes.map UInt8.toNat, digit < 256 := by
  intro digit member
  obtain ⟨byte, _, rfl⟩ := List.mem_map.mp member
  exact byte.toNat_lt

theorem value_lt (bytes : List UInt8) : value bytes < 256 ^ bytes.length := by
  have bound := Nat.ofDigits_lt_base_pow_length (by omega) (@toNat_lt_of_mem bytes)
  rw [List.length_map] at bound
  exact bound

/-- Numbers of as many bytes differ in their values. -/
theorem eq_of_value_eq {left right : List UInt8} (sameLength : left.length = right.length)
    (same : value left = value right) : left = right := by
  refine List.map_injective_iff.mpr (fun _ _ => UInt8.toNat_inj.mp) ?_
  refine Nat.ofDigits_inj_of_len_eq (by decide) ?_ toNat_lt_of_mem toNat_lt_of_mem same
  rw [List.length_map, List.length_map, sameLength]

theorem value_take (bytes : List UInt8) (places : Nat) :
    value (bytes.take places) = value bytes % 256 ^ places := by
  unfold value
  rw [List.map_take]
  exact (Nat.ofDigits_mod_pow_eq_ofDigits_take places (by omega) _ toNat_lt_of_mem).symm

theorem signed_singleton (byte : UInt8) : signed [byte] = Byte.signed byte := by
  unfold signed Byte.signed
  rw [value_singleton, List.length_singleton, Nat.pow_one]
  split <;> split <;> omega

/-- Half of the numbers of so many bytes lie below the highest bit. -/
theorem pow_eq_two_mul {length : Nat} (positive : 0 < length) :
    256 ^ length = 2 * 2 ^ (8 * length - 1) := by
  have exponent : 8 * length - 1 + 1 = 8 * length := by omega
  calc
    256 ^ length = 2 ^ (8 * length) := by rw [Nat.pow_mul]
    _ = 2 * 2 ^ (8 * length - 1) := by rw [← Nat.pow_succ', Nat.succ_eq_add_one, exponent]

theorem even_pow {length : Nat} (positive : 0 < length) :
    ∃ half, 256 ^ length = 2 * half :=
  ⟨_, pow_eq_two_mul positive⟩

/-- A byte below the others does not change their sign. -/
theorem signed_cons (byte : UInt8) {bytes : List UInt8} (nonempty : bytes ≠ []) :
    signed (byte :: bytes) = byte.toNat + 256 * signed bytes := by
  have bound := byte.toNat_lt
  obtain ⟨half, even⟩ := even_pow (List.length_pos_iff.mpr nonempty)
  unfold signed
  rw [value_cons, List.length_cons, Nat.pow_succ, even]
  split <;> split <;> omega

theorem sign_cons (byte : UInt8) (exact : Int) :
    decide (byte.toNat + 256 * exact < 0) = decide (exact < 0) := by
  have bound := byte.toNat_lt
  exact decide_eq_decide.mpr (by omega)

/-- Nor whether a result fits. -/
theorem overflow_cons (byte : UInt8) {length : Nat} (positive : 0 < length)
    (exact : Int) :
    overflow (length + 1) (byte.toNat + 256 * exact) = overflow length exact := by
  have bound := byte.toNat_lt
  obtain ⟨half, even⟩ := even_pow positive
  unfold overflow
  rw [Nat.pow_succ, even, Bool.eq_iff_iff]
  simp only [Bool.or_eq_true, decide_eq_true_eq]
  omega

end Bytes

/-! ## Chains -/

namespace Outcome

/-- Operations one after the other, each with the flags that the one before it
left. -/
def chain (flags : Flags) : List (Flags → Outcome UInt8) → List (Outcome UInt8)
  | [] => []
  | operation :: rest =>
      operation flags :: chain (operation flags).flags rest

/-- The flags that a chain leaves. -/
def lastFlags (flags : Flags) : List (Outcome UInt8) → Flags
  | [] => flags
  | outcome :: rest => lastFlags outcome.flags rest

/-- The bytes that a chain leaves. -/
def values (outcomes : List (Outcome UInt8)) : List UInt8 :=
  outcomes.map Outcome.value

theorem values_cons (outcome : Outcome UInt8) (rest : List (Outcome UInt8)) :
    values (outcome :: rest) = outcome.value :: values rest :=
  rfl

theorem length_values (outcomes : List (Outcome UInt8)) :
    (values outcomes).length = outcomes.length :=
  List.length_map _

theorem lastFlags_cons (flags : Flags) (outcome : Outcome UInt8)
    (rest : List (Outcome UInt8)) :
    lastFlags flags (outcome :: rest) = lastFlags outcome.flags rest :=
  rfl

theorem length_chain (flags : Flags) (operations : List (Flags → Outcome UInt8)) :
    (chain flags operations).length = operations.length := by
  induction operations generalizing flags with
  | nil => rfl
  | cons operation rest inductionHypothesis =>
      rw [chain, List.length_cons, List.length_cons, inductionHypothesis]

/-- Each operation finds the flags that the chain of the operations before it
leaves. -/
theorem getElem?_chain (flags : Flags)
    (operations : List (Flags → Outcome UInt8)) (places : Nat) :
    (chain flags operations)[places]? =
      operations[places]?.map fun operation =>
        operation (lastFlags flags (chain flags (operations.take places))) := by
  induction operations generalizing flags places with
  | nil => rfl
  | cons operation rest inductionHypothesis =>
      cases places with
      | zero => rfl
      | succ places => exact inductionHypothesis _ _

end Outcome

end Z80
