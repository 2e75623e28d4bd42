import Mathlib.Tactic.Ring
import Z80.Proofs.CarryBits
import Z80.Proofs.Chain
import Z80.Proofs.ShiftBits

/-!
# Shifts of several bytes

A shift of a number of several bytes is a pass over its bytes, upwards for a shift
to the left and downwards for a shift to the right, in which the carry takes a bit
from each byte to the next.  What a pass keeps is the row of all bits: with one
more bit below it, a number is the shifted number with the bit that was pushed out
above it.  A pass in the other direction reads the same equation backwards.

Main statement: `ShiftOp.shiftsNumber`, for numbers of any length.
-/

namespace Z80

namespace Bytes

/-- The highest bit. -/
theorem testBit_value {bytes : List UInt8} (nonempty : bytes ≠ []) :
    (value bytes).testBit (8 * bytes.length - 1) =
      decide (256 ^ bytes.length ≤ 2 * value bytes) := by
  have bound := value_lt bytes
  have even := pow_eq_two_mul (List.length_pos_iff.mpr nonempty)
  rw [Number.testBit_of_lt (by rw [Nat.pow_succ']; omega)]
  exact decide_eq_decide.mpr (by omega)

/-- The highest bit of a number is that of its highest byte. -/
theorem testBit_value_append (lower : List UInt8) (byte : UInt8) :
    (value (lower ++ [byte])).testBit (8 * (lower ++ [byte]).length - 1) =
      Byte.testBit byte 7 := by
  have bound := value_lt lower
  have place : 8 * (lower.length + 1) - 1 = 8 * lower.length + 7 := by omega
  have power : 256 ^ lower.length = 2 ^ (8 * lower.length) := by rw [Nat.pow_mul]
  rw [power] at bound
  rw [value_append, value_singleton, List.length_append, List.length_singleton, place,
    power, Nat.add_comm (value lower), Nat.testBit_two_pow_mul_add _ bound,
    if_neg (by omega), Nat.add_sub_cancel_left]
  rfl

end Bytes

namespace ShiftOp

/-! ## Rows of bits -/

/-- A number with a bit below it is another one of as many bytes with a bit above
it. -/
structure Moves (lower : List UInt8) (below : Bool) (upper : List UInt8)
    (above : Bool) : Prop where
  sameLength : upper.length = lower.length
  same :
    2 * Bytes.value lower + below.toNat =
      Bytes.value upper + 256 ^ lower.length * above.toNat

namespace Moves

variable {lower upper : List UInt8} {below above : Bool}

theorem nil (bit : Bool) : Moves [] bit [] bit where
  sameLength := rfl
  same := by
    rw [List.length_nil, Nat.pow_zero, Nat.one_mul]
    rfl

/-- The bit above the lower bytes is the one below the upper bytes. -/
theorem append {lowerRest upperRest : List UInt8} {middle : Bool}
    (moves : Moves lower below upper middle)
    (rest : Moves lowerRest middle upperRest above) :
    Moves (lower ++ lowerRest) below (upper ++ upperRest) above where
  sameLength := by
    rw [List.length_append, List.length_append, moves.sameLength, rest.sameLength]
  same := by
    have same := moves.same
    have sameRest := rest.same
    rw [Bytes.value_append, Bytes.value_append, List.length_append, moves.sameLength,
      Nat.pow_add]
    calc
      _ = (2 * Bytes.value lower + below.toNat) +
            256 ^ lower.length * (2 * Bytes.value lowerRest) := by ring
      _ = Bytes.value upper +
            256 ^ lower.length * (2 * Bytes.value lowerRest + middle.toNat) := by
          rw [same]
          ring
      _ = _ := by
          rw [sameRest]
          ring

/-- The numbers have the same bits but for one at each end. -/
theorem value_upper (moves : Moves lower below upper above) :
    Bytes.value upper = (2 * Bytes.value lower + below.toNat) % 256 ^ lower.length := by
  have bound := Bytes.value_lt upper
  rw [moves.sameLength] at bound
  rw [moves.same, Nat.add_mul_mod_self_left, Nat.mod_eq_of_lt bound]

private theorem above_eq (moves : Moves lower below upper above)
    (nonempty : lower ≠ []) :
    above = (Bytes.value lower).testBit (8 * lower.length - 1) := by
  have same := moves.same
  have bound := Bytes.value_lt upper
  have even := Bytes.pow_eq_two_mul (List.length_pos_iff.mpr nonempty)
  rw [moves.sameLength] at bound
  have lowerBound := below.toNat_le
  rw [Bytes.testBit_value nonempty]
  cases above with
  | false =>
      rw [Bool.toNat_false, Nat.mul_zero] at same
      exact (decide_eq_false (by omega)).symm
  | true =>
      rw [Bool.toNat_true, Nat.mul_one] at same
      exact (decide_eq_true (by omega)).symm

section Upper

variable (moves : Moves lower below upper above) (nonempty : upper ≠ [])
include moves nonempty

/-- The bit above the upper number stands for twice its highest bit. -/
theorem same_halves :
    2 * Bytes.value lower + below.toNat =
      Bytes.value upper + 2 * (above.toNat * 2 ^ (8 * upper.length - 1)) := by
  have even := Bytes.pow_eq_two_mul (List.length_pos_iff.mpr nonempty)
  rw [moves.same, ← moves.sameLength, even]
  ring

private theorem value_lower :
    Bytes.value lower =
      Bytes.value upper / 2 + above.toNat * 2 ^ (8 * upper.length - 1) := by
  have same := moves.same_halves nonempty
  have bound := below.toNat_le
  omega

private theorem below_eq : below.toNat = Bytes.value upper % 2 := by
  have same := moves.same_halves nonempty
  have bound := below.toNat_le
  omega

/-- With its own highest bit above it, the signed number is halved. -/
theorem signed_lower
    (sign : above = (Bytes.value upper).testBit (8 * upper.length - 1)) :
    Bytes.signed lower = Bytes.signed upper / 2 := by
  have same := moves.same_halves nonempty
  have belowBound := below.toNat_le
  have bound := Bytes.value_lt upper
  have even := Bytes.pow_eq_two_mul (List.length_pos_iff.mpr nonempty)
  rw [Bytes.testBit_value nonempty] at sign
  unfold Bytes.signed
  rw [← moves.sameLength]
  cases above with
  | false =>
      have positive := of_decide_eq_false sign.symm
      rw [Bool.toNat_false, Nat.zero_mul] at same
      rw [if_pos (by omega), if_pos (by omega)]
      omega
  | true =>
      have negative := of_decide_eq_true sign.symm
      rw [Bool.toNat_true, Nat.one_mul] at same
      rw [if_neg (by omega), if_neg (by omega)]
      omega

end Upper

/-- The upper row determines the lower one. -/
theorem lower_unique {other : List UInt8} {otherBelow : Bool}
    (moves : Moves lower below upper above) (again : Moves other otherBelow upper above) :
    other = lower ∧ otherBelow = below := by
  have sameLength : other.length = lower.length :=
    again.sameLength.symm.trans moves.sameLength
  have same := moves.same
  have sameAgain := again.same
  rw [sameLength, ← same] at sameAgain
  have bits : otherBelow.toNat = below.toNat := by
    have lowerBound := below.toNat_le
    have otherBound := otherBelow.toNat_le
    omega
  exact ⟨Bytes.eq_of_value_eq sameLength (by omega), bit_eq_of_toNat_eq bits⟩

/-- The lower row determines the upper one. -/
theorem upper_unique {other : List UInt8} {otherAbove : Bool}
    (moves : Moves lower below upper above) (again : Moves lower below other otherAbove) :
    other = upper ∧ otherAbove = above := by
  have sameLength : other.length = upper.length :=
    again.sameLength.trans moves.sameLength.symm
  have sameBytes : other = upper :=
    Bytes.eq_of_value_eq sameLength (again.value_upper.trans moves.value_upper.symm)
  refine ⟨sameBytes, ?_⟩
  have same := moves.same.symm.trans again.same
  rw [sameBytes] at same
  have bits := Nat.mul_left_cancel (Nat.pow_pos (by decide)) (Nat.add_left_cancel same)
  exact bit_eq_of_toNat_eq bits.symm

end Moves

/-! ## One step -/

section Step

variable (op : ShiftOp) (byte : UInt8) (flags : Flags)

private theorem value_apply :
    (op.apply byte flags).value = op.shiftedBits byte flags.carry :=
  shifted_eq_shiftedBits op byte flags.carry

theorem moves_of_leftward (leftward : op.leftward = true) :
    Moves [byte] (op.incoming byte flags.carry) [(op.apply byte flags).value]
      (op.apply byte flags).flags.carry where
  sameLength := rfl
  same := by
    have outgoing : (op.apply byte flags).flags.carry = Byte.testBit byte 7 :=
      if_pos leftward
    rw [outgoing, value_apply, Bytes.value_singleton, Bytes.value_singleton]
    exact row_of_leftward byte flags.carry leftward

theorem moves_of_rightward (rightward : op.leftward = false) :
    Moves [(op.apply byte flags).value] (op.apply byte flags).flags.carry [byte]
      (op.incoming byte flags.carry) where
  sameLength := rfl
  same := by
    have outgoing : (op.apply byte flags).flags.carry = Byte.testBit byte 0 :=
      if_neg (ne_true_of_eq_false rightward)
    rw [outgoing, value_apply, Bytes.value_singleton, Bytes.value_singleton]
    exact row_of_rightward byte flags.carry rightward

/-- The flags that show the byte of an outcome, whatever it came from. -/
structure Shows (outcome : Outcome UInt8) : Prop where
  sign : outcome.flags.sign = Byte.testBit outcome.value 7
  zero : outcome.flags.zero = (outcome.value == 0)
  bit5 : outcome.flags.bit5 = Byte.testBit outcome.value 5
  half : outcome.flags.half = false
  bit3 : outcome.flags.bit3 = Byte.testBit outcome.value 3
  parity : outcome.flags.parity = Byte.evenParity outcome.value
  subtract : outcome.flags.subtract = false

theorem shows_apply : Shows (op.apply byte flags) :=
  ⟨rfl, rfl, rfl, rfl, rfl, rfl, rfl⟩

end Step

/-! ## Passes -/

/-- A pass over bytes, each with the carry of the one before it.  The first byte is
shifted in a way of its own. -/
def pass (first next : ShiftOp) (flags : Flags) : List UInt8 → List (Outcome UInt8)
  | [] => []
  | byte :: rest => Outcome.chain flags (first.apply byte :: rest.map next.apply)

/-- A pass from the lowest byte up, where the later bytes are rotated to the left
through the carry. -/
def upward (first : ShiftOp) (flags : Flags) (bytes : List UInt8) :
    List (Outcome UInt8) :=
  pass first .rl flags bytes

/-- A pass from the highest byte down, where the later bytes are rotated to the
right through the carry.  Its outcomes begin with the highest byte. -/
def downward (first : ShiftOp) (flags : Flags) (bytes : List UInt8) :
    List (Outcome UInt8) :=
  pass first .rr flags bytes.reverse

section Pass

variable (flags : Flags) (bytes : List UInt8)

theorem pass_cons (first next : ShiftOp) (byte : UInt8) :
    pass first next flags (byte :: bytes) =
      first.apply byte flags ::
        Outcome.chain (first.apply byte flags).flags (bytes.map next.apply) :=
  rfl

theorem pass_self (op : ShiftOp) :
    pass op op flags bytes = Outcome.chain flags (bytes.map op.apply) := by
  cases bytes with
  | nil => rfl
  | cons byte rest => rfl

theorem length_pass (first next : ShiftOp) :
    (pass first next flags bytes).length = bytes.length := by
  cases bytes with
  | nil => rfl
  | cons byte rest =>
      rw [pass_cons, List.length_cons, List.length_cons, Outcome.length_chain,
        List.length_map]

private theorem shows_of_mem_rotations (op : ShiftOp) :
    ∀ outcome ∈ Outcome.chain flags (bytes.map op.apply), Shows outcome := by
  induction bytes generalizing flags with
  | nil => exact fun _ member => nomatch member
  | cons byte rest inductionHypothesis =>
      exact List.forall_mem_cons.mpr
        ⟨shows_apply op byte flags, inductionHypothesis _⟩

theorem shows_of_mem_pass (first next : ShiftOp) :
    ∀ outcome ∈ pass first next flags bytes, Shows outcome := by
  cases bytes with
  | nil => exact fun _ member => nomatch member
  | cons byte rest =>
      exact List.forall_mem_cons.mpr
        ⟨shows_apply first byte flags, shows_of_mem_rotations _ rest next⟩

/-- By induction on the bytes from the lowest one up. -/
theorem moves_rotationsLeft :
    let outcomes := Outcome.chain flags (bytes.map rl.apply)
    Moves bytes flags.carry (Outcome.values outcomes)
      (Outcome.lastFlags flags outcomes).carry := by
  induction bytes generalizing flags with
  | nil => exact Moves.nil flags.carry
  | cons byte rest inductionHypothesis =>
      exact (moves_of_leftward rl byte flags rfl).append (inductionHypothesis _)

/-- By induction on the bytes from the highest one down. -/
theorem moves_rotationsRight :
    let outcomes := Outcome.chain flags (bytes.map rr.apply)
    Moves (Outcome.values outcomes).reverse (Outcome.lastFlags flags outcomes).carry
      bytes.reverse flags.carry := by
  induction bytes generalizing flags with
  | nil => exact Moves.nil flags.carry
  | cons byte rest inductionHypothesis =>
      have moves := (inductionHypothesis (rr.apply byte flags).flags).append
        (moves_of_rightward rr byte flags rfl)
      dsimp only
      rw [List.map_cons, Outcome.chain, Outcome.values_cons, List.reverse_cons,
        List.reverse_cons]
      exact moves

/-- The bit that comes in at the bottom is the one that comes into the lowest
byte. -/
theorem moves_upward {first : ShiftOp} {bit : Bool} {bytes : List UInt8}
    (leftward : first.leftward = true) (nonempty : bytes ≠ [])
    (incoming : ∀ byte, first.incoming byte flags.carry = bit) :
    Moves bytes bit (Outcome.values (upward first flags bytes))
      (Outcome.lastFlags flags (upward first flags bytes)).carry := by
  obtain ⟨byte, rest, rfl⟩ := List.exists_cons_of_ne_nil nonempty
  rw [← incoming byte]
  exact (moves_of_leftward first byte flags leftward).append (moves_rotationsLeft _ rest)

/-- The bit that comes in at the top is the one that comes into the highest byte. -/
theorem moves_downward {first : ShiftOp} {bit : Bool} {bytes : List UInt8}
    (rightward : first.leftward = false) (nonempty : bytes ≠ [])
    (incoming : ∀ rest byte, bytes = rest ++ [byte] →
      first.incoming byte flags.carry = bit) :
    Moves (Outcome.values (downward first flags bytes)).reverse
      (Outcome.lastFlags flags (downward first flags bytes)).carry bytes bit := by
  obtain none | ⟨rest, byte, rfl⟩ := List.eq_nil_or_concat' bytes
  · exact absurd none nonempty
  rw [← incoming rest byte rfl]
  have moves := (moves_rotationsRight (first.apply byte flags).flags rest.reverse).append
    (moves_of_rightward first byte flags rightward)
  rw [List.reverse_reverse] at moves
  unfold downward
  rw [List.reverse_append, List.reverse_singleton, List.singleton_append, pass_cons,
    Outcome.values_cons, List.reverse_cons]
  exact moves

private theorem moves_downward_sra {bytes : List UInt8} (nonempty : bytes ≠ []) :
    Moves (Outcome.values (downward sra flags bytes)).reverse
      (Outcome.lastFlags flags (downward sra flags bytes)).carry bytes
      ((Bytes.value bytes).testBit (8 * bytes.length - 1)) := by
  refine moves_downward flags rfl nonempty ?_
  rintro rest byte rfl
  exact (Bytes.testBit_value_append rest byte).symm

private theorem moves_upward_rl :
    Moves bytes flags.carry (Outcome.values (upward rl flags bytes))
      (Outcome.lastFlags flags (upward rl flags bytes)).carry := by
  unfold upward
  rw [pass_self]
  exact moves_rotationsLeft flags bytes

private theorem moves_downward_rr :
    Moves (Outcome.values (downward rr flags bytes)).reverse
      (Outcome.lastFlags flags (downward rr flags bytes)).carry bytes flags.carry := by
  have moves := moves_rotationsRight flags bytes.reverse
  rw [List.reverse_reverse] at moves
  unfold downward
  rw [pass_self]
  exact moves

end Pass

/-! ## Results -/

/-- What a pass upwards leaves when a bit comes in at the bottom. -/
structure Doubled (bytes : List UInt8) (flags : Flags) (bit : Bool)
    (outcomes : List (Outcome UInt8)) : Prop where
  length : outcomes.length = bytes.length
  value :
    Bytes.value (Outcome.values outcomes) =
      (2 * Bytes.value bytes + bit.toNat) % 256 ^ bytes.length
  /-- The carry is the highest bit of the number. -/
  carry :
    (Outcome.lastFlags flags outcomes).carry =
      (Bytes.value bytes).testBit (8 * bytes.length - 1)
  shows : ∀ outcome ∈ outcomes, Shows outcome

/-- What a pass downwards leaves when a bit comes in at the top. -/
structure Halved (bytes : List UInt8) (flags : Flags) (bit : Bool)
    (outcomes : List (Outcome UInt8)) : Prop where
  length : outcomes.length = bytes.length
  value :
    Bytes.value (Outcome.values outcomes).reverse =
      Bytes.value bytes / 2 + bit.toNat * 2 ^ (8 * bytes.length - 1)
  /-- The carry is the lowest bit of the number. -/
  carry :
    (Outcome.lastFlags flags outcomes).carry.toNat = Bytes.value bytes % 2
  shows : ∀ outcome ∈ outcomes, Shows outcome

/-- The passes over the bytes of a number. -/
structure ShiftsNumber (bytes : List UInt8) (flags : Flags) : Prop where
  sla : Doubled bytes flags false (upward .sla flags bytes)
  sll : Doubled bytes flags true (upward .sll flags bytes)
  rl : Doubled bytes flags flags.carry (upward .rl flags bytes)
  srl : Halved bytes flags false (downward .srl flags bytes)
  rr : Halved bytes flags flags.carry (downward .rr flags bytes)
  /-- The sign comes in at the top, so that the signed number is halved. -/
  sra :
    Halved bytes flags ((Bytes.value bytes).testBit (8 * bytes.length - 1))
      (downward .sra flags bytes)
  sra_signed :
    Bytes.signed (Outcome.values (downward .sra flags bytes)).reverse =
      Bytes.signed bytes / 2
  /-- A rotation to the right undoes one to the left. -/
  rr_rl :
    let up := upward .rl flags bytes
    let down := downward .rr (Outcome.lastFlags flags up) (Outcome.values up)
    (Outcome.values down).reverse = bytes ∧
      (Outcome.lastFlags (Outcome.lastFlags flags up) down).carry = flags.carry
  /-- And one to the left undoes one to the right. -/
  rl_rr :
    let down := downward .rr flags bytes
    let up := upward .rl (Outcome.lastFlags flags down) (Outcome.values down).reverse
    Outcome.values up = bytes ∧
      (Outcome.lastFlags (Outcome.lastFlags flags down) up).carry = flags.carry

section Results

variable {bytes : List UInt8} {flags : Flags}

private theorem doubled_of_moves {first : ShiftOp} {bit : Bool} (nonempty : bytes ≠ [])
    (moves :
      Moves bytes bit (Outcome.values (upward first flags bytes))
        (Outcome.lastFlags flags (upward first flags bytes)).carry) :
    Doubled bytes flags bit (upward first flags bytes) where
  length := length_pass flags bytes first .rl
  value := moves.value_upper
  carry := moves.above_eq nonempty
  shows := shows_of_mem_pass flags bytes first .rl

private theorem halved_of_moves {first : ShiftOp} {bit : Bool} (nonempty : bytes ≠ [])
    (moves :
      Moves (Outcome.values (downward first flags bytes)).reverse
        (Outcome.lastFlags flags (downward first flags bytes)).carry bytes bit) :
    Halved bytes flags bit (downward first flags bytes) where
  length := by
    unfold downward
    rw [length_pass, List.length_reverse]
  value := moves.value_lower nonempty
  carry := moves.below_eq nonempty
  shows := shows_of_mem_pass flags bytes.reverse first .rr

/-- Numbers of any length are shifted and rotated byte by byte. -/
theorem shiftsNumber (bytes : List UInt8) (flags : Flags) (nonempty : bytes ≠ []) :
    ShiftsNumber bytes flags := by
  have signed := moves_downward_sra flags nonempty
  constructor
  case sla => exact doubled_of_moves nonempty (moves_upward flags rfl nonempty fun _ => rfl)
  case sll => exact doubled_of_moves nonempty (moves_upward flags rfl nonempty fun _ => rfl)
  case rl => exact doubled_of_moves nonempty (moves_upward_rl flags bytes)
  case srl =>
    exact halved_of_moves nonempty (moves_downward flags rfl nonempty fun _ _ _ => rfl)
  case rr => exact halved_of_moves nonempty (moves_downward_rr flags bytes)
  case sra => exact halved_of_moves nonempty signed
  case sra_signed => exact signed.signed_lower nonempty rfl
  case rr_rl =>
    have up := moves_upward_rl flags bytes
    exact up.lower_unique (moves_downward_rr _ _)
  case rl_rr =>
    have down := moves_downward_rr flags bytes
    exact down.upper_unique (moves_upward_rl _ _)

/-- A negative number whose lowest and highest bits are set. -/
theorem shiftsNumber_twoBytes :
    let flags := { Flags.none with carry := true }
    let bytes : List UInt8 := [0x01, 0x80]
    bytes ≠ [] ∧
      Bytes.value (Outcome.values (upward .rl flags bytes)) = 0x0003 ∧
      (Outcome.lastFlags flags (upward .rl flags bytes)).carry = true ∧
      Bytes.value (Outcome.values (downward .rr flags bytes)).reverse = 0xC000 ∧
      Bytes.signed (Outcome.values (downward .sra flags bytes)).reverse = -16384 := by
  have nonempty : ([0x01, 0x80] : List UInt8) ≠ [] := by decide
  have shifts := shiftsNumber [0x01, 0x80] { Flags.none with carry := true } nonempty
  refine ⟨nonempty, ?_, ?_, ?_, ?_⟩
  · rw [shifts.rl.value]
    decide
  · rw [shifts.rl.carry]
    decide
  · rw [shifts.rr.value]
    decide
  · rw [shifts.sra_signed]
    decide

end Results

end ShiftOp

end Z80
