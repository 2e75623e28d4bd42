/-!
# Bytes and words

The processor works on bytes and on 16-bit words that are a high byte and a
low byte side by side.  This module takes words apart and puts them together,
reads bytes and words as signed numbers, and moves an address by a signed
displacement.
-/

namespace Z80

namespace Byte

/-- The two's complement reading of a byte, between `-128` and `127`. -/
def signed (byte : UInt8) : Int :=
  if byte.toNat < 128 then byte.toNat else byte.toNat - 256

/-- Whether bit `index` of a byte is set. -/
def testBit (byte : UInt8) (index : Nat) : Bool :=
  byte.toNat.testBit index

/-- The byte whose only set bit is `index`. -/
def mask (index : Fin 8) : UInt8 :=
  UInt8.ofNat (1 <<< index.val)

/-- Whether a byte has an even number of set bits. -/
def evenParity (byte : UInt8) : Bool :=
  ((List.range 8).countP fun index => testBit byte index) % 2 == 0

/-- What holds of every number below 256 as a byte holds of every byte. -/
theorem of_forall_ofNat {holds : UInt8 → Prop}
    (each : ∀ value : Fin 256, holds (.ofNat value)) (byte : UInt8) :
    holds byte := by
  have found := each ⟨byte.toNat, byte.toNat_lt⟩
  rw [UInt8.ofNat_toNat] at found
  exact found

/-- Of two masked bytes that are joined, the mask of one finds that one again
when the masks have no bit in common. -/
theorem join_and_right (left right : UInt8) {mask other : UInt8}
    (apart : mask &&& other = 0) :
    ((left &&& mask) ||| (right &&& other)) &&& other = right &&& other := by
  apply UInt8.toNat_inj.mp
  have apartNat : mask.toNat &&& other.toNat = 0 := by
    rw [← UInt8.toNat_and, apart]
    rfl
  simp only [UInt8.toNat_and, UInt8.toNat_or, Nat.and_or_distrib_right,
    Nat.and_assoc, apartNat, Nat.and_self, Nat.and_zero, Nat.zero_or]

theorem join_and_left (left right : UInt8) {mask other : UInt8}
    (apart : other &&& mask = 0) :
    ((left &&& mask) ||| (right &&& other)) &&& mask = left &&& mask := by
  rw [UInt8.or_comm]
  exact join_and_right right left apart

end Byte

namespace Word

/-- The word with the given high and low bytes. -/
def ofBytes (high low : UInt8) : UInt16 :=
  high.toUInt16 * 256 + low.toUInt16

def high (word : UInt16) : UInt8 :=
  (word / 256).toUInt8

def low (word : UInt16) : UInt8 :=
  word.toUInt8

/-- The two's complement reading of a word, between `-32768` and `32767`. -/
def signed (word : UInt16) : Int :=
  if word.toNat < 32768 then word.toNat else word.toNat - 65536

/-- The address a signed displacement byte away, wrapping at both ends of the
address space. -/
def displace (address : UInt16) (displacement : UInt8) : UInt16 :=
  if displacement < 128 then
    address + displacement.toUInt16
  else
    address + displacement.toUInt16 - 256

/-- The neighbouring address, below when `decrement` holds and above
otherwise. -/
def neighbour (decrement : Bool) (address : UInt16) : UInt16 :=
  if decrement then address - 1 else address + 1

theorem toNat_ofBytes (high low : UInt8) :
    (ofBytes high low).toNat = high.toNat * 256 + low.toNat := by
  have highBound := high.toNat_lt
  have lowBound := low.toNat_lt
  simp only [ofBytes, UInt16.toNat_add, UInt16.toNat_mul, UInt8.toNat_toUInt16,
    UInt16.reduceToNat]
  omega

theorem toNat_high (word : UInt16) : (high word).toNat = word.toNat / 256 := by
  have bound := word.toNat_lt
  simp only [high, UInt16.toNat_toUInt8, UInt16.toNat_div, UInt16.reduceToNat]
  omega

theorem toNat_low (word : UInt16) : (low word).toNat = word.toNat % 256 := by
  simp [low]

@[simp]
theorem high_ofBytes (highByte lowByte : UInt8) :
    high (ofBytes highByte lowByte) = highByte := by
  apply UInt8.toNat_inj.mp
  have lowBound := lowByte.toNat_lt
  rw [toNat_high, toNat_ofBytes]
  omega

@[simp]
theorem low_ofBytes (highByte lowByte : UInt8) :
    low (ofBytes highByte lowByte) = lowByte := by
  apply UInt8.toNat_inj.mp
  have lowBound := lowByte.toNat_lt
  rw [toNat_low, toNat_ofBytes]
  omega

@[simp]
theorem ofBytes_high_low (word : UInt16) :
    ofBytes (high word) (low word) = word := by
  apply UInt16.toNat_inj.mp
  rw [toNat_ofBytes, toNat_high, toNat_low]
  omega

end Word

end Z80
