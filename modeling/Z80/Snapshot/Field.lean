import Z80.Word

/-!
# Snapshot fields

Numbers in a snapshot are stored with their highest byte first.  A `Reader`
takes fields off the front of a byte sequence and fails when it runs out.

Main statements: reading takes back what writing put in front.
-/

namespace Z80.Snapshot

/-- The bytes of a word, highest first. -/
def wordBytes (word : UInt16) : List UInt8 :=
  [Word.high word, Word.low word]

/-- The bytes of a double word, highest first. -/
def longBytes (long : UInt32) : List UInt8 :=
  [(long / 16777216).toUInt8, (long / 65536).toUInt8, (long / 256).toUInt8,
    long.toUInt8]

@[simp]
theorem length_wordBytes (word : UInt16) : (wordBytes word).length = 2 :=
  rfl

@[simp]
theorem length_longBytes (long : UInt32) : (longBytes long).length = 4 :=
  rfl

/-- The double word with the given bytes, highest first. -/
def longOfBytes (first second third fourth : UInt8) : UInt32 :=
  first.toUInt32 * 16777216 + second.toUInt32 * 65536 +
    third.toUInt32 * 256 + fourth.toUInt32

/-- A computation that takes bytes off the front of a sequence. -/
abbrev Reader := StateT (List UInt8) Option

namespace Reader

def byte : Reader UInt8
  | [] => none
  | first :: rest => some (first, rest)

def word : Reader UInt16 := do
  let high ← byte
  let low ← byte
  return Word.ofBytes high low

def long : Reader UInt32 := do
  let first ← byte
  let second ← byte
  let third ← byte
  let fourth ← byte
  return longOfBytes first second third fourth

/-- Take a byte that stands for a truth value, which any value but zero
makes true. -/
def latch : Reader Bool := do
  let value ← byte
  return value != 0

@[simp]
theorem word_wordBytes (value : UInt16) (rest : List UInt8) :
    word (wordBytes value ++ rest) = some (value, rest) := by
  show some (Word.ofBytes (Word.high value) (Word.low value), rest) = _
  rw [Word.ofBytes_high_low]

theorem longOfBytes_longBytes (value : UInt32) :
    longOfBytes (value / 16777216).toUInt8 (value / 65536).toUInt8
      (value / 256).toUInt8 value.toUInt8 = value := by
  apply UInt32.toNat_inj.mp
  have bound := value.toNat_lt
  simp only [longOfBytes, UInt32.toNat_add, UInt32.toNat_mul,
    UInt8.toNat_toUInt32, UInt32.toNat_toUInt8, UInt32.toNat_div,
    UInt32.reduceToNat]
  omega

@[simp]
theorem long_longBytes (value : UInt32) (rest : List UInt8) :
    long (longBytes value ++ rest) = some (value, rest) := by
  show some (longOfBytes (value / 16777216).toUInt8 (value / 65536).toUInt8
    (value / 256).toUInt8 value.toUInt8, rest) = _
  rw [longOfBytes_longBytes]

end Reader

end Z80.Snapshot
