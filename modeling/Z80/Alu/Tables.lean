import Z80.Alu.Decimal

/-!
# Flag tables

The flags that results have, listed by the result, and the outcome of a
decimal correction, listed by the accumulator and the three flags that matter.
-/

namespace Z80.Alu

/-- The place of a decimal correction in its table: the accumulator, then the
carry, the half carry and the subtract bit. -/
def decimalIndex (accumulator : UInt8) (flags : Flags) : Nat :=
  accumulator.toNat + flags.carry.toNat * 0x100 + flags.half.toNat * 0x200 +
    flags.subtract.toNat * 0x400

/-- The outcome of the decimal correction at a place of the table, with the
accumulator as the high byte and the flags as the low byte. -/
def decimalEntry (index : Nat) : UInt16 :=
  let flags :=
    { Flags.none with
      carry := index.testBit 8
      half := index.testBit 9
      subtract := index.testBit 10 }
  let outcome := decimalAdjust (UInt8.ofNat index) flags
  Word.ofBytes outcome.value outcome.flags.toByte

inductive FlagTable where
  | zeroSign
  | zeroSignUndocumented
  | parity
  | zeroSignParity
  | decimal

namespace FlagTable

def size : FlagTable → Nat
  | .zeroSign | .zeroSignUndocumented | .parity | .zeroSignParity => 256
  | .decimal => 2048

def entry (table : FlagTable) (index : Nat) : Nat :=
  let result := UInt8.ofNat index
  match table with
  | .zeroSign => (Flags.ofSign result).toByte.toNat
  | .zeroSignUndocumented => (Flags.ofResult result).toByte.toNat
  | .parity =>
      { Flags.none with parity := Byte.evenParity result }.toByte.toNat
  | .zeroSignParity => (Flags.ofLogical result).toByte.toNat
  | .decimal => (decimalEntry index).toNat

end FlagTable

end Z80.Alu
