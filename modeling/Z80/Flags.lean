import Z80.Word

/-!
# The flag register

The flag register is a record of eight bits.  Its byte form, with the sign in
bit 7 and the carry in bit 0, is what `PUSH AF`, snapshots and the correction
table of `DAA` see.  Main statements: the two forms determine each other.
-/

namespace Z80

/-- The eight bits of the flag register.  `bit5` and `bit3` are the
undocumented bits, and `parity` holds parity or overflow depending on the
instruction. -/
structure Flags where
  sign : Bool
  zero : Bool
  bit5 : Bool
  half : Bool
  bit3 : Bool
  parity : Bool
  subtract : Bool
  carry : Bool
  deriving DecidableEq

namespace Flags

def none : Flags :=
  ⟨false, false, false, false, false, false, false, false⟩

def toByte (flags : Flags) : UInt8 :=
  UInt8.ofNat
    (flags.sign.toNat * 128 + flags.zero.toNat * 64 +
      flags.bit5.toNat * 32 + flags.half.toNat * 16 +
      flags.bit3.toNat * 8 + flags.parity.toNat * 4 +
      flags.subtract.toNat * 2 + flags.carry.toNat)

def ofByte (byte : UInt8) : Flags where
  sign := Byte.testBit byte 7
  zero := Byte.testBit byte 6
  bit5 := Byte.testBit byte 5
  half := Byte.testBit byte 4
  bit3 := Byte.testBit byte 3
  parity := Byte.testBit byte 2
  subtract := Byte.testBit byte 1
  carry := Byte.testBit byte 0

private theorem ofByte_toByte_mk :
    ∀ sign zero bit5 half bit3 parity subtract carry : Bool,
      ofByte (toByte ⟨sign, zero, bit5, half, bit3, parity, subtract, carry⟩) =
        ⟨sign, zero, bit5, half, bit3, parity, subtract, carry⟩ := by
  decide

@[simp]
theorem ofByte_toByte (flags : Flags) : ofByte (toByte flags) = flags :=
  ofByte_toByte_mk flags.sign flags.zero flags.bit5 flags.half flags.bit3
    flags.parity flags.subtract flags.carry

@[simp]
theorem toByte_ofByte (byte : UInt8) : toByte (ofByte byte) = byte := by
  revert byte
  refine Byte.of_forall_ofNat ?_
  decide +kernel

/-! ## Flags of a result byte -/

/-- The sign and zero bits of a result; every other bit is clear. -/
def ofSign (result : UInt8) : Flags :=
  { none with
    sign := Byte.testBit result 7
    zero := result == 0 }

/-- The sign and zero bits of a result, and its own bits 5 and 3. -/
def ofResult (result : UInt8) : Flags :=
  { ofSign result with
    bit5 := Byte.testBit result 5
    bit3 := Byte.testBit result 3 }

/-- The bits of `ofResult` and the parity of the result. -/
def ofLogical (result : UInt8) : Flags :=
  { ofResult result with parity := Byte.evenParity result }

/-- These flags with bits 5 and 3 taken from the given byte. -/
def withUndocumented (flags : Flags) (byte : UInt8) : Flags :=
  { flags with
    bit5 := Byte.testBit byte 5
    bit3 := Byte.testBit byte 3 }

end Flags

end Z80
