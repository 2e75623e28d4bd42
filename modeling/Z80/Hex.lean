/-!
# Hexadecimal text

Numbers of a fixed width and strings of bytes, written with upper-case digits
and read with either case.
-/

namespace Z80.Hex

def digit (value : Nat) : Char :=
  Char.ofNat (if value < 10 then 0x30 + value else 0x37 + value)

def value? (symbol : Char) : Option Nat :=
  let code := symbol.toNat
  if 0x30 ≤ code ∧ code ≤ 0x39 then some (code - 0x30)
  else if 0x41 ≤ code ∧ code ≤ 0x46 then some (code - 0x37)
  else if 0x61 ≤ code ∧ code ≤ 0x66 then some (code - 0x57)
  else none

/-- The last `width` digits of a number, the highest first. -/
def digits : Nat → Nat → List Char
  | 0, _ => []
  | width + 1, number => digits width (number / 16) ++ [digit (number % 16)]

/-- A number written with a fixed width. -/
def text (width number : Nat) : String :=
  String.ofList (digits width number)

/-- A number written with a fixed width behind `0x`. -/
def literal (width number : Nat) : String :=
  "0x" ++ text width number

/-- Bytes as text, two digits each. -/
def ofBytes (bytes : List UInt8) : String :=
  String.ofList (bytes.flatMap fun byte => digits 2 byte.toNat)

/-- The bytes that a sequence of digits stands for. -/
def bytesOfDigits? : List Char → Option (List UInt8)
  | [] => some []
  | [_] => none
  | high :: low :: rest => do
      let highValue ← value? high
      let lowValue ← value? low
      let bytes ← bytesOfDigits? rest
      some (UInt8.ofNat (highValue * 16 + lowValue) :: bytes)

/-- The bytes that a text stands for, if it is an even number of digits. -/
def toBytes? (source : String) : Option (List UInt8) :=
  bytesOfDigits? source.toList

end Z80.Hex
