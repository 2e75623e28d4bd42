import Z80.Flags

/-!
# The register file

Two banks of eight registers, of which one is in use, two index registers, the
stack pointer and program counter, and the interrupt state that programs can
see.
-/

namespace Z80

structure Bank where
  a : UInt8
  f : Flags
  b : UInt8
  c : UInt8
  d : UInt8
  e : UInt8
  h : UInt8
  l : UInt8
  deriving DecidableEq

namespace Bank

def zero : Bank :=
  ⟨0, .none, 0, 0, 0, 0, 0, 0⟩

def af (bank : Bank) : UInt16 :=
  Word.ofBytes bank.a bank.f.toByte

def bc (bank : Bank) : UInt16 :=
  Word.ofBytes bank.b bank.c

def de (bank : Bank) : UInt16 :=
  Word.ofBytes bank.d bank.e

def hl (bank : Bank) : UInt16 :=
  Word.ofBytes bank.h bank.l

def setAf (bank : Bank) (word : UInt16) : Bank :=
  { bank with a := Word.high word, f := .ofByte (Word.low word) }

def setBc (bank : Bank) (word : UInt16) : Bank :=
  { bank with b := Word.high word, c := Word.low word }

def setDe (bank : Bank) (word : UInt16) : Bank :=
  { bank with d := Word.high word, e := Word.low word }

def setHl (bank : Bank) (word : UInt16) : Bank :=
  { bank with h := Word.high word, l := Word.low word }

end Bank

/-- The register file.  The bank in use is part of the record itself, and
`alternate` is the other one.  The low seven bits of `r` count instruction
fetches; bit 7 keeps what a program stored there.  `vectorBase` is the byte
that the host puts on the data bus when it acknowledges a mode 2 interrupt. -/
structure Registers extends Bank where
  alternate : Bank
  ix : UInt16
  iy : UInt16
  sp : UInt16
  pc : UInt16
  i : UInt8
  r : UInt8
  iff1 : Bool
  iff2 : Bool
  im : UInt8
  vectorBase : UInt8
  deriving DecidableEq

namespace Registers

def zero : Registers where
  toBank := .zero
  alternate := .zero
  ix := 0
  iy := 0
  sp := 0
  pc := 0
  i := 0
  r := 0
  iff1 := false
  iff2 := false
  im := 0
  vectorBase := 0

def inBank (regs : Registers) (change : Bank → Bank) : Registers :=
  { regs with toBank := change regs.toBank }

def setAf (regs : Registers) (word : UInt16) : Registers :=
  regs.inBank (·.setAf word)

def setBc (regs : Registers) (word : UInt16) : Registers :=
  regs.inBank (·.setBc word)

def setDe (regs : Registers) (word : UInt16) : Registers :=
  regs.inBank (·.setDe word)

def setHl (regs : Registers) (word : UInt16) : Registers :=
  regs.inBank (·.setHl word)

/-- Move the program counter on by a number of bytes. -/
def advance (regs : Registers) (bytes : UInt16) : Registers :=
  { regs with pc := regs.pc + bytes }

/-- Swap the accumulator and flags with their alternates. -/
def exchangeAf (regs : Registers) : Registers :=
  { regs with
    a := regs.alternate.a
    f := regs.alternate.f
    alternate := { regs.alternate with a := regs.a, f := regs.f } }

/-- Swap `BC`, `DE` and `HL` with their alternates. -/
def exchangePairs (regs : Registers) : Registers :=
  { regs with
    toBank := { regs.alternate with a := regs.a, f := regs.f }
    alternate :=
      { regs.toBank with a := regs.alternate.a, f := regs.alternate.f } }

/-- Count instruction fetches in the low seven bits of the refresh register.
Bit 7 stays as it is. -/
def refresh (regs : Registers) (count : UInt8) : Registers :=
  { regs with r := (regs.r &&& 0x80) ||| ((regs.r + count) &&& 0x7F) }

end Registers

end Z80
