import Z80.Cpu
import Z80.Hex

/-!
# Inspection

Debuggers ask for properties by path and get values of several kinds.  Asking
never changes anything: a property is a function of the state.
-/

namespace Z80

inductive Value where
  | truth (value : Bool)
  | byte (value : UInt8)
  | word (value : UInt16)
  | long (value : UInt32)
  | count (value : UInt64)
  /-- A signed number, used where `-1` means that there is nothing. -/
  | signed (value : Int32)
  deriving DecidableEq

namespace Value

/-- The text of a value.  Bytes, words and double words are hexadecimal and
as wide as their kind. -/
def text : Value → String
  | .truth value => if value then "true" else "false"
  | .byte value => Hex.literal 2 value.toNat
  | .word value => Hex.literal 4 value.toNat
  | .long value => Hex.literal 8 value.toNat
  | .count value => toString value.toNat
  | .signed value => toString value.toInt

end Value

/-- A kind of state that can be inspected: its properties, each under its
path. -/
class Inspectable (α : Type) where
  properties : List (String × (α → Value))

def queryPaths (α : Type) [Inspectable α] : List String :=
  (Inspectable.properties (α := α)).map Prod.fst

def property? {α : Type} [Inspectable α] (path : String) : Option (α → Value) :=
  Inspectable.properties.lookup path

def query {α : Type} [Inspectable α] (subject : α) (path : String) :
    Option Value :=
  (property? path).map (· subject)

def queryAll {α : Type} [Inspectable α] (subject : α) : List (String × Value) :=
  Inspectable.properties.map fun entry => (entry.1, entry.2 subject)

/-! ## Properties of a processor -/

namespace Cpu

/-- The registers of the bank in use and their pairs. -/
def bankProperties : List (String × (Cpu → Value)) :=
  [("a", (.byte ·.regs.a)),
    ("f", (.byte ·.regs.f.toByte)),
    ("b", (.byte ·.regs.b)),
    ("c", (.byte ·.regs.c)),
    ("d", (.byte ·.regs.d)),
    ("e", (.byte ·.regs.e)),
    ("h", (.byte ·.regs.h)),
    ("l", (.byte ·.regs.l)),
    ("af", (.word ·.regs.af)),
    ("bc", (.word ·.regs.bc)),
    ("de", (.word ·.regs.de)),
    ("hl", (.word ·.regs.hl))]

/-- The registers of the other bank and their pairs. -/
def alternateProperties : List (String × (Cpu → Value)) :=
  [("a'", (.byte ·.regs.alternate.a)),
    ("f'", (.byte ·.regs.alternate.f.toByte)),
    ("b'", (.byte ·.regs.alternate.b)),
    ("c'", (.byte ·.regs.alternate.c)),
    ("d'", (.byte ·.regs.alternate.d)),
    ("e'", (.byte ·.regs.alternate.e)),
    ("h'", (.byte ·.regs.alternate.h)),
    ("l'", (.byte ·.regs.alternate.l)),
    ("af'", (.word ·.regs.alternate.af)),
    ("bc'", (.word ·.regs.alternate.bc)),
    ("de'", (.word ·.regs.alternate.de)),
    ("hl'", (.word ·.regs.alternate.hl))]

/-- The index registers with their halves, and the other registers. -/
def registerProperties : List (String × (Cpu → Value)) :=
  [("ix", (.word ·.regs.ix)),
    ("iy", (.word ·.regs.iy)),
    ("ixh", fun cpu => .byte (Word.high cpu.regs.ix)),
    ("ixl", fun cpu => .byte (Word.low cpu.regs.ix)),
    ("iyh", fun cpu => .byte (Word.high cpu.regs.iy)),
    ("iyl", fun cpu => .byte (Word.low cpu.regs.iy)),
    ("sp", (.word ·.regs.sp)),
    ("pc", (.word ·.regs.pc)),
    ("i", (.byte ·.regs.i)),
    ("r", (.byte ·.regs.r)),
    ("r7", fun cpu => .truth (Byte.testBit cpu.regs.r 7))]

def flagProperties : List (String × (Cpu → Value)) :=
  [("flags.s", (.truth ·.regs.f.sign)),
    ("flags.z", (.truth ·.regs.f.zero)),
    ("flags.y", (.truth ·.regs.f.bit5)),
    ("flags.h", (.truth ·.regs.f.half)),
    ("flags.x", (.truth ·.regs.f.bit3)),
    ("flags.p", (.truth ·.regs.f.parity)),
    ("flags.n", (.truth ·.regs.f.subtract)),
    ("flags.c", (.truth ·.regs.f.carry))]

/-- The requested jump as a signed number. -/
def pendingNumber (cpu : Cpu) : Int32 :=
  match cpu.newPc with
  | some target => .ofInt target.toNat
  | none => -1

/-- The interrupt state and what waits for the boundary. -/
def controlProperties : List (String × (Cpu → Value)) :=
  [("iff1", (.truth ·.regs.iff1)),
    ("iff2", (.truth ·.regs.iff2)),
    ("im", (.byte ·.regs.im)),
    ("vector_base", (.byte ·.regs.vectorBase)),
    ("nmi_pending", (.truth ·.control.nonMaskable)),
    ("int_pending", (.truth ·.control.interruptPending)),
    ("halted", (.truth ·.isHalted)),
    ("pending_pc", (.signed ·.pendingNumber))]

end Cpu

instance : Inspectable Cpu where
  properties :=
    Cpu.bankProperties ++ Cpu.alternateProperties ++ Cpu.registerProperties ++
      Cpu.flagProperties ++ Cpu.controlProperties

end Z80
