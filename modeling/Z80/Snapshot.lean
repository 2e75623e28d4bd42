import Z80.Cpu
import Z80.Snapshot.Field

/-!
# Snapshots of a processor

A snapshot is a flat sequence of bytes: the tag of its layout and every
register in a fixed order.  Fields that no longer mean anything are written as
zero and skipped.  The processor model is not part of a snapshot.
-/

namespace Z80

namespace Snapshot

/-! ## Writing -/

/-- The words at the start of every layout. -/
def leadingWords (regs : Registers) : List UInt16 :=
  [regs.pc, regs.af, regs.bc, regs.de, regs.hl, regs.sp, regs.ix, regs.iy,
    regs.alternate.af, regs.alternate.bc, regs.alternate.de,
    regs.alternate.hl]

/-- The pending jump as a field: the target, or all ones for none. -/
def pendingField : Option UInt16 → UInt32
  | some target => target.toUInt32
  | none => 0xFFFFFFFF

def latchByte (value : Bool) : UInt8 :=
  if value then 1 else 0

def registerBytes (version : Version) (regs : Registers) : List UInt8 :=
  (leadingWords regs).flatMap wordBytes ++
    [regs.i, regs.r &&& 0x7F] ++
    longBytes 0 ++
    [latchByte regs.iff1, latchByte regs.iff2, regs.r &&& 0x80, regs.im] ++
    (if version.hasScratchByte then [0] else []) ++
    [regs.vectorBase]

def controlBytes (version : Version) (control : Control)
    (newPc : Option UInt16) : List UInt8 :=
  longBytes control.persistent.bits ++
    (if version.hasPendingPc then longBytes (pendingField newPc) else [])

def encode (version : Version) (cpu : Cpu) : List UInt8 :=
  longBytes version.tag ++ registerBytes version cpu.regs ++
    controlBytes version cpu.control cpu.newPc

/-! ## Reading -/

def readBank : Reader Bank := do
  let af ← Reader.word
  let bc ← Reader.word
  let de ← Reader.word
  let hl ← Reader.word
  return (((Bank.zero.setAf af).setBc bc).setDe de).setHl hl

def readRegisters (version : Version) : Reader Registers := do
  let pc ← Reader.word
  let bank ← readBank
  let sp ← Reader.word
  let ix ← Reader.word
  let iy ← Reader.word
  let alternate ← readBank
  let i ← Reader.byte
  let counter ← Reader.byte
  let _ ← Reader.long
  let iff1 ← Reader.latch
  let iff2 ← Reader.latch
  let top ← Reader.byte
  let im ← Reader.byte
  if version.hasScratchByte then
    let _ ← Reader.byte
  let vectorBase ← Reader.byte
  return {
    toBank := bank
    alternate := alternate
    ix := ix
    iy := iy
    sp := sp
    pc := pc
    i := i
    r := (top &&& 0x80) ||| (counter &&& 0x7F)
    iff1 := iff1
    iff2 := iff2
    im := im
    vectorBase := vectorBase }

/-- The pending jump of a field.  The sign bit of the field says that there is
none. -/
def pendingOfField (field : UInt32) : Option UInt16 :=
  if field < 0x80000000 then some field.toUInt16 else none

/-- Take the control state and the pending jump.  One without the other is
dropped. -/
def readControl (version : Version) : Reader (Control × Option UInt16) := do
  let control := (Control.ofBits (← Reader.long)).persistent
  let pending ←
    if version.hasPendingPc then pendingOfField <$> Reader.long
    else pure none
  let newPc := if control.setPc then pending else none
  return ({ control with setPc := newPc.isSome }, newPc)

def readBody (version : Version) (model : Model) : Reader Cpu := do
  let regs ← readRegisters version
  let (control, newPc) ← readControl version
  return { regs := regs, control := control, newPc := newPc, model := model }

/-- The processor of the given model that a snapshot describes. -/
def decode (model : Model) (data : List UInt8) : Except Error Cpu :=
  match Reader.long data with
  | none => .error (.truncated 4 data.length)
  | some (tag, body) =>
      match Version.ofTag? tag with
      | none => .error (.unsupportedVersion tag)
      | some version =>
          match readBody version model body with
          | none => .error (.truncated version.encodedLength data.length)
          | some (cpu, []) => .ok cpu
          | some (_, _ :: _) =>
              .error (.trailingBytes version.encodedLength data.length)

end Snapshot

namespace Cpu

/-- Replace a processor by what a snapshot describes.  The processor is cleared
and reset first, and stays so when the snapshot is refused. -/
def load (cpu : Cpu) (data : List UInt8) : Except Snapshot.Error Unit × Cpu :=
  let cleared := { cpu with regs := .zero }.reset
  match Snapshot.decode cleared.model data with
  | .ok loaded => (.ok (), loaded)
  | .error error => (.error error, cleared)

end Cpu

end Z80
