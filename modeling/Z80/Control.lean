import Z80.Instruction

/-!
# Control state

The processor's own state beside the registers: what is asked of it at the
next instruction boundary, and whether it is halted.  The word form of this
state is part of the snapshot format.
-/

namespace Z80

/-- The control bits, from bit 0 upwards. -/
structure Control where
  /-- The last instruction lets a maskable interrupt in at its end. -/
  checkInterrupt : Bool
  interruptPending : Bool
  halted : Bool
  /-- The host holds the interrupt line. -/
  interruptLine : Bool
  /-- A non-maskable interrupt is latched. -/
  nonMaskable : Bool
  /-- A jump was requested from outside. -/
  setPc : Bool
  deriving DecidableEq

namespace Control

def none : Control :=
  ⟨false, false, false, false, false, false⟩

def bits (control : Control) : UInt32 :=
  UInt32.ofNat
    (control.checkInterrupt.toNat + control.interruptPending.toNat * 2 +
      control.halted.toNat * 4 + control.interruptLine.toNat * 8 +
      control.nonMaskable.toNat * 16 + control.setPc.toNat * 32)

/-- The control state of a word; bits without a meaning are dropped. -/
def ofBits (word : UInt32) : Control where
  checkInterrupt := word.toNat.testBit 0
  interruptPending := word.toNat.testBit 1
  halted := word.toNat.testBit 2
  interruptLine := word.toNat.testBit 3
  nonMaskable := word.toNat.testBit 4
  setPc := word.toNat.testBit 5

private theorem ofBits_bits_mk :
    ∀ checkInterrupt interruptPending halted interruptLine nonMaskable
      setPc : Bool,
      ofBits (bits ⟨checkInterrupt, interruptPending, halted, interruptLine,
          nonMaskable, setPc⟩) =
        ⟨checkInterrupt, interruptPending, halted, interruptLine, nonMaskable,
          setPc⟩ := by
  decide

@[simp]
theorem ofBits_bits (control : Control) : ofBits (bits control) = control :=
  ofBits_bits_mk control.checkInterrupt control.interruptPending control.halted
    control.interruptLine control.nonMaskable control.setPc

/-- The part of the control state that snapshots keep. -/
def persistent (control : Control) : Control :=
  { control with checkInterrupt := false }

@[simp]
theorem persistent_persistent (control : Control) :
    control.persistent.persistent = control.persistent :=
  rfl

@[simp]
theorem setPc_persistent (control : Control) :
    control.persistent.setPc = control.setPc :=
  rfl

/-- Whether the word has only bits with a meaning. -/
def isExact (word : UInt32) : Bool :=
  bits (ofBits word) == word

/-- The control state after an instruction of the given boundary. -/
def after (control : Control) : Boundary → Control
  | .plain | .sampling => { control with checkInterrupt := true }
  | .shielded => { control with checkInterrupt := false }
  | .halting => { control with checkInterrupt := true, halted := true }

@[simp]
theorem after_persistent (control : Control) (boundary : Boundary) :
    control.persistent.after boundary = control.after boundary := by
  cases boundary <;> rfl

@[simp]
theorem setPc_after (control : Control) (boundary : Boundary) :
    (control.after boundary).setPc = control.setPc := by
  cases boundary <;> rfl

@[simp]
theorem nonMaskable_after (control : Control) (boundary : Boundary) :
    (control.after boundary).nonMaskable = control.nonMaskable := by
  cases boundary <;> rfl

@[simp]
theorem interruptPending_after (control : Control) (boundary : Boundary) :
    (control.after boundary).interruptPending = control.interruptPending := by
  cases boundary <;> rfl

@[simp]
theorem checkInterrupt_after (control : Control) (boundary : Boundary) :
    (control.after boundary).checkInterrupt = decide (boundary ≠ .shielded) := by
  cases boundary <;> rfl

def assertInterrupt (control : Control) : Control :=
  { control with interruptLine := true, interruptPending := true }

def releaseInterrupt (control : Control) : Control :=
  { control with interruptLine := false, interruptPending := false }

def latch (control : Control) (requests : Requests) : Control :=
  { control with
    interruptLine := control.interruptLine || requests.interrupt
    interruptPending := control.interruptPending || requests.interrupt
    nonMaskable := control.nonMaskable || requests.nonMaskable }

@[simp]
theorem latch_none (control : Control) : control.latch .none = control := by
  simp [latch, Requests.none]

end Control

end Z80
