import Z80.Control

/-!
# The processor

A processor is its registers, its control state, the jump that was requested
from outside, and its model.  This module holds what a host may do to it
between instructions.
-/

namespace Z80

structure Cpu where
  regs : Registers
  control : Control
  /-- The target of a requested jump. -/
  newPc : Option UInt16
  model : Model
  deriving DecidableEq

namespace Cpu

/-- The reset state.  The program counter, the interrupt registers and the
enable latches are cleared, the index registers are all ones and the zero flag
is set; the other registers stay as they are. -/
def reset (cpu : Cpu) : Cpu where
  regs :=
    { cpu.regs with
      pc := 0
      i := 0
      r := 0
      im := 0
      iff1 := false
      iff2 := false
      ix := 0xFFFF
      iy := 0xFFFF
      f := { cpu.regs.f with zero := true } }
  control := .none
  newPc := none
  model := cpu.model

/-- A new processor: every register zero, then reset. -/
def new (model : Model) : Cpu :=
  reset ⟨.zero, .none, none, model⟩

def isHalted (cpu : Cpu) : Bool :=
  cpu.control.halted

/-! ## Requests from outside -/

def triggerInterrupt (cpu : Cpu) : Cpu :=
  { cpu with control := cpu.control.assertInterrupt }

def clearInterrupt (cpu : Cpu) : Cpu :=
  { cpu with control := cpu.control.releaseInterrupt }

/-- Latch a non-maskable interrupt, which is taken at the next boundary. -/
def triggerNonMaskable (cpu : Cpu) : Cpu :=
  { cpu with control.nonMaskable := true }

def setVectorBase (cpu : Cpu) (byte : UInt8) : Cpu :=
  { cpu with regs.vectorBase := byte }

/-- Request a jump at the next boundary.  A request for the address where the
program already is cancels an earlier one. -/
def setProgramCounter (cpu : Cpu) (target : UInt16) : Cpu :=
  if target == cpu.regs.pc then
    { cpu with control.setPc := false, newPc := none }
  else
    { cpu with control.setPc := true, newPc := some target }

/-- The program counter as it will be once a requested jump is made. -/
def programCounter (cpu : Cpu) : UInt16 :=
  cpu.newPc.getD cpu.regs.pc

/-- The jump bit says exactly whether there is a jump to make. -/
def JumpAgrees (cpu : Cpu) : Prop :=
  cpu.control.setPc = cpu.newPc.isSome

def latch (cpu : Cpu) (requests : Requests) : Cpu :=
  { cpu with control := cpu.control.latch requests }

/-- End a halt and move on behind it. -/
def leaveHalt (cpu : Cpu) : Cpu :=
  if cpu.control.halted then
    { cpu with regs := cpu.regs.advance 1, control.halted := false }
  else
    cpu

end Cpu

end Z80
