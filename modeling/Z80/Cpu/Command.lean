import Z80.Cpu.Step
import Z80.Snapshot

/-!
# Commands

Everything that a host may do to a processor, as data: run an instruction,
raise and clear requests, and replace its state.  What a processor goes through
between two moments is then a list of commands.
-/

namespace Z80

inductive Command where
  /-- Run one instruction and serve what is due at its boundary. -/
  | step
  | triggerInterrupt
  | clearInterrupt
  | triggerNonMaskable
  | setProgramCounter (target : UInt16)
  | setVectorBase (byte : UInt8)
  | reset
  /-- Load a snapshot, whether it is accepted or not. -/
  | load (data : List UInt8)
  deriving DecidableEq

namespace Command

variable {σ : Type}

/-- Carry out a command on a processor and the state of its bus. -/
def apply (bus : Bus σ) (command : Command) (current : Cpu × σ) : Cpu × σ :=
  let (cpu, state) := current
  match command with
  | .step => cpu.step bus state
  | .triggerInterrupt => (cpu.triggerInterrupt, state)
  | .clearInterrupt => (cpu.clearInterrupt, state)
  | .triggerNonMaskable => (cpu.triggerNonMaskable, state)
  | .setProgramCounter target => (cpu.setProgramCounter target, state)
  | .setVectorBase byte => (cpu.setVectorBase byte, state)
  | .reset => (cpu.reset, state)
  | .load data => ((cpu.load data).2, state)

def run (bus : Bus σ) : List Command → Cpu × σ → Cpu × σ
  | [], current => current
  | command :: rest, current => run bus rest (command.apply bus current)

theorem run_append (bus : Bus σ) (first second : List Command)
    (current : Cpu × σ) :
    run bus (first ++ second) current = run bus second (run bus first current) := by
  induction first generalizing current with
  | nil => rfl
  | cons command rest inductionHypothesis => exact inductionHypothesis _

end Command

end Z80
