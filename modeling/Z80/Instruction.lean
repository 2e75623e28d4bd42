import Z80.Execute.Bits
import Z80.Execute.Extended
import Z80.Instruction.Opcode

/-!
# Instructions

An instruction is an operation together with the lead bytes that came before
its opcode.  It is fetched, it counts refresh cycles, and it runs.
-/

namespace Z80

inductive Instruction where
  | main (pointer : Pointer) (op : Operation)
  | bits (op : BitOperation)
  | indexedBits (index : Index) (displacement : UInt8) (op : BitOperation)
  | extended (op : ExtendedOperation)
  /-- An index lead in front of an opcode that has no use for it.  The lead
  alone is skipped. -/
  | ignoredLead
  deriving DecidableEq

/-- What an instruction means for the interrupts at its end. -/
inductive Boundary where
  | plain
  /-- No maskable interrupt is accepted at the end. -/
  | shielded
  | halting
  /-- The instruction sampled the interrupt enable latch while it ran. -/
  | sampling
  deriving DecidableEq

namespace Instruction

open Microcode

/-- Fetch the opcode behind an index lead.  In the bit table a displacement
comes before the opcode. -/
def fetchIndexed (pc : UInt16) (index : Index) : Microcode Instruction := do
  let opcode ← fetchSecond pc
  match IndexedOpcode.ofByte opcode with
  | .operation op => return .main (.index index) op
  | .bitLead => do
      let displacement ← fetchByte pc 2
      let opcode ← fetchByte pc 3
      return .indexedBits index displacement (.ofByte opcode)
  | .leadIgnored => return .ignoredLead

def fetch (pc : UInt16) : Microcode Instruction := do
  let opcode ← fetchFirst pc
  match Opcode.ofByte opcode with
  | .operation op => return .main .hl op
  | .bitLead => do
      let opcode ← fetchSecond pc
      return .bits (.ofByte opcode)
  | .extendedLead => do
      let opcode ← fetchSecond pc
      return .extended (.ofByte opcode)
  | .indexLead index => fetchIndexed pc index

/-- The number of refresh cycles that fetching an instruction takes. -/
def refreshCount : Instruction → UInt8
  | .main .hl _ | .ignoredLead => 1
  | .main (.index _) _ | .bits _ | .indexedBits _ _ _ | .extended _ => 2

def boundary : Instruction → Boundary
  | .main _ .ei | .main _ .di | .ignoredLead => .shielded
  | .main _ .halt => .halting
  | .extended .ldAI | .extended .ldAR => .sampling
  | .main _ _ | .bits _ | .indexedBits _ _ _ | .extended _ => .plain

/-- Run an instruction after its refresh cycles have been counted. -/
def execute (instruction : Instruction) (model : Model) (regs : Registers) :
    Microcode Registers :=
  match instruction with
  | .main pointer op => op.execute pointer regs
  | .bits op => op.execute regs
  | .indexedBits index displacement op =>
      op.executeIndexed index displacement regs
  | .extended op => op.execute model regs
  | .ignoredLead => return regs.advance 1

/-- Fetch and run the instruction at the program counter. -/
def perform (model : Model) (regs : Registers) :
    Microcode (Instruction × Registers) := do
  let instruction ← fetch regs.pc
  let regs ← instruction.execute model (regs.refresh instruction.refreshCount)
  return (instruction, regs)

end Instruction

end Z80
