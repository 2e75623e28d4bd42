import Z80.Microcode

/-!
# The stack

The stack grows downwards and holds words, low byte at the lower address.
-/

namespace Z80

namespace Registers

/-- Push a word: one internal cycle, then the high byte and the low byte. -/
def push (regs : Registers) (word : UInt16) : Microcode Registers := do
  let sp := regs.sp - 2
  Microcode.internal 1
  Microcode.writeMemory (sp + 1) (Word.high word)
  Microcode.writeMemory sp (Word.low word)
  return { regs with sp := sp }

def pop (regs : Registers) : Microcode (UInt16 × Registers) := do
  let word ← Microcode.readWord regs.sp
  return (word, { regs with sp := regs.sp + 2 })

def popPc (regs : Registers) : Microcode Registers := do
  let (word, regs) ← regs.pop
  return { regs with pc := word }

/-- Push a return address and go elsewhere. -/
def pushPc (regs : Registers) (returnAddress target : UInt16) :
    Microcode Registers := do
  let regs ← regs.push returnAddress
  return { regs with pc := target }

end Registers

end Z80
