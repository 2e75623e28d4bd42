import Z80.Execute.Bits

/-!
# What operands name

Writing to an operand changes the bank in use, an index register or the stack
pointer, and nothing else.
-/

namespace Z80.Registers

/-- The registers that no operand names. -/
def unnamed (regs : Registers) : Registers :=
  { regs with toBank := .zero, ix := 0, iy := 0, sp := 0 }

variable (regs : Registers) (pointer : Pointer)

@[simp]
theorem unnamed_setPointer (word : UInt16) :
    (regs.setPointer pointer word).unnamed = regs.unnamed := by
  cases pointer with
  | hl => rfl
  | index index => cases index <;> rfl

@[simp]
theorem unnamed_set (target : Register) (byte : UInt8) :
    (regs.set pointer target byte).unnamed = regs.unnamed := by
  cases target with
  | h => exact unnamed_setPointer regs pointer _
  | l => exact unnamed_setPointer regs pointer _
  | _ => rfl

@[simp]
theorem unnamed_setPair (target : Pair) (word : UInt16) :
    (regs.setPair pointer target word).unnamed = regs.unnamed := by
  cases target with
  | hl => exact unnamed_setPointer regs pointer word
  | _ => rfl

@[simp]
theorem unnamed_setStackPair (target : StackPair) (word : UInt16) :
    (regs.setStackPair pointer target word).unnamed = regs.unnamed := by
  cases target with
  | hl => exact unnamed_setPointer regs pointer word
  | _ => rfl

@[simp]
theorem unnamed_copyTo (byte : UInt8) (target : Operand) :
    (target.copyTo regs byte).unnamed = regs.unnamed := by
  cases target with
  | register target => exact unnamed_set regs .hl target byte
  | memory => rfl

end Z80.Registers
