import Z80.Instruction
import Z80.Memory

/-!
# Durations of instructions

The clock cycles that an instruction takes without wait states, its opcode
fetches included, as the tables of the processor give them.
-/

namespace Z80

namespace Operation

/-- The duration without a lead byte. -/
def tStates (op : Operation) (regs : Registers) : Nat :=
  match op with
  | .nop | .halt | .di | .ei | .exAf | .exx | .exDeHl | .daa | .cpl | .scf
  | .ccf | .rotateA _ | .jpPointer => 4
  | .ldRegister _ (.register _) | .arithmetic _ (.register _)
  | .inc (.register _) | .dec (.register _) => 4
  | .incPair _ | .decPair _ | .ldStackPointer => 6
  | .ldRegister _ .memory | .ldMemory _ | .arithmetic _ .memory => 7
  | .ldImmediate (.register _) | .arithmeticImmediate _ | .storeA _
  | .loadA _ => 7
  | .ldImmediate .memory | .ldPairImmediate _ | .jp | .jpIf _ | .pop _
  | .ret => 10
  | .inc .memory | .dec .memory | .addPair _ | .push _ | .rst _
  | .inputImmediate | .outputImmediate => 11
  | .storeAAbsolute | .loadAAbsolute => 13
  | .storePointerAbsolute | .loadPointerAbsolute => 16
  | .exStack => 19
  | .jr => 12
  | .jrIf condition => if condition.holds regs.f then 12 else 7
  | .djnz => if regs.b = 1 then 8 else 13
  | .call => 17
  | .callIf condition => if condition.holds regs.f then 17 else 10
  | .retIf condition => if condition.holds regs.f then 11 else 5

/-- The duration behind an index lead. -/
def indexedTStates (op : Operation) (regs : Registers) : Nat :=
  match op with
  | .ldRegister _ .memory | .ldMemory _ | .ldImmediate .memory
  | .arithmetic _ .memory => 19
  | .inc .memory | .dec .memory => 23
  | op => op.tStates regs + 4

end Operation

namespace BitOperation

def tStates (op : BitOperation) : Nat :=
  match op.operand with
  | .register _ => 8
  | .memory => if op.action.isTest then 12 else 15

/-- The duration on an indexed byte. -/
def indexedTStates (op : BitOperation) : Nat :=
  if op.action.isTest then 20 else 23

end BitOperation

namespace BlockOperation

/-- Whether another round follows the one that starts from these registers. -/
def StartsAgain (op : BlockOperation) (regs : Registers) (ram : Memory) : Prop :=
  op.repeats = true ∧
    match op.action with
    | .load => regs.bc ≠ 1
    | .compare => regs.bc ≠ 1 ∧ ram.get regs.hl ≠ regs.a
    | .input | .output => regs.b ≠ 1

instance (op : BlockOperation) (regs : Registers) (ram : Memory) :
    Decidable (op.StartsAgain regs ram) := by
  unfold StartsAgain
  split <;> infer_instance

def tStates (op : BlockOperation) (regs : Registers) (ram : Memory) : Nat :=
  if op.StartsAgain regs ram then 21 else 16

end BlockOperation

def ExtendedOperation.tStates (op : ExtendedOperation) (regs : Registers)
    (ram : Memory) : Nat :=
  match op with
  | .nop | .neg | .im _ | .tapePatch => 8
  | .ldIA | .ldRA | .ldAI | .ldAR => 9
  | .input _ | .output _ => 12
  | .retn => 14
  | .sbcPair _ | .adcPair _ => 15
  | .rrd | .rld => 18
  | .storePairAbsolute _ | .loadPairAbsolute _ => 20
  | .block op => op.tStates regs ram

def Instruction.tStates (instruction : Instruction) (regs : Registers)
    (ram : Memory) : Nat :=
  match instruction with
  | .main .hl op => op.tStates regs
  | .main (.index _) op => op.indexedTStates regs
  | .bits op => op.tStates
  | .indexedBits _ _ op => op.indexedTStates
  | .extended op => op.tStates regs ram
  | .ignoredLead => 8

end Z80
