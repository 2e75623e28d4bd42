import Z80.Alu.Decimal
import Z80.Alu.Shift
import Z80.Alu.Wide
import Z80.Operand

/-!
# Operations

What the opcodes of the four tables mean.  Operations name their operands but
do not hold the bytes that follow the opcode; those are fetched when the
operation runs.
-/

namespace Z80

/-- An operation of the main table.  Wherever it uses `HL`, `H`, `L` or the
byte at `(HL)`, a lead byte can put an index register in their place. -/
inductive Operation where
  | nop
  | halt
  | di
  | ei
  | ldRegister (target : Register) (source : Operand)
  | ldMemory (source : Register)
  | ldImmediate (target : Operand)
  | ldPairImmediate (target : Pair)
  | storeA (address : AddressPair)
  | loadA (address : AddressPair)
  | storeAAbsolute
  | loadAAbsolute
  | storePointerAbsolute
  | loadPointerAbsolute
  | ldStackPointer
  | push (source : StackPair)
  | pop (target : StackPair)
  | exAf
  | exx
  | exDeHl
  /-- Swap the pointer with the word on top of the stack. -/
  | exStack
  | arithmetic (op : ArithmeticOp) (source : Operand)
  | arithmeticImmediate (op : ArithmeticOp)
  | inc (target : Operand)
  | dec (target : Operand)
  | daa
  | cpl
  | scf
  | ccf
  | rotateA (op : ShiftOp)
  | addPair (source : Pair)
  | incPair (target : Pair)
  | decPair (target : Pair)
  | jp
  | jpIf (condition : Condition)
  | jpPointer
  | jr
  | jrIf (condition : Condition)
  | djnz
  | call
  | callIf (condition : Condition)
  | ret
  | retIf (condition : Condition)
  /-- Call one of the eight restart addresses, which lie eight bytes apart. -/
  | rst (slot : Fin 8)
  | outputImmediate
  | inputImmediate
  deriving DecidableEq

/-- What an operation of the bit table does to its operand. -/
inductive BitAction where
  | shift (op : ShiftOp)
  | test (index : Fin 8)
  | reset (index : Fin 8)
  | set (index : Fin 8)
  deriving DecidableEq

/-- An operation of the bit table, which follows `CB`. -/
structure BitOperation where
  action : BitAction
  operand : Operand
  deriving DecidableEq

/-- What a block operation does with each byte. -/
inductive BlockAction where
  | load
  | compare
  | input
  | output
  deriving DecidableEq

/-- A block operation.  It walks through memory upwards or downwards, and may
repeat until its counter runs out. -/
structure BlockOperation where
  action : BlockAction
  decrement : Bool
  repeats : Bool
  deriving DecidableEq

/-- An operation of the extended table, which follows `ED`. -/
inductive ExtendedOperation where
  | nop
  /-- Read port `BC` into a register, or for the flags alone. -/
  | input (target : Option Register)
  /-- Write a register to port `BC`, or a constant of the processor model. -/
  | output (source : Option Register)
  | sbcPair (source : Pair)
  | adcPair (source : Pair)
  | storePairAbsolute (source : Pair)
  | loadPairAbsolute (target : Pair)
  | neg
  /-- Return from an interrupt service routine. -/
  | retn
  | im (mode : Fin 3)
  | ldIA
  | ldRA
  | ldAI
  | ldAR
  | rrd
  | rld
  | block (op : BlockOperation)
  /-- Let the host change the registers. -/
  | tapePatch
  deriving DecidableEq

/-- The byte registers whose meaning a lead byte changes. -/
def Register.usesPointer : Register → Bool
  | .h | .l => true
  | .a | .b | .c | .d | .e => false

/-- The byte operands whose meaning a lead byte changes. -/
def Operand.usesPointer : Operand → Bool
  | .register named => named.usesPointer
  | .memory => true

/-- The operations whose meaning a lead byte changes. -/
def Operation.usesPointer : Operation → Bool
  | .ldRegister target source => target.usesPointer || source.usesPointer
  | .ldMemory _ => true
  | .ldImmediate operand | .arithmetic _ operand
  | .inc operand | .dec operand => operand.usesPointer
  | .ldPairImmediate pair | .incPair pair | .decPair pair => pair == .hl
  | .push pair | .pop pair => pair == .hl
  | .storePointerAbsolute | .loadPointerAbsolute | .ldStackPointer
  | .exStack | .addPair _ | .jpPointer => true
  | .nop | .halt | .di | .ei | .storeA _ | .loadA _ | .storeAAbsolute
  | .loadAAbsolute | .exAf | .exx | .exDeHl | .arithmeticImmediate _
  | .daa | .cpl | .scf | .ccf | .rotateA _ | .jp | .jpIf _ | .jr | .jrIf _
  | .djnz | .call | .callIf _ | .ret | .retIf _ | .rst _
  | .outputImmediate | .inputImmediate => false

end Z80
