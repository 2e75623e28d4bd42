import Z80.Instruction

/-!
# Lengths of instructions

The bytes that belong to an instruction: its lead bytes and opcode, the
displacement of an indexed operand, and the constants behind them.
-/

namespace Z80

namespace Operation

/-- The operations with a memory operand that the pointer addresses.  Behind an
index lead they have a displacement byte. -/
def addressesMemory : Operation → Bool
  | .ldRegister _ .memory | .ldMemory _ | .ldImmediate .memory
  | .arithmetic _ .memory | .inc .memory | .dec .memory => true
  | _ => false

/-- The number of bytes of a constant behind the opcode and displacement. -/
def constantBytes : Operation → Nat
  | .ldImmediate _ | .arithmeticImmediate _ | .jr | .jrIf _ | .djnz
  | .outputImmediate | .inputImmediate => 1
  | .ldPairImmediate _ | .storeAAbsolute | .loadAAbsolute
  | .storePointerAbsolute | .loadPointerAbsolute | .jp | .jpIf _ | .call
  | .callIf _ => 2
  | _ => 0

/-- The number of bytes behind the opcode. -/
def operandBytes (op : Operation) : Pointer → Nat
  | .hl => op.constantBytes
  | .index _ => op.addressesMemory.toNat + op.constantBytes

end Operation

def ExtendedOperation.operandBytes : ExtendedOperation → Nat
  | .storePairAbsolute _ | .loadPairAbsolute _ => 2
  | _ => 0

namespace Instruction

/-- The number of bytes that say which instruction it is. -/
def opcodeBytes : Instruction → Nat
  | .main .hl _ => 1
  | .main (.index _) _ | .bits _ | .extended _ | .ignoredLead => 2
  | .indexedBits _ _ _ => 4

/-- The number of bytes that are fetched when the instruction runs. -/
def operandBytes : Instruction → Nat
  | .main pointer op => op.operandBytes pointer
  | .extended op => op.operandBytes
  | .bits _ | .indexedBits _ _ _ | .ignoredLead => 0

/-- The number of bytes that are fetched for an instruction.  Behind an index
lead without effect that is one byte more than the instruction has. -/
def length (instruction : Instruction) : Nat :=
  instruction.opcodeBytes + instruction.operandBytes

end Instruction

/-- A number of consecutive addresses, wrapping at the top. -/
def Word.span (address : UInt16) : Nat → List UInt16
  | 0 => []
  | count + 1 => address :: Word.span (address + 1) count

end Z80
