import Z80.Instruction.Operation

/-!
# Opcodes

An opcode byte splits into a quadrant of two bits and two fields of three bits
each.  This module reads the operations of the four opcode tables off these
fields.
-/

namespace Z80

/-- The meaning of a first opcode byte. -/
inductive Opcode where
  | operation (op : Operation)
  /-- The byte that follows is in the bit table. -/
  | bitLead
  /-- The byte that follows is in the extended table. -/
  | extendedLead
  /-- The byte that follows uses an index register in place of `HL`. -/
  | indexLead (index : Index)
  deriving DecidableEq

/-- The meaning of the opcode byte after an index lead. -/
inductive IndexedOpcode where
  | operation (op : Operation)
  /-- A displacement and an opcode of the bit table follow. -/
  | bitLead
  /-- The opcode does not use `HL`, so the lead byte has no effect. -/
  | leadIgnored
  deriving DecidableEq

/-! ## Fields -/

def Opcode.quadrant (opcode : UInt8) : Fin 4 :=
  ⟨opcode.toNat / 64, by have := opcode.toNat_lt; omega⟩

def Opcode.middleField (opcode : UInt8) : Fin 8 :=
  ⟨opcode.toNat / 8 % 8, by omega⟩

def Opcode.lowField (opcode : UInt8) : Fin 8 :=
  ⟨opcode.toNat % 8, by omega⟩

/-- The register that a field names, or none for the memory operand. -/
def Register.ofField? : Fin 8 → Option Register
  | 0 => some .b
  | 1 => some .c
  | 2 => some .d
  | 3 => some .e
  | 4 => some .h
  | 5 => some .l
  | 6 => none
  | 7 => some .a

def Operand.ofField (field : Fin 8) : Operand :=
  match Register.ofField? field with
  | some named => .register named
  | none => .memory

/-- The register pair that the two high bits of a field name. -/
def Pair.ofField : Fin 8 → Pair
  | 0 | 1 => .bc
  | 2 | 3 => .de
  | 4 | 5 => .hl
  | 6 | 7 => .sp

/-- The register pair of a stack operation, named by the two high bits of a
field. -/
def StackPair.ofField : Fin 8 → StackPair
  | 0 | 1 => .bc
  | 2 | 3 => .de
  | 4 | 5 => .hl
  | 6 | 7 => .af

def Condition.ofField : Fin 8 → Condition
  | 0 => .nonZero
  | 1 => .zero
  | 2 => .noCarry
  | 3 => .carry
  | 4 => .parityOdd
  | 5 => .parityEven
  | 6 => .plus
  | 7 => .minus

def ArithmeticOp.ofField : Fin 8 → ArithmeticOp
  | 0 => .add
  | 1 => .adc
  | 2 => .sub
  | 3 => .sbc
  | 4 => .and
  | 5 => .xor
  | 6 => .or
  | 7 => .cp

def ShiftOp.ofField : Fin 8 → ShiftOp
  | 0 => .rlc
  | 1 => .rrc
  | 2 => .rl
  | 3 => .rr
  | 4 => .sla
  | 5 => .sra
  | 6 => .sll
  | 7 => .srl

def Opcode.oddField (field : Fin 8) : Bool :=
  field.val % 2 == 1

/-! ## The main table -/

/-- The first quadrant: loads of constants, counting and relative jumps. -/
def Operation.ofFirstQuadrant (middle low : Fin 8) : Operation :=
  match low with
  | 0 =>
      match middle with
      | 0 => .nop
      | 1 => .exAf
      | 2 => .djnz
      | 3 => .jr
      | 4 => .jrIf .nonZero
      | 5 => .jrIf .zero
      | 6 => .jrIf .noCarry
      | 7 => .jrIf .carry
  | 1 =>
      if Opcode.oddField middle then .addPair (.ofField middle)
      else .ldPairImmediate (.ofField middle)
  | 2 =>
      match middle with
      | 0 => .storeA .bc
      | 1 => .loadA .bc
      | 2 => .storeA .de
      | 3 => .loadA .de
      | 4 => .storePointerAbsolute
      | 5 => .loadPointerAbsolute
      | 6 => .storeAAbsolute
      | 7 => .loadAAbsolute
  | 3 =>
      if Opcode.oddField middle then .decPair (.ofField middle)
      else .incPair (.ofField middle)
  | 4 => .inc (.ofField middle)
  | 5 => .dec (.ofField middle)
  | 6 => .ldImmediate (.ofField middle)
  | 7 =>
      match middle with
      | 0 => .rotateA .rlc
      | 1 => .rotateA .rrc
      | 2 => .rotateA .rl
      | 3 => .rotateA .rr
      | 4 => .daa
      | 5 => .cpl
      | 6 => .scf
      | 7 => .ccf

/-- The second quadrant: loads between byte operands.  The load from memory
into memory is `HALT`. -/
def Operation.ofLoad (target source : Fin 8) : Operation :=
  match Register.ofField? target, Register.ofField? source with
  | some named, _ => .ldRegister named (.ofField source)
  | none, some named => .ldMemory named
  | none, none => .halt

/-- The last quadrant: jumps, calls, the stack, ports, and the lead bytes. -/
def Opcode.ofLastQuadrant (middle low : Fin 8) : Opcode :=
  match low with
  | 0 => .operation (.retIf (.ofField middle))
  | 1 =>
      match middle with
      | 1 => .operation .ret
      | 3 => .operation .exx
      | 5 => .operation .jpPointer
      | 7 => .operation .ldStackPointer
      | _ => .operation (.pop (.ofField middle))
  | 2 => .operation (.jpIf (.ofField middle))
  | 3 =>
      match middle with
      | 0 => .operation .jp
      | 1 => .bitLead
      | 2 => .operation .outputImmediate
      | 3 => .operation .inputImmediate
      | 4 => .operation .exStack
      | 5 => .operation .exDeHl
      | 6 => .operation .di
      | 7 => .operation .ei
  | 4 => .operation (.callIf (.ofField middle))
  | 5 =>
      match middle with
      | 1 => .operation .call
      | 3 => .indexLead .ix
      | 5 => .extendedLead
      | 7 => .indexLead .iy
      | _ => .operation (.push (.ofField middle))
  | 6 => .operation (.arithmeticImmediate (.ofField middle))
  | 7 => .operation (.rst middle)

def Opcode.ofByte (opcode : UInt8) : Opcode :=
  let middle := Opcode.middleField opcode
  let low := Opcode.lowField opcode
  match Opcode.quadrant opcode with
  | 0 => .operation (.ofFirstQuadrant middle low)
  | 1 => .operation (.ofLoad middle low)
  | 2 => .operation (.arithmetic (.ofField middle) (.ofField low))
  | 3 => .ofLastQuadrant middle low

/-! ## The other tables -/

/-- The meaning of the opcode byte after an index lead: the operations that
use `HL` keep their place, and in front of every other opcode the lead is
ignored. -/
def IndexedOpcode.ofByte (opcode : UInt8) : IndexedOpcode :=
  match Opcode.ofByte opcode with
  | .operation op => if op.usesPointer then .operation op else .leadIgnored
  | .bitLead => .bitLead
  | .extendedLead | .indexLead _ => .leadIgnored

def BitOperation.ofByte (opcode : UInt8) : BitOperation where
  action :=
    let middle := Opcode.middleField opcode
    match Opcode.quadrant opcode with
    | 0 => .shift (.ofField middle)
    | 1 => .test middle
    | 2 => .reset middle
    | 3 => .set middle
  operand := .ofField (Opcode.lowField opcode)

/-- The second quadrant of the extended table. -/
def ExtendedOperation.ofSecondQuadrant (middle low : Fin 8) :
    ExtendedOperation :=
  match low with
  | 0 => .input (Register.ofField? middle)
  | 1 => .output (Register.ofField? middle)
  | 2 =>
      if Opcode.oddField middle then .adcPair (.ofField middle)
      else .sbcPair (.ofField middle)
  | 3 =>
      if Opcode.oddField middle then .loadPairAbsolute (.ofField middle)
      else .storePairAbsolute (.ofField middle)
  | 4 => .neg
  | 5 => .retn
  | 6 =>
      match middle with
      | 0 | 1 | 4 | 5 => .im 0
      | 2 | 6 => .im 1
      | 3 | 7 => .im 2
  | 7 =>
      match middle with
      | 0 => .ldIA
      | 1 => .ldRA
      | 2 => .ldAI
      | 3 => .ldAR
      | 4 => .rrd
      | 5 => .rld
      | 6 | 7 => .nop

/-- The block operation that a low field names, if any. -/
def BlockAction.ofField? : Fin 8 → Option BlockAction
  | 0 => some .load
  | 1 => some .compare
  | 2 => some .input
  | 3 => some .output
  | 4 | 5 | 6 | 7 => none

/-- The third quadrant of the extended table: the block operations sit in its
corner, and the rest is empty. -/
def ExtendedOperation.ofThirdQuadrant (middle low : Fin 8) :
    ExtendedOperation :=
  match BlockAction.ofField? low with
  | some action =>
      if 4 ≤ middle then
        .block
          { action := action, decrement := Opcode.oddField middle, repeats := 6 ≤ middle }
      else
        .nop
  | none => .nop

def ExtendedOperation.ofByte (opcode : UInt8) : ExtendedOperation :=
  let middle := Opcode.middleField opcode
  let low := Opcode.lowField opcode
  match Opcode.quadrant opcode with
  | 0 => .nop
  | 1 => .ofSecondQuadrant middle low
  | 2 => .ofThirdQuadrant middle low
  | 3 => if opcode == 0xFE then .tapePatch else .nop

end Z80
