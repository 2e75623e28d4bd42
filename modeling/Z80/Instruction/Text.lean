import Z80.Instruction.Opcode

/-!
# Text of decoded opcodes

The listing of an opcode table: one text for each entry.
-/

namespace Z80

namespace Listing

/-- A name applied to arguments in parentheses. -/
def applied (name : String) (arguments : List String) : String :=
  name ++ "(" ++ ", ".intercalate arguments ++ ")"

def optionText : Option String → String
  | none => "None"
  | some text => applied "Some" [text]

/-- A record with its named fields in braces. -/
def recordText (name : String) (fields : List (String × String)) : String :=
  let items := fields.map fun field => field.1 ++ ": " ++ field.2
  name ++ " \x7b " ++ ", ".intercalate items ++ " \x7d"

end Listing

open Listing

def Register.text : Register → String
  | .b => "B"
  | .c => "C"
  | .d => "D"
  | .e => "E"
  | .h => "H"
  | .l => "L"
  | .a => "A"

def Operand.text : Operand → String
  | .register named => applied "Reg" [named.text]
  | .memory => "Mem"

def Pair.text : Pair → String
  | .bc => "Bc"
  | .de => "De"
  | .hl => "Hl"
  | .sp => "Sp"

def StackPair.text : StackPair → String
  | .bc => "Bc"
  | .de => "De"
  | .hl => "Hl"
  | .af => "Af"

def AddressPair.text : AddressPair → String
  | .bc => "Bc"
  | .de => "De"

def Condition.text : Condition → String
  | .nonZero => "Nz"
  | .zero => "Z"
  | .noCarry => "Nc"
  | .carry => "C"
  | .parityOdd => "Po"
  | .parityEven => "Pe"
  | .plus => "P"
  | .minus => "M"

def ArithmeticOp.text : ArithmeticOp → String
  | .add => "Add"
  | .adc => "Adc"
  | .sub => "Sub"
  | .sbc => "Sbc"
  | .and => "And"
  | .xor => "Xor"
  | .or => "Or"
  | .cp => "Cp"

def ShiftOp.text : ShiftOp → String
  | .rlc => "Rlc"
  | .rrc => "Rrc"
  | .rl => "Rl"
  | .rr => "Rr"
  | .sla => "Sla"
  | .sra => "Sra"
  | .sll => "Sll"
  | .srl => "Srl"

def Operation.text : Operation → String
  | .nop => "Nop"
  | .halt => "Halt"
  | .di => "Di"
  | .ei => "Ei"
  | .ldRegister target source =>
      applied "Ld" [applied "Reg" [target.text], source.text]
  | .ldMemory source => applied "Ld" ["Mem", applied "Reg" [source.text]]
  | .ldImmediate target => applied "LdImm" [target.text]
  | .ldPairImmediate target => applied "LdPairImm" [target.text]
  | .storeA address => applied "StoreAIndirect" [address.text]
  | .loadA address => applied "LoadAIndirect" [address.text]
  | .storeAAbsolute => "StoreAAbsolute"
  | .loadAAbsolute => "LoadAAbsolute"
  | .storePointerAbsolute => "StoreHlAbsolute"
  | .loadPointerAbsolute => "LoadHlAbsolute"
  | .ldStackPointer => "LdSpHl"
  | .push source => applied "Push" [source.text]
  | .pop target => applied "Pop" [target.text]
  | .exAf => "ExAfAf"
  | .exx => "Exx"
  | .exDeHl => "ExDeHl"
  | .exStack => "ExSpHl"
  | .arithmetic op source => applied "Alu" [op.text, source.text]
  | .arithmeticImmediate op => applied "AluImm" [op.text]
  | .inc target => applied "Inc" [target.text]
  | .dec target => applied "Dec" [target.text]
  | .daa => "Daa"
  | .cpl => "Cpl"
  | .scf => "Scf"
  | .ccf => "Ccf"
  | .rotateA op => applied "RotateA" [op.text]
  | .addPair source => applied "AddHl" [source.text]
  | .incPair target => applied "IncPair" [target.text]
  | .decPair target => applied "DecPair" [target.text]
  | .jp => "Jp"
  | .jpIf condition => applied "JpCond" [condition.text]
  | .jpPointer => "JpHl"
  | .jr => "Jr"
  | .jrIf condition => applied "JrCond" [condition.text]
  | .djnz => "Djnz"
  | .call => "Call"
  | .callIf condition => applied "CallCond" [condition.text]
  | .ret => "Ret"
  | .retIf condition => applied "RetCond" [condition.text]
  | .rst slot => applied "Rst" [toString (slot.val * 8)]
  | .outputImmediate => "OutImmA"
  | .inputImmediate => "InAImm"

def Index.leadText : Index → String
  | .ix => "PrefixDd"
  | .iy => "PrefixFd"

def Opcode.text : Opcode → String
  | .operation op => op.text
  | .bitLead => "PrefixCb"
  | .extendedLead => "PrefixEd"
  | .indexLead index => index.leadText

def IndexedOpcode.text : IndexedOpcode → String
  | .operation op => op.text
  | .bitLead => "PrefixCb"
  | .leadIgnored => "IgnorePrefix"

def BitAction.text : BitAction → String
  | .shift op => applied "Shift" [op.text]
  | .test index => applied "Bit" [toString index.val]
  | .reset index => applied "Res" [toString index.val]
  | .set index => applied "Set" [toString index.val]

def BitOperation.text (op : BitOperation) : String :=
  recordText "CbOp" [("kind", op.action.text), ("operand", op.operand.text)]

def BlockAction.text : BlockAction → String
  | .load => "Ld"
  | .compare => "Cp"
  | .input => "In"
  | .output => "Out"

def BlockOperation.text (op : BlockOperation) : String :=
  recordText "BlockOp"
    [("kind", op.action.text),
      ("decrement", toString op.decrement),
      ("repeat", toString op.repeats)]

def ExtendedOperation.text : ExtendedOperation → String
  | .nop => "Nop"
  | .input target => applied "InC" [optionText (target.map Register.text)]
  | .output source => applied "OutC" [optionText (source.map Register.text)]
  | .sbcPair source => applied "SbcHl" [source.text]
  | .adcPair source => applied "AdcHl" [source.text]
  | .storePairAbsolute source => applied "StorePairAbsolute" [source.text]
  | .loadPairAbsolute target => applied "LoadPairAbsolute" [target.text]
  | .neg => "Neg"
  | .retn => "Retn"
  | .im mode => applied "Im" [toString mode.val]
  | .ldIA => "LdIA"
  | .ldRA => "LdRA"
  | .ldAI => "LdAI"
  | .ldAR => "LdAR"
  | .rrd => "Rrd"
  | .rld => "Rld"
  | .block op => applied "Block" [op.text]
  | .tapePatch => "TapePatch"

inductive OpcodeTable where
  | main
  | indexed
  | bits
  | extended

def OpcodeTable.entry (table : OpcodeTable) (opcode : UInt8) : String :=
  match table with
  | .main => (Opcode.ofByte opcode).text
  | .indexed => (IndexedOpcode.ofByte opcode).text
  | .bits => (BitOperation.ofByte opcode).text
  | .extended => (ExtendedOperation.ofByte opcode).text

end Z80
