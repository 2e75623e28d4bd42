import Z80.Proofs.Snapshot.Reader
import Z80.Snapshot

/-!
# Snapshots read back

Reading a snapshot gives the processor that was written, register for register.
Two things are lost on the way: the control bit that the next instruction
overwrites anyway, and in the first layout the requested jump.

Main statement: `Cpu.load_encode`, for every layout and every processor whose
jump bit agrees with its jump target.
-/

namespace Z80

namespace Snapshot

/-! ## Single fields -/

private theorem joinRefresh (r : UInt8) :
    ((r &&& 0x80) &&& 0x80) ||| ((r &&& 0x7F) &&& 0x7F) = r := by
  rw [UInt8.and_assoc, UInt8.and_assoc]
  apply UInt8.eq_of_toBitVec_eq
  show (r.toBitVec &&& 0x80#8) ||| (r.toBitVec &&& 0x7F#8) = r.toBitVec
  rw [← BitVec.and_or_distrib_left]
  exact BitVec.and_allOnes

@[simp]
theorem latchByte_ne_zero (value : Bool) : (latchByte value != 0) = value := by
  cases value <;> rfl

@[simp]
theorem pendingOfField_pendingField (newPc : Option UInt16) :
    pendingOfField (pendingField newPc) = newPc := by
  cases newPc with
  | none => rfl
  | some target =>
      have small : target.toUInt32 < 0x80000000 := by
        rw [UInt32.lt_iff_toNat_lt]
        have bound := target.toNat_lt
        simp only [UInt16.toNat_toUInt32, UInt32.reduceToNat]
        omega
      simp [pendingField, pendingOfField, small]

/-! ## The parts of a snapshot -/

private theorem bank_of_words (bank : Bank) :
    (((Bank.zero.setAf bank.af).setBc bank.bc).setDe bank.de).setHl bank.hl =
      bank := by
  simp only [Bank.setAf, Bank.setBc, Bank.setDe, Bank.setHl, Bank.af, Bank.bc,
    Bank.de, Bank.hl, Word.high_ofBytes, Word.low_ofBytes, Flags.ofByte_toByte]

private theorem readBank_restores (bank : Bank) :
    Reader.Restores readBank
      (wordBytes bank.af ++ (wordBytes bank.bc ++
        (wordBytes bank.de ++ wordBytes bank.hl))) bank := by
  have restored : Reader.Restores readBank _ _ :=
    (Reader.Restores.word bank.af).bind <|
    (Reader.Restores.word bank.bc).bind <|
    (Reader.Restores.word bank.de).bind <|
    (Reader.Restores.word bank.hl).bind <| .pure _
  exact restored.of_eq (by rw [List.append_nil]) (bank_of_words bank)

private theorem readRegisters_restores (version : Version) (regs : Registers) :
    Reader.Restores (readRegisters version) (registerBytes version regs)
      regs := by
  have restored : Reader.Restores (readRegisters version) _ _ :=
    (Reader.Restores.word regs.pc).bind <|
    (readBank_restores regs.toBank).bind <|
    (Reader.Restores.word regs.sp).bind <|
    (Reader.Restores.word regs.ix).bind <|
    (Reader.Restores.word regs.iy).bind <|
    (readBank_restores regs.alternate).bind <|
    (Reader.Restores.byte regs.i).bind <|
    (Reader.Restores.byte (regs.r &&& 0x7F)).bind <|
    (Reader.Restores.long 0).bind <|
    (Reader.Restores.latch (latchByte regs.iff1)).bind <|
    (Reader.Restores.latch (latchByte regs.iff2)).bind <|
    (Reader.Restores.byte (regs.r &&& 0x80)).bind <|
    (Reader.Restores.byte regs.im).bind <|
    .branch version.hasScratchByte
      ((Reader.Restores.byte 0).bind <|
        (Reader.Restores.byte regs.vectorBase).bind <| .pure _)
      ((Reader.Restores.byte regs.vectorBase).bind <| .pure _)
  refine restored.of_eq ?_ ?_
  · cases version <;>
      simp [registerBytes, leadingWords, Version.hasScratchByte]
  · simp only [latchByte_ne_zero, joinRefresh, ite_self]

/-- What a layout keeps of a requested jump. -/
def keptPc (version : Version) (newPc : Option UInt16) : Option UInt16 :=
  if version.hasPendingPc then newPc else none

private theorem readControl_restores (version : Version) (control : Control)
    (newPc : Option UInt16) (agrees : control.setPc = newPc.isSome) :
    Reader.Restores (readControl version) (controlBytes version control newPc)
      ({ control.persistent with setPc := (keptPc version newPc).isSome },
        keptPc version newPc) := by
  have targetKept : (if control.setPc then newPc else none) = newPc := by
    rw [agrees]
    cases newPc <;> rfl
  have restored : Reader.Restores (readControl version) _ _ :=
    (Reader.Restores.long control.persistent.bits).bind <|
    .branch version.hasPendingPc
      (((Reader.Restores.long (pendingField newPc)).map pendingOfField).bind <|
        .pure _)
      ((Reader.Restores.pure none).bind <| .pure _)
  refine restored.of_eq ?_ ?_
  · cases version <;> simp [controlBytes, Version.hasPendingPc]
  · cases version <;> simp [Version.hasPendingPc, keptPc, targetKept]

theorem ofTag?_tag (version : Version) :
    Version.ofTag? version.tag = some version := by
  cases version <;> rfl

/-- A snapshot is read back as the processor that was written, but for what its
layout does not keep. -/
theorem decode_encode (version : Version) (model : Model) (cpu : Cpu)
    (agrees : cpu.JumpAgrees) :
    decode model (encode version cpu) =
      .ok { regs := cpu.regs
            control :=
              { cpu.control.persistent with
                setPc := (keptPc version cpu.newPc).isSome }
            newPc := keptPc version cpu.newPc
            model := model } := by
  have body : Reader.Restores (readBody version model) _ _ :=
    (readRegisters_restores version cpu.regs).bind <|
    (readControl_restores version cpu.control cpu.newPc agrees).bind <|
    .pure _
  have bodyRead := body []
  rw [List.append_nil, List.append_nil] at bodyRead
  rw [decode, encode, List.append_assoc, Reader.long_longBytes]
  simp only [ofTag?_tag, bodyRead]

theorem length_encode (version : Version) (cpu : Cpu) :
    (encode version cpu).length = version.encodedLength := by
  cases version <;>
    simp [encode, registerBytes, controlBytes, leadingWords,
      Version.encodedLength, Version.hasScratchByte, Version.hasPendingPc]

end Snapshot

namespace Cpu

open Snapshot

/-! ## Whole processors -/

theorem load_of_decode {cpu loaded : Cpu} {data : List UInt8}
    (decoded : decode cpu.model data = .ok loaded) :
    cpu.load data = (.ok (), loaded) := by
  have decodedCleared :
      decode ({ cpu with regs := .zero }.reset).model data = .ok loaded :=
    decoded
  simp only [load, decodedCleared]

theorem load_encode_kept (version : Version) (cpu target : Cpu)
    (agrees : cpu.JumpAgrees) :
    target.load (encode version cpu) =
      (.ok (),
        { regs := cpu.regs
          control :=
            { cpu.control.persistent with
              setPc := (keptPc version cpu.newPc).isSome }
          newPc := keptPc version cpu.newPc
          model := target.model }) :=
  load_of_decode (decode_encode version target.model cpu agrees)

/-- The control state that is kept has its jump bit already, when the bit
agrees with the target. -/
theorem persistent_with_jump (cpu : Cpu) (agrees : cpu.JumpAgrees) :
    { cpu.control.persistent with setPc := cpu.newPc.isSome } =
      cpu.control.persistent := by
  rw [← agrees]
  rfl

/-- A snapshot has the length of its layout, and loading it into any processor
of any state succeeds.  The processor keeps its own model and takes everything
else from the one that was saved: all registers, the persistent control bits
and the requested jump, which the first layout drops.  So without a requested
jump the layouts all mean the same. -/
theorem load_encode (version : Version) (cpu target : Cpu)
    (agrees : cpu.JumpAgrees) :
    (encode version cpu).length = version.encodedLength ∧
      (version ≠ .v0 →
        target.load (encode version cpu) =
          (.ok (),
            { cpu with
              control := cpu.control.persistent
              model := target.model })) ∧
      (version = .v0 →
        target.load (encode version cpu) =
          (.ok (),
            { cpu with
              control := { cpu.control.persistent with setPc := false }
              newPc := none
              model := target.model })) ∧
      (cpu.newPc = none →
        ∀ other : Version,
          target.load (encode other cpu) =
            target.load (encode version cpu)) := by
  have loaded := load_encode_kept version cpu target agrees
  refine ⟨length_encode version cpu, ?_, ?_, ?_⟩
  · intro later
    have kept : keptPc version cpu.newPc = cpu.newPc := by
      cases version with
      | v0 => exact absurd rfl later
      | v1 => rfl
      | v2 => rfl
    rw [loaded, kept, persistent_with_jump cpu agrees]
  · intro first
    subst first
    exact loaded
  · intro noJump other
    have nothingKept :
        ∀ layout : Version, keptPc layout cpu.newPc = none := by
      intro layout
      rw [noJump]
      cases layout <;> rfl
    rw [loaded, load_encode_kept other cpu target agrees, nothingKept,
      nothingKept]

theorem load_encode_jumping :
    ((Cpu.new .nmos).setProgramCounter 0x8000).JumpAgrees ∧
      (Cpu.new .cmos).load
          (encode .v1 ((Cpu.new .nmos).setProgramCounter 0x8000)) =
        (.ok (), (Cpu.new .cmos).setProgramCounter 0x8000) := by
  refine ⟨rfl, ?_⟩
  have roundTrip :=
    load_encode .v1 ((Cpu.new .nmos).setProgramCounter 0x8000) (.new .cmos) rfl
  exact roundTrip.2.1 (by decide)

end Cpu

end Z80
