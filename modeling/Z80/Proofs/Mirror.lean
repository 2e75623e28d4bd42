import Z80.Proofs.Rearrangement
import Z80.Proofs.Substitution
import Z80.Proofs.Timing
import Z80.Proofs.Unread

/-!
# The index registers in each other's place

The two index leads do the same, each with its own register.  A processor whose
index registers have changed places, on a memory whose lead byte is the other
one, therefore ends every instruction in the mirror of what the first one leaves.
The instruction must not read its lead byte as data, or it would see the
difference.

Main statement: `Cpu.step_mirror`, on the flat host.
-/

namespace Z80

open Microcode

def Index.other : Index → Index
  | .ix => .iy
  | .iy => .ix

namespace Registers

/-- The registers with the index registers in each other's place. -/
def mirror (regs : Registers) : Registers :=
  { regs with ix := regs.iy, iy := regs.ix }

theorem mirror_eq_rearrange : mirror = rearrange true id :=
  rfl

end Registers

theorem Index.other_eq_swapped (index : Index) :
    index.other = index.swapped true := by
  cases index <;> rfl

/-- Behind the other index lead, an operation does the same in the mirror. -/
theorem Operation.execute_mirror (index : Index) (regs : Registers)
    (op : Operation) (uses : op.usesPointer = true) :
    op.execute (.index index.other) regs.mirror =
      Registers.mirror <$> op.execute (.index index) regs := by
  rw [Index.other_eq_swapped, Registers.mirror_eq_rearrange]
  exact op.execute_rearrange true id index regs uses

/-- Behind the other index lead, an operation on an indexed byte does the same
in the mirror. -/
theorem BitOperation.executeIndexed_mirror (op : BitOperation) (index : Index)
    (displacement : UInt8) (regs : Registers) :
    op.executeIndexed index.other displacement regs.mirror =
      Registers.mirror <$> op.executeIndexed index displacement regs := by
  rw [Index.other_eq_swapped, Registers.mirror_eq_rearrange]
  exact op.executeIndexed_rearrange true id index regs displacement

/-! ## Instructions -/

namespace Instruction

/-- The instruction behind the other index lead. -/
def mirror : Instruction → Instruction
  | .main (.index index) op => .main (.index index.other) op
  | .indexedBits index displacement op => .indexedBits index.other displacement op
  | instruction => instruction

theorem boundary_mirror (instruction : Instruction) :
    instruction.mirror.boundary = instruction.boundary := by
  cases instruction with
  | main pointer op => cases pointer <;> cases op <;> rfl
  | _ => rfl

/-- Run an instruction that has been fetched, and keep it. -/
def performFetched (instruction : Instruction) (model : Model)
    (regs : Registers) : Microcode (Instruction × Registers) := do
  let regs ← instruction.execute model (regs.refresh instruction.refreshCount)
  return (instruction, regs)

/-- Fetch and run what lies behind an index lead. -/
def performIndexed (index : Index) (model : Model) (regs : Registers) :
    Microcode (Instruction × Registers) := do
  let instruction ← fetchIndexed regs.pc index
  instruction.performFetched model regs

private theorem performFetched_mirror (instruction : Instruction) {model : Model}
    (same : ∀ regs,
      instruction.mirror.execute model regs.mirror =
        Registers.mirror <$> instruction.execute model regs)
    (regs : Registers) :
    instruction.mirror.performFetched model regs.mirror =
      Prod.map mirror Registers.mirror <$>
        instruction.performFetched model regs := by
  have count : instruction.mirror.refreshCount = instruction.refreshCount := by
    cases instruction with
    | main pointer op => cases pointer <;> rfl
    | _ => rfl
  have executed := same (regs.refresh instruction.refreshCount)
  have refreshed (cycles : UInt8) :
      regs.mirror.refresh cycles = (regs.refresh cycles).mirror :=
    rfl
  unfold performFetched
  rw [count, refreshed, executed]
  simp only [bind_map_left, map_bind]
  rfl

/-- What lies behind the other index lead does the same in the mirror. -/
theorem performIndexed_mirror (index : Index) (model : Model) (regs : Registers) :
    performIndexed index.other model regs.mirror =
      Prod.map mirror Registers.mirror <$> performIndexed index model regs := by
  simp only [performIndexed, fetchIndexed, map_bind, bind_assoc]
  refine bind_congr fun opcode => ?_
  cases indexed : IndexedOpcode.ofByte opcode with
  | operation op =>
      have uses := usesPointer_of_ofByte indexed
      exact performFetched_mirror (.main (.index index) op)
        (fun regs => op.execute_mirror index regs uses) regs
  | bitLead =>
      simp only [bind_assoc, pure_bind]
      refine bind_congr fun displacement => bind_congr fun opcode => ?_
      let op := BitOperation.ofByte opcode
      exact performFetched_mirror (.indexedBits index displacement op)
        (fun regs => op.executeIndexed_mirror index displacement regs) regs
  | leadIgnored =>
      have same (regs : Registers) :
          ignoredLead.mirror.execute model regs.mirror =
            Registers.mirror <$> ignoredLead.execute model regs :=
        rfl
      exact performFetched_mirror .ignoredLead same regs

/-- Performing an instruction starts with its first byte, and behind an index
lead it goes on with what lies there. -/
theorem exists_perform_eq_step (model : Model) (regs : Registers) :
    ∃ next : UInt8 → Microcode (Instruction × Registers),
      perform model regs = .step (.fetchFirst regs.pc) next ∧
        ∀ index : Index, next index.leadByte = performIndexed index model regs := by
  refine ⟨_, rfl, ?_⟩
  intro index
  cases index <;> rfl

section Lead

variable {index : Index} {regs : Registers} {flat : Flat}
  (lead : flat.ram.get regs.pc = index.leadByte) (model : Model)

include lead

private theorem run_perform_of_lead :
    (perform model regs).run Flat.bus flat =
      (performIndexed index model regs).run Flat.bus (flat.addCycles 4) := by
  obtain ⟨next, performed, behind⟩ := exists_perform_eq_step model regs
  rw [performed, ← behind, ← lead]
  rfl

theorem transactions_perform_of_lead :
    (perform model regs).transactions Flat.bus flat =
      ⟨.fetchFirst regs.pc, index.leadByte⟩ ::
        (performIndexed index model regs).transactions Flat.bus
          (flat.addCycles 4) := by
  obtain ⟨next, performed, behind⟩ := exists_perform_eq_step model regs
  rw [performed, ← behind, ← lead]
  rfl

private theorem stored_perform_of_lead :
    (perform model regs).stored Flat.bus flat =
      (performIndexed index model regs).stored Flat.bus (flat.addCycles 4) := by
  unfold stored
  rw [transactions_perform_of_lead lead]
  rfl

/-- The lead byte is fetched once, so it is read again only as data. -/
theorem not_mem_reads_performIndexed
    (unread : regs.pc ∉ (perform model regs).loads Flat.bus flat) :
    regs.pc ∉
      (performIndexed index model regs).reads Flat.bus (flat.addCycles 4) := by
  have places := places_perform Flat.bus model regs flat
  have few : ((fetch regs.pc).run Flat.bus flat).1.length - 1 + 1 ≤ 65536 := by
    have bound := length_le_four ((fetch regs.pc).run Flat.bus flat).1
    omega
  have once := Word.nodup_span regs.pc few
  rw [← Fetch.addresses_of_places places] at once
  unfold fetches at once
  unfold loads at unread
  rw [transactions_perform_of_lead lead] at once unread
  rw [mem_reads_iff]
  rintro (loaded | fetched)
  · exact unread loaded
  · exact (List.nodup_cons.mp once).1 fetched

/-- Behind the other index lead, performing the instruction gives the mirror of
what it gives behind the first one. -/
theorem run_perform_mirror
    (unread : regs.pc ∉ (perform model regs).loads Flat.bus flat) :
    (perform model regs.mirror).run Flat.bus
        (flat.poke regs.pc index.other.leadByte) =
      ((perform model regs).run Flat.bus flat).map
        (Prod.map mirror Registers.mirror)
        (·.pokeUnless ((perform model regs).stored Flat.bus flat) regs.pc
          index.other.leadByte) := by
  have otherLead :
      (flat.poke regs.pc index.other.leadByte).ram.get regs.mirror.pc =
        index.other.leadByte :=
    flat.ram.get_set_self _ _
  have later :
      (flat.poke regs.pc index.other.leadByte).addCycles 4 =
        (flat.addCycles 4).poke regs.pc index.other.leadByte :=
    rfl
  rw [run_perform_of_lead otherLead, run_perform_of_lead lead,
    stored_perform_of_lead lead, performIndexed_mirror, run_map, later,
    run_poke _ _ _ (not_mem_reads_performIndexed lead model unread)]
  generalize run _ _ _ = ran
  rfl

end Lead

end Instruction

/-! ## Steps -/

namespace Cpu

/-- The processor with the index registers in each other's place. -/
def mirror (cpu : Cpu) : Cpu :=
  { cpu with regs := cpu.regs.mirror }

private theorem mirror_mirror (cpu : Cpu) : cpu.mirror.mirror = cpu :=
  rfl

section Lead

variable {cpu : Cpu} {flat : Flat} {index : Index}
  (lead : flat.ram.get cpu.regs.pc = index.leadByte)
  (unread :
    cpu.regs.pc ∉
      (Instruction.perform cpu.model cpu.regs).loads Flat.bus flat)

include lead unread

/-- Behind the other index lead, the instruction leaves the mirror of what it
leaves behind the first one. -/
theorem runInstruction_mirror :
    let ran := cpu.runInstruction Flat.bus flat
    let stored := (Instruction.perform cpu.model cpu.regs).stored Flat.bus flat
    cpu.mirror.runInstruction Flat.bus
        (flat.poke cpu.regs.pc index.other.leadByte) =
      ((ran.1.1.mirror, ran.1.2.mirror),
        ran.2.pokeUnless stored cpu.regs.pc index.other.leadByte) := by
  intro ran stored
  have performed := Instruction.run_perform_mirror lead cpu.model unread
  have mirrored :
      Instruction.perform cpu.mirror.model cpu.mirror.regs =
        Instruction.perform cpu.model cpu.regs.mirror :=
    rfl
  simp only [runInstruction, mirrored, performed, Prod.map_fst, Prod.map_snd,
    Instruction.boundary_mirror, ran]
  rfl

private theorem instructionAt_mirror :
    (flat.poke cpu.regs.pc index.other.leadByte).ram.instructionAt cpu.regs.pc =
      (flat.ram.instructionAt cpu.regs.pc).mirror := by
  have ran := runInstruction_mirror lead unread
  rw [← fst_runInstruction_flat cpu flat]
  exact (fst_runInstruction_flat cpu.mirror _).symm.trans
    (congrArg (fun ran => ran.1.1) ran)

/-- Nothing is due in the mirror either. -/
theorem nothingDue_mirror (nothing : cpu.NothingDue flat) :
    cpu.mirror.NothingDue (flat.poke cpu.regs.pc index.other.leadByte) where
  noJump := nothing.noJump
  noNonMaskable := nothing.noNonMaskable
  noInterrupt := by
    intro pending
    refine (nothing.noInterrupt pending).imp ?_ ?_
    · intro deferred
      rw [← Instruction.boundary_eq_shielded_iff] at deferred ⊢
      have same := congrArg Instruction.boundary (instructionAt_mirror lead unread)
      rw [Instruction.boundary_mirror, deferred] at same
      exact same
    · intro disabled
      rw [runInstruction_mirror lead unread]
      exact disabled

end Lead

/-- An index lead and the other one do the same in each other's mirror, as long
as nothing is due and the instruction does not read its own lead byte.  Of
the memory only the lead byte differs, unless something was stored over it. -/
theorem step_mirror {cpu : Cpu} {flat : Flat} {index : Index}
    (lead : flat.ram.get cpu.regs.pc = index.leadByte)
    (nothing : cpu.NothingDue flat)
    (unread :
      cpu.regs.pc ∉
        (Instruction.perform cpu.model cpu.regs).loads Flat.bus flat) :
    let here := cpu.step Flat.bus flat
    let there :=
      cpu.mirror.step Flat.bus (flat.poke cpu.regs.pc index.other.leadByte)
    let stored := (Instruction.perform cpu.model cpu.regs).stored Flat.bus flat
    there.1.mirror = here.1 ∧
      there.2 = here.2.pokeUnless stored cpu.regs.pc index.other.leadByte := by
  intro here there stored
  have left : here = _ := step_of_nothingDue nothing
  have right : there = _ := step_of_nothingDue (nothingDue_mirror lead unread nothing)
  rw [left, right, runInstruction_mirror lead unread]
  dsimp only
  exact ⟨mirror_mirror _, rfl⟩

/-- A processor about to set a bit two places above `IX`. -/
def marking : Cpu where
  regs := { Registers.zero with ix := 0x10, iy := 0x20 }
  control := .none
  newPc := none
  model := .nmos

/-- `SET 0,(IX+2),B`. -/
def marked : Flat :=
  Flat.new.load 0 [0xDD, 0xCB, 0x02, 0xC0]

/-- Behind the other lead the bit is set at the same place, because the address
is in `IY` now. -/
theorem step_mirror_marking :
    let here := marking.step Flat.bus marked
    let there :=
      marking.mirror.step Flat.bus
        (marked.poke marking.regs.pc Index.ix.other.leadByte)
    marked.ram.get marking.regs.pc = Index.ix.leadByte ∧
      marking.NothingDue marked ∧
      marking.regs.pc ∉
        (Instruction.perform marking.model marking.regs).loads Flat.bus marked ∧
      here.1.regs.b = 1 ∧ here.2.ram.get 0x12 = 1 ∧
      there.1.mirror = here.1 ∧ there.2 = here.2.poke 0 0xFD := by
  intro here there
  have lead : marked.ram.get marking.regs.pc = Index.ix.leadByte := by decide
  have nothing : marking.NothingDue marked :=
    ⟨rfl, rfl, fun pending => nomatch pending⟩
  have unread :
      marking.regs.pc ∉
        (Instruction.perform marking.model marking.regs).loads Flat.bus marked := by
    decide
  obtain ⟨processor, host⟩ := step_mirror lead nothing unread
  exact ⟨lead, nothing, unread, by decide, by decide, processor,
    host.trans (if_neg (by decide))⟩

end Cpu

end Z80
