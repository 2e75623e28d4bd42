import Z80.Cpu.Step
import Z80.Proofs.Block
import Z80.Proofs.Operands

/-!
# What is left alone

The alternate bank, the refresh register and the registers of the interrupt
system can not be named as operands, and an index register can be named only
behind its own lead.  A few instructions are there to change them, and all others
leave them as they are, whatever the bus answers.  What is served at a boundary
leaves even more alone.

Main statements: `Cpu.view_runInstruction` for instructions, and
`Cpu.spared_service` for what follows them.
-/

namespace Z80

open Microcode

variable {α β σ : Type}

/-! ## What microcode yields -/

namespace Microcode

/-- On this bus, from any state, the result has a property. -/
def Yields (bus : Bus σ) (post : α → Prop) (code : Microcode α) : Prop :=
  ∀ state, post (code.run bus state).1

theorem Yields.bind {bus : Bus σ} {post : β → Prop} {code : Microcode α}
    {next : α → Microcode β} (rest : ∀ value, Yields bus post (next value)) :
    Yields bus post (code >>= next) := by
  intro state
  rw [run_bind]
  exact rest _ _

private theorem Yields.ite {bus : Bus σ} {post : α → Prop} {condition : Prop}
    [Decidable condition] {yes no : Microcode α} (ofYes : Yields bus post yes)
    (ofNo : Yields bus post no) :
    Yields bus post (if condition then yes else no) := by
  split
  · exact ofYes
  · exact ofNo

end Microcode

/-! ## Registers -/

namespace Registers

/-- The registers that no operand behind a pointer names, but for the program
counter. -/
def hidden (regs : Registers) (pointer : Pointer) : Registers :=
  { regs with
    toBank := .zero
    ix := if pointer = .index .ix then 0 else regs.ix
    iy := if pointer = .index .iy then 0 else regs.iy
    sp := 0
    pc := 0 }

variable (regs : Registers) (pointer : Pointer)

@[simp]
theorem hidden_setPointer (word : UInt16) :
    (regs.setPointer pointer word).hidden pointer = regs.hidden pointer := by
  cases pointer with
  | hl => rfl
  | index index => cases index <;> rfl

/-- `HL` itself is named behind every pointer. -/
@[simp]
theorem hidden_set_hl (target : Register) (byte : UInt8) :
    (regs.set .hl target byte).hidden pointer = regs.hidden pointer := by
  cases target <;> rfl

@[simp]
theorem hidden_set (target : Register) (byte : UInt8) :
    (regs.set pointer target byte).hidden pointer = regs.hidden pointer := by
  cases target with
  | h => exact hidden_setPointer regs pointer _
  | l => exact hidden_setPointer regs pointer _
  | _ => rfl

@[simp]
theorem hidden_setPair (target : Pair) (word : UInt16) :
    (regs.setPair pointer target word).hidden pointer = regs.hidden pointer := by
  cases target with
  | hl => exact hidden_setPointer regs pointer word
  | _ => rfl

@[simp]
theorem hidden_setStackPair (target : StackPair) (word : UInt16) :
    (regs.setStackPair pointer target word).hidden pointer =
      regs.hidden pointer := by
  cases target with
  | hl => exact hidden_setPointer regs pointer word
  | _ => rfl

@[simp]
theorem hidden_copyTo (byte : UInt8) (target : Operand) :
    (target.copyTo regs byte).hidden pointer = regs.hidden pointer := by
  cases target with
  | register target => exact hidden_set_hl regs pointer target byte
  | memory => rfl

variable {regs pointer} in
/-- What does not depend on the registers that an operand may name is the same when
the others are. -/
theorem view_eq_of_hidden (view : Registers → α)
    (seen : ∀ regs : Registers, view (regs.hidden pointer) = view regs)
    {left : Registers} (same : left.hidden pointer = regs.hidden pointer) :
    view left = view regs := by
  rw [← seen left, same, seen regs]

end Registers

/-! ## Instructions -/

/-- On this bus the code leaves the registers that are hidden behind a pointer as
they are in `regs`. -/
abbrev Microcode.KeepsHidden (bus : Bus σ) (pointer : Pointer) (regs : Registers)
    (code : Microcode Registers) : Prop :=
  Yields bus (fun left => left.hidden pointer = regs.hidden pointer) code

variable (bus : Bus σ)

namespace Registers

variable (pointer : Pointer)

private theorem keepsHidden_jumpRelative (regs : Registers) :
    KeepsHidden bus pointer regs regs.jumpRelative := by
  intro state
  rfl

private theorem keepsHidden_skipRelative (regs : Registers) :
    KeepsHidden bus pointer regs regs.skipRelative := by
  intro state
  rfl

private theorem keepsHidden_callAbsolute (regs : Registers) :
    KeepsHidden bus pointer regs regs.callAbsolute := by
  intro state
  rfl

private theorem keepsHidden_popPc (regs : Registers) :
    KeepsHidden bus pointer regs regs.popPc := by
  intro state
  rfl

end Registers

namespace Operation

variable (pointer : Pointer)

private theorem keepsHidden_update (change : UInt8 → Flags → Outcome UInt8)
    (target : Operand) (regs : Registers) :
    KeepsHidden bus pointer regs (update change target pointer regs) := by
  cases target with
  | register target =>
      intro state
      exact Registers.hidden_set regs pointer target _
  | memory =>
      refine Yields.bind ?_
      intro address state
      rfl

private theorem keepsHidden_exchangeStack (regs : Registers) :
    KeepsHidden bus pointer regs (exchangeStack pointer regs) := by
  intro state
  exact Registers.hidden_setPointer _ pointer _

private theorem keepsHidden_storeImmediate (regs : Registers) :
    KeepsHidden bus pointer regs (storeImmediate pointer regs) := by
  refine Yields.bind ?_
  intro address
  refine Yields.bind ?_
  intro byte
  refine Yields.bind ?_
  intro settled state
  rfl

/-- What an operation makes of the hidden registers, most often nothing. -/
def changeHidden (regs : Registers) : Operation → Registers
  | .exAf => regs.exchangeAf
  | .exx => regs.exchangePairs
  | .ei => regs.setEnabled true
  | .di => regs.setEnabled false
  | _ => regs

private theorem hidden_execute (op : Operation) (regs : Registers) :
    KeepsHidden bus pointer (op.changeHidden regs) (op.execute pointer regs) := by
  cases op with
  | ldRegister target source =>
      cases source with
      | register source =>
          intro state
          exact Registers.hidden_set regs pointer target _
      | memory =>
          refine Yields.bind ?_
          intro address state
          exact Registers.hidden_set_hl regs pointer target _
  | ldMemory source =>
      refine Yields.bind ?_
      intro address state
      rfl
  | ldImmediate target =>
      cases target with
      | register target =>
          intro state
          exact Registers.hidden_set regs pointer target _
      | memory => exact keepsHidden_storeImmediate bus pointer regs
  | ldPairImmediate target =>
      intro state
      exact Registers.hidden_setPair regs pointer target _
  | loadPointerAbsolute =>
      intro state
      exact Registers.hidden_setPointer regs pointer _
  | pop target =>
      intro state
      exact Registers.hidden_setStackPair _ pointer target _
  | exStack => exact keepsHidden_exchangeStack bus pointer regs
  | arithmetic op source =>
      cases source with
      | register source =>
          intro state
          rfl
      | memory =>
          refine Yields.bind ?_
          intro address state
          rfl
  | inc target => exact keepsHidden_update bus pointer _ target regs
  | dec target => exact keepsHidden_update bus pointer _ target regs
  | addPair source =>
      intro state
      exact Registers.hidden_setPointer regs pointer _
  | incPair target =>
      intro state
      exact Registers.hidden_setPair regs pointer target _
  | decPair target =>
      intro state
      exact Registers.hidden_setPair regs pointer target _
  | jpIf condition =>
      refine Yields.bind ?_
      intro target state
      cases condition.holds regs.f with
      | true => rfl
      | false => rfl
  | jrIf condition =>
      exact Yields.ite (Registers.keepsHidden_jumpRelative bus pointer regs)
        (Registers.keepsHidden_skipRelative bus pointer regs)
  | djnz =>
      refine Yields.bind ?_
      intro settled
      exact Yields.ite (Registers.keepsHidden_skipRelative bus pointer _)
        (Registers.keepsHidden_jumpRelative bus pointer _)
  | callIf condition =>
      have skipped :
          KeepsHidden bus pointer regs (do
            let _ ← fetchWord regs.pc 1
            return regs.advance 3) := by
        intro state
        rfl
      exact Yields.ite (Registers.keepsHidden_callAbsolute bus pointer regs) skipped
  | retIf condition =>
      refine Yields.bind ?_
      intro settled
      have skipped : KeepsHidden bus pointer regs (pure (regs.advance 1)) := by
        intro state
        rfl
      exact Yields.ite (Registers.keepsHidden_popPc bus pointer regs) skipped
  | _ =>
      intro state
      rfl

end Operation

namespace BitOperation

private theorem keepsHidden_execute (op : BitOperation) (regs : Registers) :
    KeepsHidden bus .hl regs (op.execute regs) := by
  unfold execute
  split
  · intro state
    exact Registers.hidden_set regs .hl _ _
  · intro state
    cases op.action.isTest with
    | true => rfl
    | false => rfl

private theorem keepsHidden_executeIndexed (op : BitOperation) (index : Index)
    (displacement : UInt8) (regs : Registers) :
    KeepsHidden bus .hl regs (op.executeIndexed index displacement regs) := by
  refine Yields.bind ?_
  intro settled
  refine Yields.bind ?_
  intro byte
  refine Yields.bind ?_
  intro settled
  split
  · intro state
    rfl
  · intro state
    exact Registers.hidden_copyTo _ .hl _ _

end BitOperation

namespace BlockOperation

private theorem keepsHidden_finish (again last : Nat) (more : Bool)
    (regs : Registers) : KeepsHidden bus .hl regs (finish again last more regs) := by
  intro state
  cases more <;> rfl

private theorem keepsHidden_finishPort (op : BlockOperation) (regs : Registers) :
    KeepsHidden bus .hl regs (op.finishPort regs) := by
  intro state
  rw [fst_run_finishPort]
  split <;> rfl

private theorem keepsHidden_execute (op : BlockOperation) (regs : Registers) :
    KeepsHidden bus .hl regs (op.execute regs) := by
  unfold execute
  cases op.action with
  | load =>
      refine Yields.bind fun byte => Yields.bind fun written => ?_
      exact keepsHidden_finish bus _ _ _ _
  | compare =>
      refine Yields.bind fun byte => ?_
      exact keepsHidden_finish bus _ _ _ _
  | input =>
      refine Yields.bind fun settled => Yields.bind fun byte =>
        Yields.bind fun written => ?_
      exact keepsHidden_finishPort bus op _
  | output =>
      refine Yields.bind fun settled => Yields.bind fun byte =>
        Yields.bind fun written => ?_
      exact keepsHidden_finishPort bus op _

end BlockOperation

namespace ExtendedOperation

private theorem keepsHidden_updateHl (outcome : Outcome UInt16) (regs : Registers) :
    KeepsHidden bus .hl regs (updateHl outcome regs) := by
  intro state
  rfl

/-- What an extended operation makes of the hidden registers.  The loads from
the interrupt registers only read them. -/
def changeHidden (regs : Registers) : ExtendedOperation → Registers
  | .retn => { regs with iff1 := regs.iff2 }
  | .im mode => { regs with im := UInt8.ofNat mode.val }
  | .ldIA => { regs with i := regs.a }
  | .ldRA => { regs with r := regs.a }
  | _ => regs

/-- A patch is the one operation that may do anything. -/
theorem hidden_execute (op : ExtendedOperation) (model : Model)
    (regs : Registers) (notPatch : op ≠ .tapePatch) :
    KeepsHidden bus .hl (op.changeHidden regs) (op.execute model regs) := by
  cases op with
  | tapePatch => exact absurd rfl notPatch
  | input target =>
      refine Yields.bind ?_
      intro byte state
      cases target with
      | none => rfl
      | some target => exact Registers.hidden_set _ .hl target byte
  | sbcPair source => exact keepsHidden_updateHl bus _ regs
  | adcPair source => exact keepsHidden_updateHl bus _ regs
  | loadPairAbsolute target =>
      intro state
      exact Registers.hidden_setPair regs .hl target _
  | block op => exact BlockOperation.keepsHidden_execute bus op regs
  | _ =>
      intro state
      rfl

end ExtendedOperation

namespace Instruction

/-- The pointer behind which the operands of an instruction are named. -/
def pointer : Instruction → Pointer
  | .main pointer _ => pointer
  | .bits _ | .indexedBits _ _ _ | .extended _ | .ignoredLead => .hl

/-- What an instruction makes of the hidden registers. -/
def changeHidden (regs : Registers) : Instruction → Registers
  | .main _ op => op.changeHidden regs
  | .extended op => op.changeHidden regs
  | .bits _ | .indexedBits _ _ _ | .ignoredLead => regs

/-- A patch is left out, since the host may do anything there. -/
theorem hidden_execute (instruction : Instruction) (model : Model)
    (regs : Registers) (notPatch : instruction ≠ .extended .tapePatch) :
    KeepsHidden bus instruction.pointer (instruction.changeHidden regs)
      (instruction.execute model regs) := by
  cases instruction with
  | main pointer op => exact Operation.hidden_execute bus pointer op regs
  | bits op => exact BitOperation.keepsHidden_execute bus op regs
  | indexedBits index displacement op =>
      exact BitOperation.keepsHidden_executeIndexed bus op index displacement regs
  | extended op =>
      have notPatch : op ≠ .tapePatch :=
        fun same => notPatch (congrArg extended same)
      exact ExtendedOperation.hidden_execute bus op model regs notPatch
  | ignoredLead =>
      intro state
      rfl

end Instruction

theorem Cpu.fst_runInstruction (cpu : Cpu) (state : σ) :
    (cpu.runInstruction bus state).1.1 =
      ((Instruction.fetch cpu.regs.pc).run bus state).1 := by
  simp only [runInstruction, Instruction.perform, run_bind]
  rfl

/-- A patched program leaves alone what the view shows of the registers. -/
def Bus.PatchKeeps (bus : Bus σ) (view : Registers → α) : Prop :=
  ∀ regs state, view (bus.tapePatch regs state).1 = view regs

section View

variable {bus : Bus σ} (view : Registers → α)

/-- What an instruction makes of the hidden registers, as far as a view shows
them that patches leave alone. -/
theorem Instruction.view_execute {instruction : Instruction}
    (seen : ∀ regs : Registers,
      view (regs.hidden instruction.pointer) = view regs)
    (patch : bus.PatchKeeps view) (model : Model) (regs : Registers) :
    Yields bus (fun left => view left = view (instruction.changeHidden regs))
      (instruction.execute model regs) := by
  intro state
  by_cases isPatch : instruction = .extended .tapePatch
  · subst isPatch
    -- Behind the patch the program counter moves on, which the view can not see.
    have moved :
        view (((extended .tapePatch).execute model regs).run bus state).1 =
          view (bus.tapePatch regs state).1 :=
      Registers.view_eq_of_hidden view seen rfl
    exact moved.trans (patch regs state)
  · exact Registers.view_eq_of_hidden view seen
      (hidden_execute bus instruction model regs isPatch state)

theorem Cpu.view_runInstruction (cpu : Cpu) (state : σ)
    (seen : ∀ regs : Registers,
      view (regs.hidden (cpu.runInstruction bus state).1.1.pointer) = view regs)
    (patch : bus.PatchKeeps view) :
    view (cpu.runInstruction bus state).1.2.regs =
      view ((cpu.runInstruction bus state).1.1.changeHidden
        (cpu.regs.refresh
          (cpu.runInstruction bus state).1.1.refreshCount)) := by
  rw [fst_runInstruction] at seen ⊢
  simp only [runInstruction, Instruction.perform, run_bind]
  exact Instruction.view_execute view seen patch _ _ _

end View

/-! ## Service -/

/-- The registers that serving a request never touches. -/
def Registers.spared (regs : Registers) : Registers :=
  { regs with sp := 0, pc := 0, iff1 := false, iff2 := false }

namespace Cpu

variable (cpu : Cpu) (state : σ)

section Elimination

variable {bus cpu state} (post : Cpu × σ → Prop)

/-- What holds once the host has been asked, and goes on to hold whatever is
served, holds behind the boundary. -/
theorem service_elim (polled : post (cpu.poll bus state))
    (jumped :
      post ((cpu.poll bus state).1.serviceJump bus (cpu.poll bus state).2))
    (nonMaskable :
      ∀ left : Cpu × σ, post left → post (left.1.serviceNonMaskable bus left.2))
    (accepted :
      cpu.regs.iff1 = true → cpu.control.checkInterrupt = true →
        post ((cpu.poll bus state).1.acceptInterrupt bus
          (cpu.poll bus state).2)) :
    post (cpu.service bus state) := by
  unfold service serviceUrgent
  dsimp only
  split
  · split
    · split
      · exact nonMaskable _ jumped
      · exact jumped
    · split
      · exact nonMaskable _ polled
      · exact polled
  · split
    case isTrue due =>
      simp only [Bool.and_eq_true] at due
      obtain ⟨⟨_, enabled⟩, check⟩ := due
      exact accepted enabled check
    case isFalse => exact polled

/-- After a sampling instruction the parity bit is lost only with the second
latch clear. -/
theorem serviceSampled_elim (untouched : post (cpu, state))
    (polled : post (cpu.poll bus state))
    (accepted :
      cpu.regs.iff1 = true →
        post ((cpu.poll bus state).1.acceptInterrupt bus
          (cpu.poll bus state).2))
    (lost :
      ∀ left : Cpu × σ, post left → left.1.regs.iff2 = false →
        post ({ left.1 with regs.f.parity := false }, left.2)) :
    post (cpu.serviceSampled bus state) := by
  have losing (left : Cpu × σ) (holds : post left) :
      post
        (if left.1.regs.iff2 then left
        else ({ left.1 with regs.f.parity := false }, left.2)) := by
    split
    case isTrue => exact holds
    case isFalse shut => exact lost left holds (Bool.eq_false_iff.mpr shut)
  have sampled {left : Cpu × σ} (asked : left = cpu.poll bus state) :
      post
        (if left.1.control.interruptPending && !left.1.control.nonMaskable &&
            !left.1.control.setPc && left.1.regs.iff1 then
          left.1.acceptInterrupt bus left.2
        else left) := by
    subst asked
    split
    case isTrue due =>
      simp only [Bool.and_eq_true] at due
      exact accepted due.2
    case isFalse => exact polled
  unfold serviceSampled
  split
  · exact losing _ (sampled rfl)
  · exact untouched

end Elimination

theorem spared_leaveHalt : cpu.leaveHalt.regs.spared = cpu.regs.spared := by
  unfold leaveHalt
  split <;> rfl

private theorem spared_serviceJump :
    (cpu.serviceJump bus state).1.regs.spared = cpu.regs.spared := by
  unfold serviceJump
  cases cpu.newPc with
  | none => rfl
  | some target => rfl

theorem spared_serviceNonMaskable :
    (cpu.serviceNonMaskable bus state).1.regs.spared = cpu.regs.spared :=
  spared_leaveHalt { cpu with control.nonMaskable := false }

theorem spared_acceptInterrupt :
    (cpu.acceptInterrupt bus state).1.regs.spared = cpu.regs.spared := by
  have left := spared_leaveHalt { cpu with regs := cpu.regs.setEnabled false }
  unfold acceptInterrupt
  dsimp only
  split
  · exact left
  · exact left
  · exact left

theorem spared_service :
    (cpu.service bus state).1.regs.spared = cpu.regs.spared := by
  refine service_elim (fun left => left.1.regs.spared = cpu.regs.spared)
    rfl ?_ ?_ ?_
  · exact spared_serviceJump bus _ _
  · intro left same
    exact (spared_serviceNonMaskable bus left.1 left.2).trans same
  · intro _ _
    exact spared_acceptInterrupt bus _ _

/-- After a sampling instruction the parity bit may be lost as well, but not as
long as the second latch is set. -/
theorem spared_serviceSampled :
    ∃ kept,
      (cpu.serviceSampled bus state).1.regs.spared =
          { cpu.regs with f.parity := cpu.regs.f.parity && kept }.spared ∧
        ((cpu.serviceSampled bus state).1.regs.iff2 = true → kept = true) := by
  have same :
      { cpu.regs with f.parity := cpu.regs.f.parity && true } = cpu.regs := by
    rw [Bool.and_true]
  refine serviceSampled_elim
    (fun left => ∃ kept,
      left.1.regs.spared =
          { cpu.regs with f.parity := cpu.regs.f.parity && kept }.spared ∧
        (left.1.regs.iff2 = true → kept = true)) ?_ ?_ ?_ ?_
  · exact ⟨true, congrArg Registers.spared same.symm, fun _ => rfl⟩
  · exact ⟨true, congrArg Registers.spared same.symm, fun _ => rfl⟩
  · intro _
    refine ⟨true, ?_, fun _ => rfl⟩
    rw [spared_acceptInterrupt, same]
    rfl
  · rintro left ⟨kept, spared, _⟩ shut
    refine ⟨false, ?_, ?_⟩
    · rw [Bool.and_false]
      exact congrArg
        (fun regs : Registers => { regs with f.parity := false }) spared
    · intro set
      exact absurd (shut.symm.trans set) Bool.false_ne_true

/-! ## Steps -/

theorem step_of_sampling
    (sampling : (cpu.runInstruction bus state).1.1.boundary = .sampling) :
    let ran := cpu.runInstruction bus state
    let sampled := ran.1.2.serviceSampled bus ran.2
    cpu.step bus state = sampled.1.service bus sampled.2 := by
  unfold step
  dsimp only
  rw [if_pos sampling]

theorem step_of_not_sampling
    (notSampling : (cpu.runInstruction bus state).1.1.boundary ≠ .sampling) :
    let ran := cpu.runInstruction bus state
    cpu.step bus state = ran.1.2.service bus ran.2 := by
  unfold step
  dsimp only
  rw [if_neg notSampling]

/-- What the instruction leaves in the spared registers stays there, but for the
parity bit. -/
theorem spared_step :
    ∃ parity,
      (cpu.step bus state).1.regs.spared =
        { (cpu.runInstruction bus state).1.2.regs with
          f.parity := parity }.spared := by
  by_cases sampling : (cpu.runInstruction bus state).1.1.boundary = .sampling
  · obtain ⟨_, spared, _⟩ :=
      spared_serviceSampled bus (cpu.runInstruction bus state).1.2
        (cpu.runInstruction bus state).2
    rw [step_of_sampling bus cpu state sampling]
    exact ⟨_, (spared_service bus _ _).trans spared⟩
  · rw [step_of_not_sampling bus cpu state sampling]
    exact ⟨_, spared_service bus _ _⟩

end Cpu

end Z80
