import Z80.Proofs.Agreement
import Z80.Proofs.BlockRun
import Z80.Proofs.Models
import Z80.Proofs.Rearrangement
import Z80.Proofs.Snapshot.Transparency
import Z80.Proofs.Substitution

/-!
# Chains of index leads

In front of another index lead an index lead has no effect, and the processor
passes over it in a step of its own.  No interrupt is accepted at the end of such
a step, so a chain of leads is passed as a whole, and only the last one can have
an effect on what follows.

Main statement: `Cpu.run_leads`, for chains of any length on the flat host.
-/

namespace Z80

open Microcode

/-! ## What happened before -/

/-- The cycles that have passed already make no difference to a host. -/
private theorem Flat.agreement_addCycles (cycles : Nat) :
    Host.Agreement (fun later flat => later = flat.addCycles cycles) Flat.host
      Flat.host := by
  refine ⟨⟨⟨?_, ?_, ?_, ?_, ?_⟩, fun _ _ => id, ?_⟩, ?_, ?_, ?_⟩
  · rintro address _ flat rfl
    exact ⟨rfl, rfl⟩
  · rintro address byte _ flat rfl
    rfl
  · rintro port _ flat rfl
    exact ⟨rfl, rfl⟩
  · rintro port byte _ flat rfl
    rfl
  · rintro regs _ flat rfl
    exact ⟨rfl, rfl⟩
  · rintro more _ flat rfl
    exact congrArg (fun cycles => { flat with cycles := cycles })
      (Nat.add_right_comm flat.cycles cycles more)
  · rintro _ flat rfl
    exact ⟨rfl, rfl⟩
  · rintro _ flat rfl
    rfl
  · rintro event _ flat rfl
    rfl

namespace Instruction

/-- Behind an index lead nothing looks at the refresh register. -/
private theorem execute_rearrange_of_lead {ram : Memory} {pc : UInt16} {index : Index}
    (lead : ram.get pc = index.leadByte) (model : Model) (regs : Registers)
    (change : UInt8 → UInt8) :
    (ram.instructionAt pc).execute model (regs.rearrange false change) =
      Registers.rearrange false change <$>
        (ram.instructionAt pc).execute model regs := by
  unfold Memory.instructionAt
  rw [lead, Index.ofByte_leadByte]
  dsimp only
  cases indexed : IndexedOpcode.ofByte (ram.get (pc + 1)) with
  | operation op =>
      have uses := usesPointer_of_ofByte indexed
      exact op.execute_rearrange false change index regs uses
  | bitLead =>
      let op := BitOperation.ofByte (ram.get (pc + 3))
      exact op.executeIndexed_rearrange false change index regs _
  | leadIgnored => rfl

private theorem execute_refresh {ram : Memory} {pc : UInt16} {index : Index}
    (lead : ram.get pc = index.leadByte) (model : Model) (regs : Registers)
    (count : UInt8) :
    (ram.instructionAt pc).execute model (regs.refresh count) =
      (·.refresh count) <$> (ram.instructionAt pc).execute model regs :=
  execute_rearrange_of_lead lead model regs
    fun r => (r &&& 0x80) ||| ((r + count) &&& 0x7F)

end Instruction

namespace Cpu

/-- The processor with a number of fetches counted in its refresh register. -/
def counted (cpu : Cpu) (count : UInt8) : Cpu :=
  { cpu with regs := cpu.regs.refresh count }

theorem step_addCycles (cpu : Cpu) (flat : Flat) (cycles : Nat) :
    cpu.step Flat.bus (flat.addCycles cycles) =
      (cpu.step Flat.bus flat).map id (·.addCycles cycles) := by
  have same :=
    step_matching (Flat.agreement_addCycles cycles).bus cpu _ flat rfl
  exact Prod.ext same.answer same.state

private theorem served_counted (cpu : Cpu) (flat : Flat) (count : UInt8) :
    (cpu.counted count).served flat =
      (cpu.served flat).map (·.counted count) id := by
  have interrupt :
      (cpu.counted count).interruptTaken flat =
        (cpu.interruptTaken flat).map (·.counted count) id := by
    have mode : (cpu.counted count).regs.im = cpu.regs.im := rfl
    simp only [interruptTaken, mode]
    split
    · rfl
    · split <;> rfl
  exact served_commutes flat (·.counted count) rfl rfl rfl (fun _ => rfl) interrupt

section Lead

variable {cpu : Cpu} {flat : Flat} {index : Index}
  (lead : flat.ram.get cpu.regs.pc = index.leadByte)

include lead

private theorem runInstruction_counted (count : UInt8) :
    (cpu.counted count).runInstruction Flat.bus flat =
      (cpu.runInstruction Flat.bus flat).map (·.map id (·.counted count)) id := by
  have comm (more : UInt8) :
      (cpu.regs.refresh count).refresh more =
        (cpu.regs.refresh more).refresh count := by
    rw [Registers.refresh_add, Registers.refresh_add, UInt8.add_comm]
  have here :
      flat.ram.instructionAt (cpu.counted count).regs.pc =
        flat.ram.instructionAt cpu.regs.pc :=
    rfl
  rw [runInstruction_flat here, runInstruction_flat rfl]
  dsimp only [counted]
  rw [comm, Instruction.execute_refresh lead _ _ count, run_map]
  rfl

private theorem not_loads_of_lead :
    ¬ (flat.ram.instructionAt cpu.regs.pc).LoadsInterruptRegister := by
  unfold Memory.instructionAt
  rw [lead, Index.ofByte_leadByte]
  dsimp only
  cases IndexedOpcode.ofByte (flat.ram.get (cpu.regs.pc + 1)) <;>
    simp [Instruction.LoadsInterruptRegister]

/-- Behind an index lead a step is the same whatever was counted before it. -/
private theorem step_counted (count : UInt8) :
    (cpu.counted count).step Flat.bus flat =
      (cpu.step Flat.bus flat).map (·.counted count) id := by
  have plain := not_loads_of_lead lead
  have countedPlain :
      ¬ (flat.ram.instructionAt
        (cpu.counted count).regs.pc).LoadsInterruptRegister :=
    plain
  rw [step_of_not_loads plain, step_of_not_loads countedPlain,
    runInstruction_counted lead]
  exact served_counted _ _ _

end Lead

end Cpu

/-! ## Chains -/

/-- Index leads lie one behind the other from an address on. -/
def Memory.HoldsLeads (ram : Memory) (pc : UInt16) (leads : List Index) : Prop :=
  ∀ place index, leads[place]? = some index →
    ram.get (pc + .ofNat place) = index.leadByte

private theorem Index.ofByte_lead (index : Index) :
    IndexedOpcode.ofByte index.leadByte = .leadIgnored := by
  cases index <;> decide

/-- In front of another lead a lead is ignored. -/
private theorem Memory.instructionAt_of_leads {ram : Memory} {pc : UInt16}
    {index next : Index} (lead : ram.get pc = index.leadByte)
    (second : ram.get (pc + 1) = next.leadByte) :
    ram.instructionAt pc = .ignoredLead := by
  unfold instructionAt
  rw [lead, Index.ofByte_leadByte, second, next.ofByte_lead]

namespace Cpu

/-- The processor behind a number of leads that it has passed over. -/
def pastLeads (cpu : Cpu) (count : Nat) : Cpu :=
  { cpu with
    regs := (cpu.regs.refresh (.ofNat count)).advance (.ofNat count)
    control.checkInterrupt := cpu.control.checkInterrupt && count == 0 }

private theorem pastLeads_zero (cpu : Cpu) : cpu.pastLeads 0 = cpu := by
  obtain ⟨regs, control, newPc, model⟩ := cpu
  have kept : (regs.refresh 0).advance 0 = regs := by
    rw [regs.refresh_zero]
    simp [Registers.advance]
  simp [pastLeads, kept]

private theorem pastLeads_succ (cpu : Cpu) (count : Nat) :
    (cpu.pastLeads count).pastLeads 1 = cpu.pastLeads (count + 1) := by
  have counted : UInt8.ofNat (count + 1) = .ofNat count + 1 :=
    UInt8.ofNat_add count 1
  have moved : UInt16.ofNat (count + 1) = .ofNat count + 1 :=
    UInt16.ofNat_add count 1
  have apart (first second : UInt8) (bytes : UInt16) :
      ((cpu.regs.refresh first).advance bytes).refresh second =
        (cpu.regs.refresh (first + second)).advance bytes := by
    rw [← Registers.refresh_add]
    rfl
  unfold pastLeads
  dsimp only
  rw [UInt8.ofNat_one, UInt16.ofNat_one, apart, Registers.advance_advance,
    ← counted, ← moved]
  simp

variable {cpu : Cpu} {flat : Flat}

/-- A lead that is ignored is passed over in one step, at the end of which no
interrupt is accepted. -/
theorem step_ignoredLead
    (found : flat.ram.instructionAt cpu.regs.pc = .ignoredLead)
    (noJump : cpu.control.setPc = false)
    (noNonMaskable : cpu.control.nonMaskable = false) :
    cpu.step Flat.bus flat = (cpu.pastLeads 1, flat.addCycles 8) := by
  have defers : (flat.ram.instructionAt cpu.regs.pc).DefersInterrupt := by
    rw [found]
    decide
  have nothing : cpu.NothingDue flat :=
    ⟨noJump, noNonMaskable, fun _ => .inl defers⟩
  have closed :
      cpu.control.after .shielded =
        { cpu.control with
          checkInterrupt := cpu.control.checkInterrupt && 1 == 0 } := by
    simp [Control.after]
  rw [step_of_nothingDue nothing, runInstruction_flat found]
  dsimp only [Instruction.boundary]
  rw [closed]
  rfl

/-- The instruction that the next step runs. -/
def upcoming (current : Cpu × Flat) : Instruction :=
  (current.1.runInstruction Flat.bus current.2).1.1

theorem upcoming_eq (current : Cpu × Flat) :
    upcoming current = current.2.ram.instructionAt current.1.regs.pc :=
  fst_runInstruction_flat current.1 current.2

/-- The processor at a lead of a chain, as if there were none before it. -/
def atLead (cpu : Cpu) (place : Nat) : Cpu :=
  { cpu with regs := cpu.regs.advance (.ofNat place) }

/-- What comes of a number of index leads and a last one behind them. -/
structure PassesLeads (cpu : Cpu) (flat : Flat) (earlier : Nat) (last : Index) :
    Prop where
  passes : ∀ done ≤ earlier,
    cpu.run Flat.bus done flat = (cpu.pastLeads done, flat.addCycles (8 * done))
  counts : ∀ done, CountsOn cpu.regs.r done (cpu.pastLeads done).regs.r
  /-- The last lead does what it does alone. -/
  alone :
    cpu.run Flat.bus (earlier + 1) flat =
      ((cpu.atLead earlier).step Flat.bus flat).map (·.counted (.ofNat earlier))
        (·.addCycles (8 * earlier))
  operation : ∀ op,
    IndexedOpcode.ofByte (flat.ram.get (cpu.regs.pc + .ofNat earlier + 1)) =
        .operation op →
      upcoming (cpu.run Flat.bus earlier flat) = .main (.index last) op
  bits :
    IndexedOpcode.ofByte (flat.ram.get (cpu.regs.pc + .ofNat earlier + 1)) =
        .bitLead →
      upcoming (cpu.run Flat.bus earlier flat) =
        .indexedBits last (flat.ram.get (cpu.regs.pc + .ofNat earlier + 2))
          (.ofByte (flat.ram.get (cpu.regs.pc + .ofNat earlier + 3)))
  /-- Before an opcode without an indexed form the last lead is passed over like
  the others, and the opcode runs as if it had none before it. -/
  ignored :
    IndexedOpcode.ofByte (flat.ram.get (cpu.regs.pc + .ofNat earlier + 1)) =
        .leadIgnored →
      cpu.run Flat.bus (earlier + 1) flat =
          (cpu.pastLeads (earlier + 1), flat.addCycles (8 * (earlier + 1))) ∧
        upcoming (cpu.run Flat.bus (earlier + 1) flat) =
          flat.ram.instructionAt (cpu.regs.pc + .ofNat earlier + 1)

section Chain

variable {earlier : List Index} {last : Index}
  (holds : flat.ram.HoldsLeads cpu.regs.pc (earlier ++ [last]))
  (noJump : cpu.control.setPc = false)
  (noNonMaskable : cpu.control.nonMaskable = false)

include holds in
private theorem instructionAt_earlier {place : Nat}
    (isEarlier : place < earlier.length) :
    flat.ram.instructionAt (cpu.regs.pc + .ofNat place) = .ignoredLead := by
  have inChain : place < (earlier ++ [last]).length := by
    simp only [List.length_append, List.length_singleton]
    omega
  have nextInChain : place + 1 < (earlier ++ [last]).length := by
    simp only [List.length_append, List.length_singleton]
    omega
  have lead := holds place _ (List.getElem?_eq_getElem inChain)
  have second := holds (place + 1) _ (List.getElem?_eq_getElem nextInChain)
  rw [Word.add_ofNat_succ] at second
  exact Memory.instructionAt_of_leads lead second

include holds in
theorem get_last :
    flat.ram.get (cpu.regs.pc + .ofNat earlier.length) = last.leadByte :=
  holds earlier.length last (by simp)

include noJump noNonMaskable in
/-- One lead more. -/
theorem step_pastLeads {count : Nat}
    (found :
      flat.ram.instructionAt (cpu.regs.pc + .ofNat count) = .ignoredLead) :
    (cpu.pastLeads count).step Flat.bus (flat.addCycles (8 * count)) =
      (cpu.pastLeads (count + 1), flat.addCycles (8 * (count + 1))) := by
  have passed :=
    @step_ignoredLead (cpu.pastLeads count) flat found noJump noNonMaskable
  have charged :
      (flat.addCycles 8).addCycles (8 * count) = flat.addCycles (8 * (count + 1)) := by
    simp only [Flat.addCycles, Flat.mk.injEq, true_and]
    omega
  rw [step_addCycles, passed, pastLeads_succ, ← charged]
  rfl

include holds noJump noNonMaskable

theorem run_earlier {done : Nat} (bound : done ≤ earlier.length) :
    cpu.run Flat.bus done flat =
      (cpu.pastLeads done, flat.addCycles (8 * done)) := by
  induction done with
  | zero =>
      rw [pastLeads_zero]
      rfl
  | succ done inductionHypothesis =>
      have isEarlier : done < earlier.length := bound
      rw [run_succ, inductionHypothesis (Nat.le_of_succ_le bound)]
      exact step_pastLeads noJump noNonMaskable
        (instructionAt_earlier holds isEarlier)

/-- Where it is in a chain makes no difference to what the last lead does. -/
private theorem run_last :
    cpu.run Flat.bus (earlier.length + 1) flat =
      ((cpu.atLead earlier.length).step Flat.bus flat).map
        (·.counted (.ofNat earlier.length)) (·.addCycles (8 * earlier.length)) := by
  have forgotten :
      (cpu.pastLeads earlier.length).forgetCheck =
        ((cpu.atLead earlier.length).counted (.ofNat earlier.length)).forgetCheck :=
    rfl
  have alone := @step_counted (cpu.atLead earlier.length) flat last
    (get_last holds) (.ofNat earlier.length)
  rw [run_succ, run_earlier holds noJump noNonMaskable (Nat.le_refl _),
    step_addCycles, ← step_forgetCheck, forgotten, step_forgetCheck, alone]
  rfl

theorem upcoming_last :
    upcoming (cpu.run Flat.bus earlier.length flat) =
      match
        IndexedOpcode.ofByte
          (flat.ram.get (cpu.regs.pc + .ofNat earlier.length + 1))
      with
      | .operation op => .main (.index last) op
      | .bitLead =>
          .indexedBits last
            (flat.ram.get (cpu.regs.pc + .ofNat earlier.length + 2))
            (.ofByte (flat.ram.get (cpu.regs.pc + .ofNat earlier.length + 3)))
      | .leadIgnored => .ignoredLead := by
  have lead :
      Opcode.ofByte (flat.ram.get (cpu.regs.pc + .ofNat earlier.length)) =
        .indexLead last := by
    rw [get_last holds, Index.ofByte_leadByte]
  rw [upcoming_eq, run_earlier holds noJump noNonMaskable (Nat.le_refl _)]
  show flat.ram.instructionAt (cpu.regs.pc + .ofNat earlier.length) = _
  unfold Memory.instructionAt
  cases
      IndexedOpcode.ofByte
        (flat.ram.get (cpu.regs.pc + .ofNat earlier.length + 1)) with
  | operation op => simp only [lead]
  | bitLead => simp only [lead]
  | leadIgnored => simp only [lead]

private theorem run_ignored
    (unused :
      IndexedOpcode.ofByte
          (flat.ram.get (cpu.regs.pc + .ofNat earlier.length + 1)) =
        .leadIgnored) :
    cpu.run Flat.bus (earlier.length + 1) flat =
      (cpu.pastLeads (earlier.length + 1),
        flat.addCycles (8 * (earlier.length + 1))) := by
  have found := upcoming_last holds noJump noNonMaskable
  have reached := run_earlier holds noJump noNonMaskable (Nat.le_refl _)
  rw [upcoming_eq, unused, reached] at found
  rw [run_succ, reached]
  exact step_pastLeads noJump noNonMaskable found

/-- A chain of index leads is passed over up to its last one, whatever
interrupt is pending, and the last one does what it would do without the others
before it. -/
theorem run_leads : cpu.PassesLeads flat earlier.length last where
  passes _ bound := run_earlier holds noJump noNonMaskable bound
  counts done := by
    have counted := CountsOn.refresh cpu.regs (.ofNat done)
    refine ⟨counted.top, counted.low.trans ?_⟩
    rw [UInt8.toNat_ofNat']
    omega
  alone := run_last holds noJump noNonMaskable
  operation op found := by
    rw [upcoming_last holds noJump noNonMaskable, found]
  bits found := by
    rw [upcoming_last holds noJump noNonMaskable, found]
  ignored found := by
    have reached := run_ignored holds noJump noNonMaskable found
    refine ⟨reached, ?_⟩
    rw [upcoming_eq, reached, ← Word.add_ofNat_succ]
    rfl

end Chain

/-- A processor with interrupts enabled and one pending. -/
def deferring : Cpu :=
  { Cpu.new .nmos with
    regs := { (Cpu.new .nmos).regs with iff1 := true, iff2 := true, im := 1 }
    control := Control.none.assertInterrupt }

/-- `LD IX,1234h` behind two leads that have no effect on it. -/
def chained : Flat :=
  Flat.new.load 0 [0xDD, 0xFD, 0xDD, 0x21, 0x34, 0x12]

/-- The interrupt waits for the end of the load. -/
theorem run_leads_deferring :
    chained.ram.HoldsLeads deferring.regs.pc ([.ix, .iy] ++ [.ix]) ∧
      deferring.control.setPc = false ∧
      deferring.control.nonMaskable = false ∧
      deferring.PassesLeads chained 2 .ix ∧
      upcoming (deferring.run Flat.bus 2 chained) =
        .main (.index .ix) (.ldPairImmediate .hl) := by
  have holds :
      chained.ram.HoldsLeads deferring.regs.pc ([.ix, .iy] ++ [.ix]) := by
    intro place index found
    match place, found with
    | 0, rfl => decide
    | 1, rfl => decide
    | 2, rfl => decide
  have passes := run_leads holds rfl rfl
  exact ⟨holds, rfl, rfl, passes, passes.operation _ (by decide)⟩

end Cpu

end Z80
