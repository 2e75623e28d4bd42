import Z80.Proofs.Refresh
import Z80.Proofs.Timing

/-!
# What tells the models apart

The two models run every instruction alike, but for the byte that the write of no
register puts on the bus, and but for the parity bit when an interrupt comes
during `LD A,I` or `LD A,R`.  One model accepts that interrupt inside the
instruction and the other one at the boundary, with the same effect.

Main statement: `Cpu.step_models`, for every state on the flat host.
-/

namespace Z80

open Microcode

/-! ## The instructions -/

/-- An opcode of the extended table lies at an address. -/
def Memory.HoldsExtended (ram : Memory) (pc : UInt16) (opcode : UInt8) : Prop :=
  ram.get pc = 0xED ∧ ram.get (pc + 1) = opcode

theorem ExtendedOperation.ofByte_eq_iff (opcode : UInt8) :
    (ofByte opcode = .output none ↔ opcode = 0x71) ∧
      (ofByte opcode = .ldAI ↔ opcode = 0x57) ∧
      (ofByte opcode = .ldAR ↔ opcode = 0x5F) := by
  revert opcode
  refine Byte.of_forall_ofNat ?_
  decide +kernel

namespace Instruction

theorem instructionAt_eq_extended {ram : Memory} {pc : UInt16}
    {op : ExtendedOperation} :
    ram.instructionAt pc = .extended op ↔
      ram.get pc = 0xED ∧ ExtendedOperation.ofByte (ram.get (pc + 1)) = op := by
  rw [← (Opcode.leads (ram.get pc)).2.1]
  unfold Memory.instructionAt
  cases Opcode.ofByte (ram.get pc) with
  | operation op => simp
  | bitLead => simp
  | extendedLead => simp
  | indexLead index =>
      cases IndexedOpcode.ofByte (ram.get (pc + 1)) <;> simp

theorem instructionAt_eq_extended_iff {ram : Memory} {pc : UInt16}
    {op : ExtendedOperation} {opcode : UInt8}
    (only : ∀ byte, ExtendedOperation.ofByte byte = op ↔ byte = opcode) :
    ram.instructionAt pc = .extended op ↔ ram.HoldsExtended pc opcode := by
  rw [instructionAt_eq_extended, only]
  exact Iff.rfl

private theorem writesNothing_iff (ram : Memory) (pc : UInt16) :
    ram.instructionAt pc = .extended (.output none) ↔ ram.HoldsExtended pc 0x71 :=
  instructionAt_eq_extended_iff fun byte =>
    (ExtendedOperation.ofByte_eq_iff byte).1

theorem loadsInterruptRegister_iff (ram : Memory) (pc : UInt16) :
    (ram.instructionAt pc).LoadsInterruptRegister ↔
      ram.HoldsExtended pc 0x57 ∨ ram.HoldsExtended pc 0x5F :=
  or_congr
    (instructionAt_eq_extended_iff fun byte =>
      (ExtendedOperation.ofByte_eq_iff byte).2.1)
    (instructionAt_eq_extended_iff fun byte =>
      (ExtendedOperation.ofByte_eq_iff byte).2.2)

/-- One operation looks at the model. -/
theorem execute_eq_of_ne {instruction : Instruction}
    (other : instruction ≠ .extended (.output none)) (model same : Model)
    (regs : Registers) :
    instruction.execute model regs = instruction.execute same regs := by
  cases instruction with
  | extended op =>
      cases op with
      | output source =>
          cases source with
          | none => exact absurd rfl other
          | some source => rfl
      | _ => rfl
  | _ => rfl

end Instruction

def Flat.withWrites (flat : Flat) (writes : Array (UInt16 × UInt8)) : Flat :=
  { flat with writes := writes }

namespace Cpu

def withModel (cpu : Cpu) (model : Model) : Cpu :=
  { cpu with model := model }

variable {cpu : Cpu} {flat : Flat}

private theorem runInstruction_withModel (cpu : Cpu) (flat : Flat)
    (other : flat.ram.instructionAt cpu.regs.pc ≠ .extended (.output none))
    (model : Model) :
    (cpu.withModel model).runInstruction Flat.bus flat =
      let ran := cpu.runInstruction Flat.bus flat
      ((ran.1.1, ran.1.2.withModel model), ran.2) := by
  have found :
      flat.ram.instructionAt (cpu.withModel model).regs.pc =
        flat.ram.instructionAt cpu.regs.pc :=
    rfl
  have same :
      flat.ram.instructionAt cpu.regs.pc = flat.ram.instructionAt cpu.regs.pc :=
    rfl
  rw [runInstruction_flat found, runInstruction_flat same]
  simp only [Instruction.execute_eq_of_ne other (cpu.withModel model).model cpu.model]
  rfl

private theorem runInstruction_nmos
    (other : flat.ram.instructionAt cpu.regs.pc ≠ .extended (.output none)) :
    (cpu.withModel .nmos).runInstruction Flat.bus flat =
      let ran := (cpu.withModel .cmos).runInstruction Flat.bus flat
      ((ran.1.1, ran.1.2.withModel .nmos), ran.2) :=
  runInstruction_withModel (cpu.withModel .cmos) flat other .nmos

/-! ## Boundaries -/

theorem interruptTaken_withModel (model : Model) :
    (cpu.withModel model).interruptTaken flat =
      (cpu.interruptTaken flat).map (·.withModel model) id := by
  have mode : (cpu.withModel model).regs.im = cpu.regs.im := rfl
  simp only [interruptTaken, mode]
  split
  · rfl
  · split <;> rfl

/-- No boundary looks at the model. -/
theorem served_withModel (cpu : Cpu) (flat : Flat) (model : Model) :
    (cpu.withModel model).served flat =
      (cpu.served flat).map (·.withModel model) id :=
  served_commutes flat (·.withModel model) rfl rfl rfl (fun _ => rfl)
    (interruptTaken_withModel model)

/-- No boundary looks at the record of port writes, and none adds to it. -/
theorem served_withWrites (cpu : Cpu) (flat : Flat)
    (writes : Array (UInt16 × UInt8)) :
    cpu.served (flat.withWrites writes) =
      (cpu.served flat).map id (·.withWrites writes) := by
  have interrupt :
      cpu.interruptTaken (flat.withWrites writes) =
        (cpu.interruptTaken flat).map id (·.withWrites writes) := by
    unfold interruptTaken
    split
    · rfl
    · split <;> rfl
  simp only [served]
  split
  · rfl
  · split
    · rfl
    · split
      · exact interrupt
      · rfl

/-! ## Steps -/

theorem step_of_not_loads
    (plain : ¬ (flat.ram.instructionAt cpu.regs.pc).LoadsInterruptRegister) :
    cpu.step Flat.bus flat =
      let ran := cpu.runInstruction Flat.bus flat
      ran.1.2.served ran.2 := by
  rw [← Instruction.boundary_eq_sampling_iff, ← fst_runInstruction_flat] at plain
  rw [step_of_not_sampling Flat.bus cpu flat plain, service_flat_eq_served]

/-- The write of no register, with the byte that its model puts on the bus. -/
theorem step_of_writesNothing (cpu : Cpu) {flat : Flat}
    (found : flat.ram.instructionAt cpu.regs.pc = .extended (.output none)) :
    cpu.step Flat.bus flat =
      let left : Cpu :=
        { cpu with
          regs := (cpu.regs.refresh 2).advance 2
          control := cpu.control.after .plain }
      (left.served (flat.addCycles 12)).map id
        (·.withWrites (flat.writes.push (cpu.regs.bc, cpu.model.outputZero))) := by
  have plain :
      ¬ (flat.ram.instructionAt cpu.regs.pc).LoadsInterruptRegister := by
    rw [found]
    decide
  rw [step_of_not_loads plain, runInstruction_flat found]
  exact served_withWrites _ (flat.addCycles 12) _

/-- An interrupt comes while an instruction reads the second enable latch, and
nothing keeps it out. -/
structure InterruptedSample (cpu : Cpu) (flat : Flat) : Prop where
  loads :
    flat.ram.HoldsExtended cpu.regs.pc 0x57 ∨
      flat.ram.HoldsExtended cpu.regs.pc 0x5F
  enabled : cpu.regs.iff1 = true
  second : cpu.regs.iff2 = true
  pending : cpu.control.interruptPending = true
  noNonMaskable : cpu.control.nonMaskable = false
  noJump : cpu.control.setPc = false

/-- What stays as it was when an interrupt register is loaded. -/
structure LeavesLatches (cpu left : Cpu) : Prop where
  enabled : left.regs.iff1 = cpu.regs.iff1
  second : left.regs.iff2 = cpu.regs.iff2
  shown : left.regs.f.parity = left.regs.iff2
  control : left.control = { cpu.control with checkInterrupt := true }
  model : left.model = cpu.model

theorem leavesLatches_runInstruction (cpu : Cpu) {flat : Flat}
    (loads : (flat.ram.instructionAt cpu.regs.pc).LoadsInterruptRegister) :
    cpu.LeavesLatches (cpu.runInstruction Flat.bus flat).1.2 := by
  rcases loads with found | found
  · rw [runInstruction_flat found]
    exact ⟨rfl, rfl, rfl, rfl, rfl⟩
  · rw [runInstruction_flat found]
    exact ⟨rfl, rfl, rfl, rfl, rfl⟩

section LeavesLatches

variable {left : Cpu} (leaves : cpu.LeavesLatches left)

include leaves

theorem LeavesLatches.noJump (sample : cpu.InterruptedSample flat) :
    left.control.setPc = false := by
  rw [leaves.control]
  exact sample.noJump

theorem LeavesLatches.noNonMaskable (sample : cpu.InterruptedSample flat) :
    left.control.nonMaskable = false := by
  rw [leaves.control]
  exact sample.noNonMaskable

/-- A model that keeps the parity bit accepts the interrupt at the boundary. -/
theorem LeavesLatches.served_eq (sample : cpu.InterruptedSample flat) (host : Flat) :
    left.served host = left.interruptTaken host := by
  rw [served_of_notUrgent host (leaves.noJump sample)
      (leaves.noNonMaskable sample), leaves.control,
    leaves.enabled, sample.enabled, sample.pending]
  rfl

/-- A model that loses the parity bit accepts it before, and at the boundary
nothing is left to accept. -/
theorem LeavesLatches.service_serviceSampled (loses : cpu.model.losesParity = true)
    (sample : cpu.InterruptedSample flat) (host : Flat) :
    (left.serviceSampled Flat.bus host).1.service Flat.bus
        (left.serviceSampled Flat.bus host).2 =
      (left.interruptTaken host).map loseParity id := by
  have noJump := leaves.noJump sample
  have noNonMaskable := leaves.noNonMaskable sample
  have accepted :
      left.serviceSampled Flat.bus host = left.loseParity.interruptTaken host := by
    rw [serviceSampled_flat left host noJump leaves.shown, leaves.model,
      leaves.enabled, leaves.second, leaves.control, loses, sample.enabled,
      sample.second, sample.pending, sample.noNonMaskable]
    rfl
  rw [accepted, service_interruptTaken left.loseParity host noJump noNonMaskable]
  exact interruptTaken_loseParity left host

/-- Without an interrupt in the instruction there is only the boundary. -/
theorem LeavesLatches.serviceSampled_eq
    (spared : cpu.model.losesParity = true → ¬ cpu.InterruptedSample flat)
    (loads : (flat.ram.instructionAt cpu.regs.pc).LoadsInterruptRegister)
    (host : Flat) :
    left.serviceSampled Flat.bus host = (left, host) := by
  cases jump : left.control.setPc with
  | true => exact serviceSampled_flat_of_jump left host jump leaves.shown
  | false =>
      rw [serviceSampled_flat left host jump leaves.shown, leaves.model,
        leaves.enabled, leaves.second]
      rw [leaves.control] at jump ⊢
      -- What would let the interrupt in is what makes it come in between.
      refine if_neg fun due => ?_
      simp only [Bool.and_eq_true, Bool.not_eq_true'] at due
      obtain ⟨⟨loses, second⟩, ⟨pending, noNonMaskable⟩, enabled⟩ := due
      exact spared loses
        { loads := (Instruction.loadsInterruptRegister_iff _ _).mp loads
          enabled := enabled
          second := second
          pending := pending
          noNonMaskable := noNonMaskable
          noJump := jump }

end LeavesLatches

theorem sampling_runInstruction
    (loads : (flat.ram.instructionAt cpu.regs.pc).LoadsInterruptRegister) :
    (cpu.runInstruction Flat.bus flat).1.1.boundary = .sampling := by
  rw [fst_runInstruction_flat, Instruction.boundary_eq_sampling_iff]
  exact loads

/-- Where no interrupt comes during the instruction, all that is served is
served at the boundary. -/
theorem step_eq_served (cpu : Cpu) (flat : Flat)
    (spared : cpu.model.losesParity = true → ¬ cpu.InterruptedSample flat) :
    cpu.step Flat.bus flat =
      let ran := cpu.runInstruction Flat.bus flat
      ran.1.2.served ran.2 := by
  by_cases loads : (flat.ram.instructionAt cpu.regs.pc).LoadsInterruptRegister
  · have leaves := cpu.leavesLatches_runInstruction loads
    rw [step_of_sampling Flat.bus cpu flat (sampling_runInstruction loads)]
    dsimp only
    rw [leaves.serviceSampled_eq spared loads, service_flat_eq_served]
  · exact step_of_not_loads loads

private theorem step_of_interruptedSample (cpu : Cpu) {flat : Flat}
    (loses : cpu.model.losesParity = true)
    (sample : cpu.InterruptedSample flat) :
    cpu.step Flat.bus flat =
      let ran := cpu.runInstruction Flat.bus flat
      (ran.1.2.interruptTaken ran.2).map loseParity id := by
  have loads := (Instruction.loadsInterruptRegister_iff _ _).mpr sample.loads
  rw [step_of_sampling Flat.bus cpu flat (sampling_runInstruction loads)]
  exact (cpu.leavesLatches_runInstruction loads).service_serviceSampled loses
    sample _

/-- How a step of one state on the model that loses the parity bit stands to a
step of it on the model that keeps it. -/
structure ModelsOutcome (cpu : Cpu) (flat : Flat) (loses keeps : Cpu × Flat) :
    Prop where
  /-- The write of no register differs in the byte, and in nothing else. -/
  writesNothing :
    flat.ram.HoldsExtended cpu.regs.pc 0x71 →
      loses =
          (keeps.1.withModel .nmos,
            keeps.2.withWrites (flat.writes.push (cpu.regs.bc, 0x00))) ∧
        keeps.2.writes = flat.writes.push (cpu.regs.bc, 0xFF)
  /-- The interrupt is accepted after what the instruction leaves, and of that
  one model loses the parity bit. -/
  interrupted :
    cpu.InterruptedSample flat →
      keeps =
          (((cpu.withModel .cmos).runInstruction Flat.bus flat).1.2).interruptTaken
            ((cpu.withModel .cmos).runInstruction Flat.bus flat).2 ∧
        keeps.1.regs.f.parity = true ∧
        loses = (keeps.1.loseParity.withModel .nmos, keeps.2)
  alike :
    ¬ flat.ram.HoldsExtended cpu.regs.pc 0x71 →
      ¬ cpu.InterruptedSample flat →
        loses = (keeps.1.withModel .nmos, keeps.2)

private theorem interruptedSample_withModel (sample : cpu.InterruptedSample flat)
    (model : Model) : (cpu.withModel model).InterruptedSample flat :=
  ⟨sample.loads, sample.enabled, sample.second, sample.pending,
    sample.noNonMaskable, sample.noJump⟩

/-- In every state the models differ in the byte of the write of no register, in
the parity bit under an interrupt, and in nothing else. -/
theorem step_models (cpu : Cpu) (flat : Flat) :
    cpu.ModelsOutcome flat ((cpu.withModel .nmos).step Flat.bus flat)
      ((cpu.withModel .cmos).step Flat.bus flat) where
  writesNothing := by
    intro holds
    have found := (Instruction.writesNothing_iff _ _).mpr holds
    have loses := step_of_writesNothing (cpu.withModel .nmos) found
    have keeps := step_of_writesNothing (cpu.withModel .cmos) found
    rw [loses, keeps]
    refine ⟨?_, rfl⟩
    exact congrArg (Prod.map id (Flat.withWrites · _))
      (served_withModel
        { cpu.withModel .cmos with
          regs := (cpu.regs.refresh 2).advance 2
          control := cpu.control.after .plain }
        (flat.addCycles 12) .nmos)
  interrupted := by
    intro sample
    have loads := (Instruction.loadsInterruptRegister_iff _ _).mpr sample.loads
    have other :
        flat.ram.instructionAt cpu.regs.pc ≠ .extended (.output none) := by
      intro found
      rw [found] at loads
      exact absurd loads (by decide)
    have leaves := leavesLatches_runInstruction (cpu.withModel .cmos) loads
    have keeps :=
      (step_eq_served (cpu.withModel .cmos) flat nofun).trans
        (leaves.served_eq (interruptedSample_withModel sample .cmos) _)
    have loses :=
      step_of_interruptedSample (cpu.withModel .nmos) rfl
        (interruptedSample_withModel sample .nmos)
    have same := runInstruction_nmos other
    refine ⟨keeps, ?_, ?_⟩
    · rw [keeps, flags_interruptTaken, leaves.shown, leaves.second]
      exact sample.second
    · rw [loses, keeps, same]
      dsimp only
      rw [interruptTaken_withModel]
      generalize interruptTaken _ _ = taken
      rfl
  alike := by
    intro notWrite notSample
    have other :
        flat.ram.instructionAt cpu.regs.pc ≠ .extended (.output none) :=
      fun found => notWrite ((Instruction.writesNothing_iff _ _).mp found)
    have keeps := step_eq_served (cpu.withModel .cmos) flat nofun
    have loses :=
      step_eq_served (cpu.withModel .nmos) flat
        fun _ sample => notSample (interruptedSample_withModel sample cpu.model)
    have same := runInstruction_nmos other
    rw [loses, keeps, same]
    dsimp only
    rw [served_withModel]
    generalize served _ _ = served
    rfl

/-- An interrupt can come so: both latches are set, it is pending, and nothing
goes before it. -/
example : sampling.InterruptedSample samplingHost where
  loads := .inl ⟨by decide, by decide⟩
  enabled := rfl
  second := rfl
  pending := rfl
  noNonMaskable := rfl
  noJump := rfl

end Cpu

end Z80
