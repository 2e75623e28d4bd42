import Z80.Cpu.Command
import Z80.Host.Counted
import Z80.Host.Flat
import Z80.Proofs.Agreement
import Z80.Proofs.Latches

/-!
# At most one acknowledgement

Accepting a maskable interrupt needs the first enable latch and clears both, so
that nothing more is accepted before the next `EI`.

Main statement: `Command.accepted_until_ei`, for every bus.
-/

namespace Z80

variable {α σ : Type}

/-! ## The count -/

namespace Counted

private theorem cycle_accepted (inner : Bus σ) (cycle : Cycle) (counted : Counted σ) :
    (cycle.perform (bus inner) counted).2.accepted = counted.accepted := by
  cases cycle <;> rfl

theorem run_accepted (inner : Bus σ) (code : Microcode α)
    (counted : Counted σ) :
    (code.run (bus inner) counted).2.accepted = counted.accepted := by
  induction code generalizing counted with
  | done value => rfl
  | step cycle next inductionHypothesis =>
      have first := cycle_accepted inner cycle counted
      exact (inductionHypothesis _ _).trans first

/-- The count is all that a counting bus adds. -/
theorem agreement (inner : Bus σ) :
    Bus.Agreement (fun counted state => counted.inner = state) (bus inner)
      inner := by
  refine ⟨?_, ?_, ?_, ?_⟩
  · intro cycle counted state start
    subst start
    cases cycle <;> exact ⟨rfl, rfl⟩
  · intro counted state start
    subst start
    exact ⟨rfl, rfl⟩
  · intro counted state start
    subst start
    rfl
  · intro event counted state start
    subst start
    rfl

end Counted

/-! ## Service -/

namespace Cpu

/-- Nothing was accepted and no latch was set. -/
structure Passed (before after : Cpu × Counted σ) : Prop where
  count : after.2.accepted = before.2.accepted
  first : after.1.regs.iff1 = true → before.1.regs.iff1 = true
  second : after.1.regs.iff2 = before.1.regs.iff2

/-- One interrupt was accepted, which needs the first latch and clears both. -/
structure Accepted (before after : Cpu × Counted σ) : Prop where
  count : after.2.accepted = before.2.accepted + 1
  enabled : before.1.regs.iff1 = true
  disabled : after.1.regs.Disabled

inductive Served (before after : Cpu × Counted σ) : Prop where
  | passed (passed : Passed before after)
  | accepted (accepted : Accepted before after)

section Relations

variable {before middle after : Cpu × Counted σ}

theorem Passed.of_latches (count : after.2.accepted = before.2.accepted)
    (same : after.1.regs.latches = before.1.regs.latches) :
    Passed before after := by
  obtain ⟨first, second⟩ := Prod.mk.inj same
  exact ⟨count, first.symm.trans, second⟩

theorem Passed.trans (first : Passed before middle)
    (second : Passed middle after) : Passed before after :=
  ⟨second.count.trans first.count, first.first ∘ second.first,
    second.second.trans first.second⟩

theorem Passed.disabled (passed : Passed before after)
    (disabled : before.1.regs.Disabled) : after.1.regs.Disabled := by
  have shut : ¬ before.1.regs.iff1 = true := Bool.eq_false_iff.mp disabled.1
  have stays : ¬ after.1.regs.iff1 = true := shut ∘ passed.first
  exact ⟨Bool.eq_false_iff.mpr stays, passed.second.trans disabled.2⟩

/-- Nothing is accepted while the latches are clear. -/
theorem Served.passed_of_disabled (served : Served before after)
    (disabled : before.1.regs.Disabled) : Passed before after := by
  cases served with
  | passed passed => exact passed
  | accepted accepted =>
      have enabled := accepted.enabled
      rw [disabled.1] at enabled
      cases enabled

theorem Served.trans (first : Served before middle)
    (second : Served middle after) : Served before after := by
  cases first with
  | passed passed =>
      cases second with
      | passed later => exact .passed (passed.trans later)
      | accepted later =>
          have count := later.count
          rw [passed.count] at count
          exact .accepted ⟨count, passed.first later.enabled, later.disabled⟩
  | accepted accepted =>
      have later := second.passed_of_disabled accepted.disabled
      exact .accepted
        ⟨later.count.trans accepted.count, accepted.enabled,
          later.disabled accepted.disabled⟩

end Relations

variable (inner : Bus σ) (cpu : Cpu) (counted : Counted σ)

theorem runRegisters_accepted (code : Registers → Microcode Registers) :
    (cpu.runRegisters (Counted.bus inner) code counted).2.accepted =
      counted.accepted :=
  Counted.run_accepted inner _ _

theorem runInstruction_accepted :
    (cpu.runInstruction (Counted.bus inner) counted).2.accepted =
      counted.accepted :=
  Counted.run_accepted inner _ _

theorem poll_passed :
    Passed (cpu, counted) (cpu.poll (Counted.bus inner) counted) :=
  .of_latches rfl rfl

private theorem serviceJump_passed :
    Passed (cpu, counted) (cpu.serviceJump (Counted.bus inner) counted) := by
  unfold serviceJump
  cases cpu.newPc with
  | none => exact .of_latches rfl rfl
  | some target => exact .of_latches rfl rfl

private theorem serviceNonMaskable_passed :
    Passed (cpu, counted)
      (cpu.serviceNonMaskable (Counted.bus inner) counted) := by
  have same := latches_leaveHalt { cpu with control.nonMaskable := false }
  refine ⟨runRegisters_accepted inner _ _ _, ?_, (Prod.mk.inj same).2⟩
  intro enabled
  exact absurd enabled Bool.false_ne_true

private theorem serviceUrgent_passed :
    Passed (cpu, counted) (cpu.serviceUrgent (Counted.bus inner) counted) := by
  have nonMaskable (cpu : Cpu) (counted : Counted σ) :
      Passed (cpu, counted)
        (if cpu.control.nonMaskable then
          cpu.serviceNonMaskable (Counted.bus inner) counted
        else (cpu, counted)) := by
    split
    · exact serviceNonMaskable_passed inner cpu counted
    · exact .of_latches rfl rfl
  unfold serviceUrgent
  dsimp only
  split
  · exact (serviceJump_passed inner cpu counted).trans (nonMaskable _ _)
  · exact nonMaskable cpu counted

theorem acceptInterrupt_accepted (enabled : cpu.regs.iff1 = true) :
    Accepted (cpu, counted)
      (cpu.acceptInterrupt (Counted.bus inner) counted) := by
  have cleared :
      { cpu with regs := cpu.regs.setEnabled false }.leaveHalt.regs.Disabled :=
    .of_latches (latches_leaveHalt _) ⟨rfl, rfl⟩
  unfold acceptInterrupt
  dsimp only
  split
  · exact ⟨rfl, enabled, cleared⟩
  · exact ⟨runRegisters_accepted inner _ _ _, enabled, cleared⟩
  · exact ⟨runRegisters_accepted inner _ _ _, enabled, cleared⟩

/-- At the boundary an interrupt is accepted only if the instruction let it
in. -/
theorem service_cases :
    Passed (cpu, counted) (cpu.service (Counted.bus inner) counted) ∨
      cpu.control.checkInterrupt = true ∧
        Accepted (cpu, counted) (cpu.service (Counted.bus inner) counted) := by
  have polled := poll_passed inner cpu counted
  unfold service
  dsimp only
  split
  · exact .inl (polled.trans (serviceUrgent_passed inner _ _))
  · split
    case isTrue due =>
      simp only [Bool.and_eq_true] at due
      obtain ⟨⟨_, enabled⟩, check⟩ := due
      have accepted :=
        acceptInterrupt_accepted inner (cpu.poll (Counted.bus inner) counted).1
          (cpu.poll (Counted.bus inner) counted).2 enabled
      exact .inr ⟨check, accepted.count, enabled, accepted.disabled⟩
    case isFalse => exact .inl polled

theorem service_served :
    Served (cpu, counted) (cpu.service (Counted.bus inner) counted) := by
  rcases service_cases inner cpu counted with passed | ⟨_, accepted⟩
  · exact .passed passed
  · exact .accepted accepted

private theorem serviceSampled_served :
    Served (cpu, counted) (cpu.serviceSampled (Counted.bus inner) counted) := by
  have polled := Served.passed (poll_passed inner cpu counted)
  refine serviceSampled_elim (Served (cpu, counted))
    (.passed (.of_latches rfl rfl)) polled ?_ ?_
  · intro enabled
    exact polled.trans (.accepted (acceptInterrupt_accepted inner _ _ enabled))
  · intro left served _
    exact served.trans (.passed (.of_latches rfl rfl))

/-! ## Steps -/

/-- What comes of a step once its instruction has run. -/
theorem step_served :
    Served
      ((cpu.runInstruction (Counted.bus inner) counted).1.2,
        (cpu.runInstruction (Counted.bus inner) counted).2)
      (cpu.step (Counted.bus inner) counted) := by
  unfold step
  dsimp only
  split
  · exact (serviceSampled_served inner _ _).trans (service_served inner _ _)
  · exact service_served inner _ _

/-- At most one interrupt is accepted, and then both latches are clear. -/
theorem step_accepted :
    (cpu.step (Counted.bus inner) counted).2.accepted = counted.accepted ∨
      (cpu.step (Counted.bus inner) counted).2.accepted = counted.accepted + 1 ∧
        (cpu.step (Counted.bus inner) counted).1.regs.Disabled := by
  have ran := runInstruction_accepted inner cpu counted
  cases step_served inner cpu counted with
  | passed passed => exact .inl (passed.count.trans ran)
  | accepted accepted =>
      have count := accepted.count
      rw [ran] at count
      exact .inr ⟨count, accepted.disabled⟩

theorem step_of_disabled (patch : inner.PatchKeepsLatches) {cpu : Cpu}
    {counted : Counted σ} (disabled : cpu.regs.Disabled)
    (notEi :
      (cpu.runInstruction (Counted.bus inner) counted).1.1 ≠ .main .hl .ei) :
    (cpu.step (Counted.bus inner) counted).1.regs.Disabled ∧
      (cpu.step (Counted.bus inner) counted).2.accepted = counted.accepted := by
  have counting : (Counted.bus inner).PatchKeepsLatches :=
    fun regs counted => patch regs counted.inner
  have left := disabled_runInstruction counting notEi disabled
  have passed := (step_served inner cpu counted).passed_of_disabled left
  exact ⟨passed.disabled left,
    passed.count.trans (runInstruction_accepted inner cpu counted)⟩

/-- Nothing is accepted in the step that runs `EI`. -/
theorem step_of_ei {cpu : Cpu} {counted : Counted σ}
    (isEi :
      (cpu.runInstruction (Counted.bus inner) counted).1.1 = .main .hl .ei) :
    (cpu.step (Counted.bus inner) counted).2.accepted = counted.accepted := by
  have shielded :
      (cpu.runInstruction (Counted.bus inner) counted).1.2.control.checkInterrupt
        = false := by
    have control :
        (cpu.runInstruction (Counted.bus inner) counted).1.2.control =
          cpu.control.after
            (cpu.runInstruction (Counted.bus inner) counted).1.1.boundary :=
      rfl
    rw [control, isEi]
    rfl
  have notSampling :
      (cpu.runInstruction (Counted.bus inner) counted).1.1.boundary ≠
        .sampling := by
    rw [isEi]
    decide
  have ran := runInstruction_accepted inner cpu counted
  rw [step_of_not_sampling _ _ _ notSampling]
  rcases service_cases inner
      (cpu.runInstruction (Counted.bus inner) counted).1.2
      (cpu.runInstruction (Counted.bus inner) counted).2 with
    passed | ⟨check, _⟩
  · exact passed.count.trans ran
  · rw [shielded] at check
    cases check

end Cpu

/-! ## Runs -/

namespace Command

/-- The number of maskable interrupts that are accepted while commands are
carried out. -/
def accepted (bus : Bus σ) (commands : List Command) (current : Cpu × σ) : Nat :=
  (run (Counted.bus bus) commands (current.1, .start current.2)).2.accepted

/-- The instructions that run while commands are carried out. -/
def executed (bus : Bus σ) : List Command → Cpu × σ → List Instruction
  | [], _ => []
  | command :: rest, current =>
      let later := executed bus rest (command.apply bus current)
      match command with
      | .step => (current.1.runInstruction bus current.2).1.1 :: later
      | _ => later

private theorem not_mem_executed_cons {bus : Bus σ} {instruction : Instruction}
    {command : Command} {rest : List Command} {current : Cpu × σ} :
    instruction ∉ executed bus (command :: rest) current ↔
      (command = .step →
          (current.1.runInstruction bus current.2).1.1 ≠ instruction) ∧
        instruction ∉ executed bus rest (command.apply bus current) := by
  cases command with
  | step => simp [executed, eq_comm]
  | _ => simp [executed]

variable (inner : Bus σ)

/-- The count has no part in what a command does. -/
theorem apply_counted (command : Command) (cpu : Cpu) (counted : Counted σ) :
    SameAnswer (fun counted state => counted.inner = state)
      (command.apply (Counted.bus inner) (cpu, counted))
      (command.apply inner (cpu, counted.inner)) :=
  apply_matching (Counted.agreement inner) command cpu counted _ rfl

private theorem fst_run_counted (commands : List Command) (cpu : Cpu)
    (counted : Counted σ) :
    (run (Counted.bus inner) commands (cpu, counted)).1 =
      (run inner commands (cpu, counted.inner)).1 := by
  induction commands generalizing cpu counted with
  | nil => rfl
  | cons command rest inductionHypothesis =>
      unfold run
      refine SameAnswer.elim (apply_counted inner command cpu counted) ?_
      intro cpu counted state start
      rw [← start]
      exact inductionHypothesis cpu counted

private theorem executed_counted (commands : List Command) (cpu : Cpu)
    (counted : Counted σ) :
    executed (Counted.bus inner) commands (cpu, counted) =
      executed inner commands (cpu, counted.inner) := by
  induction commands generalizing cpu counted with
  | nil => rfl
  | cons command rest inductionHypothesis =>
      have later :
          executed (Counted.bus inner) rest
              (command.apply (Counted.bus inner) (cpu, counted)) =
            executed inner rest (command.apply inner (cpu, counted.inner)) := by
        refine SameAnswer.elim (apply_counted inner command cpu counted) ?_
        intro cpu counted state start
        rw [← start]
        exact inductionHypothesis cpu counted
      have alike := (Counted.agreement inner).alike
      have same := Cpu.runInstruction_matching alike cpu counted _ rfl
      have instruction := congrArg Prod.fst same.answer
      cases command with
      | step => exact congr (congrArg List.cons instruction) later
      | _ => exact later

variable {inner}

theorem apply_accepted (patch : inner.PatchKeepsLatches) (command : Command)
    {cpu : Cpu} (counted : Counted σ) (disabled : cpu.regs.Disabled) :
    (command.apply (Counted.bus inner) (cpu, counted)).2.accepted =
      counted.accepted := by
  cases command with
  | step =>
      by_cases isEi :
          (cpu.runInstruction (Counted.bus inner) counted).1.1 = .main .hl .ei
      · exact Cpu.step_of_ei inner isEi
      · exact (Cpu.step_of_disabled inner patch disabled isEi).2
  | _ => rfl

private theorem apply_disabled (patch : inner.PatchKeepsLatches) {command : Command}
    {cpu : Cpu} {counted : Counted σ} (disabled : cpu.regs.Disabled)
    (noLoad : ∀ data, .load data ≠ command)
    (noEi :
      command = .step →
        (cpu.runInstruction (Counted.bus inner) counted).1.1 ≠ .main .hl .ei) :
    (command.apply (Counted.bus inner) (cpu, counted)).1.regs.Disabled := by
  cases command with
  | step => exact (Cpu.step_of_disabled inner patch disabled (noEi rfl)).1
  | load data => exact absurd rfl (noLoad data)
  | reset => exact ⟨rfl, rfl⟩
  | setProgramCounter target =>
      unfold apply
      dsimp only
      unfold Cpu.setProgramCounter
      split
      · exact disabled
      · exact disabled
  | _ => exact disabled

/-- As long as no `EI` runs, the latches stay clear and nothing is accepted. -/
theorem run_disabled (patch : inner.PatchKeepsLatches)
    (commands : List Command) {cpu : Cpu} {counted : Counted σ}
    (disabled : cpu.regs.Disabled) (noLoad : ∀ data, .load data ∉ commands)
    (noEi :
      .main .hl .ei ∉ executed (Counted.bus inner) commands (cpu, counted)) :
    (run (Counted.bus inner) commands (cpu, counted)).1.regs.Disabled ∧
      (run (Counted.bus inner) commands (cpu, counted)).2.accepted =
        counted.accepted := by
  induction commands generalizing cpu counted with
  | nil => exact ⟨disabled, rfl⟩
  | cons command rest inductionHypothesis =>
      simp only [List.mem_cons, not_or, forall_and] at noLoad
      obtain ⟨noFirst, noLaterLoad⟩ := noLoad
      obtain ⟨notEi, noLaterEi⟩ := not_mem_executed_cons.mp noEi
      have count := apply_accepted patch command counted disabled
      have stays := apply_disabled patch disabled noFirst notEi
      have later := inductionHypothesis stays noLaterLoad noLaterEi
      exact ⟨later.1, later.2.trans count⟩

/-- No interrupt is accepted twice.  A step accepts at most one and leaves both
latches clear if it does.  From then on none is accepted, and the latches stay
clear, until an `EI` has run; nor is one accepted in the step that runs it. -/
theorem accepted_until_ei (bus : Bus σ) :
    (∀ cpu state,
        accepted bus [.step] (cpu, state) ≤ 1 ∧
          (0 < accepted bus [.step] (cpu, state) →
            (cpu.step bus state).1.regs.Disabled)) ∧
      (bus.PatchKeepsLatches →
        ∀ commands cpu state, cpu.regs.Disabled →
          (∀ data, .load data ∉ commands) →
          .main .hl .ei ∉ executed bus commands (cpu, state) →
          (run bus commands (cpu, state)).1.regs.Disabled ∧
            accepted bus commands (cpu, state) = 0 ∧
            ∀ command, accepted bus (commands ++ [command]) (cpu, state) = 0) := by
  refine ⟨?_, ?_⟩
  · intro cpu state
    have count :
        accepted bus [.step] (cpu, state) =
          (cpu.step (Counted.bus bus) (.start state)).2.accepted :=
      rfl
    have same := (apply_counted bus .step cpu (.start state)).answer
    rcases Cpu.step_accepted bus cpu (.start state) with none | ⟨one, disabled⟩
    · rw [count, none]
      exact ⟨Nat.zero_le 1, fun some => absurd some (Nat.lt_irrefl 0)⟩
    · rw [count, one]
      refine ⟨Nat.le_refl 1, fun _ => ?_⟩
      exact same ▸ disabled
  · intro patch commands cpu state disabled noLoad noEi
    have noEiCounted :
        .main .hl .ei ∉
          executed (Counted.bus bus) commands (cpu, .start state) := by
      rw [executed_counted]
      exact noEi
    obtain ⟨stays, count⟩ :=
      run_disabled patch commands disabled noLoad noEiCounted
    refine ⟨?_, count, ?_⟩
    · have left := stays
      rw [fst_run_counted] at left
      exact left
    · intro command
      unfold accepted
      rw [run_append]
      exact (apply_accepted patch command _ stays).trans count

/-- A processor with both latches clear and its stack at low addresses. -/
def shut : Cpu :=
  { Cpu.new .nmos with regs := { (Cpu.new .nmos).regs with sp := 0x20 } }

/-- `NOP`, `EI` and `NOP`, and `RETN` for the non-maskable interrupt. -/
def reopening : Flat :=
  (Flat.new.load 0 [0x00, 0xFB, 0x00]).load 0x66 [0xED, 0x45]

/-- A maskable interrupt waits while a non-maskable one is served. -/
def interrupting : List Command :=
  [.triggerInterrupt, .triggerNonMaskable, .step, .step]

/-- The return from the non-maskable interrupt does not let the other in, and
neither does `EI` in its own step. -/
theorem accepted_until_ei_reopening :
    shut.regs.Disabled ∧
      .main .hl .ei ∉ executed Flat.bus interrupting (shut, reopening) ∧
      (run Flat.bus interrupting (shut, reopening)).1.regs.Disabled ∧
      accepted Flat.bus (interrupting ++ [.step]) (shut, reopening) = 0 ∧
      accepted Flat.bus (interrupting ++ [.step, .step]) (shut, reopening) = 1 := by
  have noEi :
      .main .hl .ei ∉ executed Flat.bus interrupting (shut, reopening) := by
    decide
  have noLoad : ∀ data, .load data ∉ interrupting := by
    intro data
    simp [interrupting]
  obtain ⟨disabled, _, next⟩ :=
    (accepted_until_ei Flat.bus).2 (fun _ _ => rfl) interrupting shut reopening
      ⟨rfl, rfl⟩ noLoad noEi
  exact ⟨⟨rfl, rfl⟩, noEi, disabled, next .step, by decide⟩

end Command

end Z80
