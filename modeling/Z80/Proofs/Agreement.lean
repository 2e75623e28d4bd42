import Z80.Cpu.Command

/-!
# Hosts that cannot be told apart

A processor knows of its host only what the answers tell.  When two hosts
answer alike from related states and stay related, it does the same on both.

Relations between states come in pairs, one that holds before an action and one
that holds after it, because the first access of an instruction may bring about
what the others only keep.

Main statements: `Cpu.step_matching` and `Cpu.run_matching`.
-/

namespace Z80

variable {σ τ α β : Type}

/-! ## Actions on two states -/

/-- The same answer, and states that are related. -/
structure SameAnswer (related : σ → τ → Prop) (left : α × σ) (right : α × τ) :
    Prop where
  answer : left.1 = right.1
  state : related left.2 right.2

@[elab_as_elim]
theorem SameAnswer.elim {related : σ → τ → Prop}
    {motive : α × σ → α × τ → Prop} {left : α × σ} {right : α × τ}
    (same : SameAnswer related left right)
    (pair : ∀ answer s t, related s t → motive (answer, s) (answer, t)) :
    motive left right := by
  obtain ⟨answer, s⟩ := left
  obtain ⟨other, t⟩ := right
  obtain ⟨sameAnswer, start⟩ := same
  cases sameAnswer
  exact pair answer s t start

theorem SameAnswer.map {related : σ → τ → Prop} {left : α × σ} {right : α × τ}
    (same : SameAnswer related left right) (change : α → β) :
    SameAnswer related (change left.1, left.2) (change right.1, right.2) :=
  ⟨congrArg change same.answer, same.state⟩

/-- From states related by `before`, two actions answer alike and leave states
related by `after`. -/
def Matching (before after : σ → τ → Prop) (left : σ → α × σ)
    (right : τ → α × τ) : Prop :=
  ∀ s t, before s t → SameAnswer after (left s) (right t)

/-- `Matching` for changes without an answer. -/
def Keeping (before after : σ → τ → Prop) (left : σ → σ) (right : τ → τ) :
    Prop :=
  ∀ s t, before s t → after (left s) (right t)

private theorem Matching.settle {before after : σ → τ → Prop} {left : σ → α × σ}
    {right : τ → α × τ} (matching : Matching before after left right)
    (settled : ∀ s t, after s t → before s t) :
    Matching after after left right := by
  intro s t start
  exact matching s t (settled s t start)

private theorem Keeping.matching {before after : σ → τ → Prop} {left : σ → σ}
    {right : τ → τ} (keeping : Keeping before after left right) :
    Matching before after (fun s => ((), left s)) (fun t => ((), right t)) := by
  intro s t start
  exact ⟨rfl, keeping s t start⟩

/-! ## Buses -/

/-- The machine cycles match, and the first fetch of an instruction leads from
`before` to `after`. -/
structure Bus.Alike (before after : σ → τ → Prop) (left : Bus σ)
    (right : Bus τ) : Prop where
  fetchFirst : ∀ pc, Matching before after (left.fetchFirst pc) (right.fetchFirst pc)
  cycle : ∀ cycle : Cycle,
    Matching after after (cycle.perform left) (cycle.perform right)

/-- Whatever the processor asks of either bus, the answers are alike. -/
structure Bus.Agreement (related : σ → τ → Prop) (left : Bus σ)
    (right : Bus τ) : Prop where
  cycle : ∀ cycle : Cycle,
    Matching related related (cycle.perform left) (cycle.perform right)
  requests : Matching related related left.requests right.requests
  acknowledge : Keeping related related left.acknowledge right.acknowledge
  report : ∀ event,
    Keeping related related (left.report event) (right.report event)

theorem Bus.Agreement.alike {related : σ → τ → Prop} {left : Bus σ}
    {right : Bus τ} (agreement : Bus.Agreement related left right) :
    Bus.Alike related related left right :=
  ⟨fun pc => agreement.cycle (.fetchFirst pc), agreement.cycle⟩

/-! ## Hosts -/

/-- The untimed accesses of two hosts match. -/
structure Host.Accesses (related : σ → τ → Prop) (left : Host σ)
    (right : Host τ) : Prop where
  read : ∀ address,
    Matching related related (left.read address) (right.read address)
  write : ∀ address byte,
    Keeping related related (left.write address byte) (right.write address byte)
  readPort : ∀ port,
    Matching related related (left.readPort port) (right.readPort port)
  writePort : ∀ port byte,
    Keeping related related (left.writePort port byte) (right.writePort port byte)
  tapePatch : ∀ regs,
    Matching related related (left.tapePatch regs) (right.tapePatch regs)

/-- Letting the same cycles pass on both hosts leads from `before` to `after`,
and the untimed accesses keep `after`. -/
structure Host.Alike (before after : σ → τ → Prop) (left : Host σ)
    (right : Host τ) : Prop extends Host.Accesses after left right where
  settled : ∀ s t, after s t → before s t
  advance : ∀ cycles,
    Keeping before after (left.advance cycles) (right.advance cycles)

namespace Host

variable {before after related : σ → τ → Prop} {left : Host σ}
  {right : Host τ}

private theorem Accesses.readPair (accesses : Accesses related left right)
    (address : UInt16) :
    Matching related related (left.readPair address) (right.readPair address) := by
  intro s t start
  obtain ⟨sameLow, afterLow⟩ := accesses.read address s t start
  obtain ⟨sameHigh, afterHigh⟩ := accesses.read (address + 1) _ _ afterLow
  exact ⟨congr (congrArg Word.ofBytes sameHigh) sameLow, afterHigh⟩

private theorem Accesses.writePair (accesses : Accesses related left right)
    (address word : UInt16) :
    Keeping related related (left.writePair address word)
      (right.writePair address word) := by
  intro s t start
  have afterLow := accesses.write address (Word.low word) s t start
  exact accesses.write (address + 1) (Word.high word) _ _ afterLow

namespace Alike

variable (alike : Alike before after left right)

include alike

theorem readMemory_bus (address : UInt16) :
    Matching before after (left.bus.readMemory address)
      (right.bus.readMemory address) := by
  intro s t start
  exact alike.read address _ _ (alike.advance 3 s t start)

theorem writeMemory_bus (address : UInt16) (byte : UInt8) :
    Keeping before after (left.bus.writeMemory address byte)
      (right.bus.writeMemory address byte) := by
  intro s t start
  exact alike.write address byte _ _ (alike.advance 3 s t start)

private theorem readWord_bus (address : UInt16) :
    Matching before after (left.bus.readWord address)
      (right.bus.readWord address) := by
  intro s t start
  obtain ⟨sameLow, afterLow⟩ := alike.readMemory_bus address s t start
  obtain ⟨sameHigh, afterHigh⟩ :=
    alike.readMemory_bus (address + 1) _ _ (alike.settled _ _ afterLow)
  exact ⟨congr (congrArg Word.ofBytes sameHigh) sameLow, afterHigh⟩

private theorem writeWord_bus (address word : UInt16) :
    Keeping before after (left.bus.writeWord address word)
      (right.bus.writeWord address word) := by
  intro s t start
  have afterLow := alike.writeMemory_bus address (Word.low word) s t start
  exact alike.writeMemory_bus (address + 1) (Word.high word) _ _
    (alike.settled _ _ afterLow)

private theorem fetchFirst_bus (pc : UInt16) :
    Matching before after (left.bus.fetchFirst pc) (right.bus.fetchFirst pc) := by
  intro s t start
  have charged := alike.advance 1 s t start
  exact alike.readMemory_bus pc _ _ (alike.settled _ _ charged)

theorem bus : Bus.Alike before after left.bus right.bus := by
  refine ⟨alike.fetchFirst_bus, ?_⟩
  intro cycle
  cases cycle with
  | internal cycles =>
      exact (alike.advance cycles).matching.settle alike.settled
  | readMemory address =>
      exact (alike.readMemory_bus address).settle alike.settled
  | writeMemory address byte =>
      exact (alike.writeMemory_bus address byte).matching.settle alike.settled
  | readWord address => exact (alike.readWord_bus address).settle alike.settled
  | writeWord address word =>
      exact (alike.writeWord_bus address word).matching.settle alike.settled
  | input port =>
      intro s t start
      have charged := alike.advance 4 s t (alike.settled s t start)
      exact alike.readPort port _ _ charged
  | output port byte =>
      intro s t start
      have charged := alike.advance 4 s t (alike.settled s t start)
      exact ⟨rfl, alike.writePort port byte _ _ charged⟩
  | fetchFirst pc => exact (alike.fetchFirst_bus pc).settle alike.settled
  | fetchSecond pc => exact (alike.fetchFirst_bus (pc + 1)).settle alike.settled
  | fetchByte pc offset =>
      exact (alike.readMemory_bus (pc + offset)).settle alike.settled
  | fetchWord pc offset =>
      exact (alike.readWord_bus (pc + offset)).settle alike.settled
  | tapePatch regs => exact alike.tapePatch regs

/-- Every access on a waiting bus is announced and charged before it is made. -/
theorem waitingBus (cost : Access → Nat) {leftAnnounce : Access → σ → σ}
    {rightAnnounce : Access → τ → τ}
    (announced : ∀ access,
      Keeping before before (leftAnnounce access) (rightAnnounce access)) :
    Bus.Alike before after (left.waitingBus cost leftAnnounce)
      (right.waitingBus cost rightAnnounce) := by
  have charged (access : Access) {s : σ} {t : τ} (start : before s t) :
      after (left.advance (cost access) (leftAnnounce access s))
        (right.advance (cost access) (rightAnnounce access t)) :=
    alike.advance (cost access) _ _ (announced access s t start)
  refine ⟨?_, ?_⟩
  · intro pc s t start
    exact alike.read pc _ _ (charged (.fetchFirst pc) start)
  intro cycle s t start
  have ready := alike.settled s t start
  cases cycle with
  | internal cycles => exact ⟨rfl, alike.advance cycles s t ready⟩
  | readMemory address =>
      exact alike.read address _ _ (charged (.readMemory address) ready)
  | writeMemory address byte =>
      exact ⟨rfl,
        alike.write address byte _ _ (charged (.writeMemory address) ready)⟩
  | readWord address =>
      exact alike.readPair address _ _ (charged (.readWord address) ready)
  | writeWord address word =>
      exact ⟨rfl,
        alike.writePair address word _ _ (charged (.writeWord address) ready)⟩
  | input port => exact alike.readPort port _ _ (charged (.input port) ready)
  | output port byte =>
      exact ⟨rfl, alike.writePort port byte _ _ (charged (.output port) ready)⟩
  | fetchFirst pc => exact alike.read pc _ _ (charged (.fetchFirst pc) ready)
  | fetchSecond pc =>
      exact alike.read (pc + 1) _ _ (charged (.fetchSecond pc) ready)
  | fetchByte pc offset =>
      exact alike.read (pc + offset) _ _ (charged (.fetchByte pc offset) ready)
  | fetchWord pc offset =>
      exact alike.readPair (pc + offset) _ _ (charged (.fetchWord pc offset) ready)
  | tapePatch regs => exact alike.tapePatch regs s t start

end Alike

/-- Whatever is asked of either host, the answers are alike. -/
structure Agreement (related : σ → τ → Prop) (left : Host σ) (right : Host τ) :
    Prop extends Host.Alike related related left right where
  requests : Matching related related left.requests right.requests
  acknowledge : Keeping related related left.acknowledge right.acknowledge
  report : ∀ event,
    Keeping related related (left.report event) (right.report event)

namespace Agreement

variable (agreement : Host.Agreement related left right)

include agreement

theorem bus : Bus.Agreement related left.bus right.bus :=
  ⟨agreement.toAlike.bus.cycle, agreement.requests, agreement.acknowledge,
    agreement.report⟩

theorem waitingBus (cost : Access → Nat) {leftAnnounce : Access → σ → σ}
    {rightAnnounce : Access → τ → τ}
    (announced : ∀ access,
      Keeping related related (leftAnnounce access) (rightAnnounce access)) :
    Bus.Agreement related (left.waitingBus cost leftAnnounce)
      (right.waitingBus cost rightAnnounce) :=
  ⟨(agreement.toAlike.waitingBus cost announced).cycle, agreement.requests,
    agreement.acknowledge, agreement.report⟩

end Agreement

end Host

/-! ## Microcode -/

namespace Microcode

variable {before middle after : σ → τ → Prop} {left : Bus σ} {right : Bus τ}

theorem run_matching
    (cycles : ∀ cycle : Cycle,
      Matching after after (cycle.perform left) (cycle.perform right))
    (code : Microcode α) :
    Matching after after (code.run left) (code.run right) := by
  induction code with
  | done value =>
      intro s t start
      exact ⟨rfl, start⟩
  | step cycle next inductionHypothesis =>
      intro s t start
      unfold run
      refine SameAnswer.elim (cycles cycle s t start) ?_
      intro answer s t start
      exact inductionHypothesis answer s t start

private theorem run_bind_matching {code : Microcode α} {next : α → Microcode β}
    (first : Matching before middle (code.run left) (code.run right))
    (rest : ∀ value,
      Matching middle after ((next value).run left) ((next value).run right)) :
    Matching before after ((code >>= next).run left)
      ((code >>= next).run right) := by
  intro s t start
  rw [run_bind, run_bind]
  refine SameAnswer.elim (first s t start) ?_
  intro value s t start
  exact rest value s t start

end Microcode

/-- An instruction begins with its first fetch. -/
theorem Instruction.run_perform_matching {before after : σ → τ → Prop}
    {left : Bus σ} {right : Bus τ} (alike : Bus.Alike before after left right)
    (model : Model) (regs : Registers) :
    Matching before after ((Instruction.perform model regs).run left)
      ((Instruction.perform model regs).run right) := by
  have later {γ : Type} (code : Microcode γ) :=
    Microcode.run_matching alike.cycle code
  have fetched :
      Matching before after ((Instruction.fetch regs.pc).run left)
        ((Instruction.fetch regs.pc).run right) := by
    refine Microcode.run_bind_matching (alike.fetchFirst regs.pc) ?_
    intro opcode
    exact later _
  refine Microcode.run_bind_matching fetched ?_
  intro instruction
  exact later _

/-! ## Processors -/

namespace Cpu

variable {before related : σ → τ → Prop} {left : Bus σ} {right : Bus τ}

theorem runInstruction_matching {after : σ → τ → Prop}
    (alike : Bus.Alike before after left right) (cpu : Cpu) :
    Matching before after (cpu.runInstruction left)
      (cpu.runInstruction right) := by
  intro s t start
  exact (Instruction.run_perform_matching alike cpu.model cpu.regs s t start).map
    fun performed =>
      (performed.1,
        { cpu with
          regs := performed.2
          control := cpu.control.after performed.1.boundary })

theorem runRegisters_matching (agreement : Bus.Agreement related left right)
    (code : Registers → Microcode Registers) (cpu : Cpu) :
    Matching related related (cpu.runRegisters left code)
      (cpu.runRegisters right code) := by
  intro s t start
  exact (Microcode.run_matching agreement.cycle (code cpu.regs) s t start).map
    fun regs => { cpu with regs := regs }

theorem poll_matching (agreement : Bus.Agreement related left right)
    (cpu : Cpu) :
    Matching related related (cpu.poll left) (cpu.poll right) := by
  intro s t start
  exact (agreement.requests s t start).map cpu.latch

private theorem serviceJump_matching (agreement : Bus.Agreement related left right)
    (cpu : Cpu) :
    Matching related related (cpu.serviceJump left) (cpu.serviceJump right) := by
  intro s t start
  unfold serviceJump
  cases cpu.newPc with
  | none => exact ⟨rfl, start⟩
  | some target => exact ⟨rfl, agreement.report _ s t start⟩

private theorem serviceNonMaskable_matching
    (agreement : Bus.Agreement related left right) (cpu : Cpu) :
    Matching related related (cpu.serviceNonMaskable left)
      (cpu.serviceNonMaskable right) := by
  intro s t start
  unfold serviceNonMaskable
  exact runRegisters_matching agreement _ _ _ _ (agreement.report _ s t start)

theorem acceptInterrupt_matching (agreement : Bus.Agreement related left right)
    (cpu : Cpu) :
    Matching related related (cpu.acceptInterrupt left)
      (cpu.acceptInterrupt right) := by
  intro s t start
  have acknowledged := agreement.acknowledge s t start
  unfold acceptInterrupt
  dsimp only
  split
  · exact ⟨rfl, agreement.report _ _ _ acknowledged⟩
  · exact runRegisters_matching agreement _ _ _ _
      (agreement.report _ _ _ acknowledged)
  · exact runRegisters_matching agreement _ _ _ _
      (agreement.report _ _ _ acknowledged)

private theorem serviceUrgent_matching (agreement : Bus.Agreement related left right)
    (cpu : Cpu) :
    Matching related related (cpu.serviceUrgent left)
      (cpu.serviceUrgent right) := by
  have nonMaskable (cpu : Cpu) :
      Matching related related
        (fun s =>
          if cpu.control.nonMaskable then cpu.serviceNonMaskable left s
          else (cpu, s))
        (fun t =>
          if cpu.control.nonMaskable then cpu.serviceNonMaskable right t
          else (cpu, t)) := by
    intro s t start
    dsimp only
    split
    · exact serviceNonMaskable_matching agreement cpu s t start
    · exact ⟨rfl, start⟩
  intro s t start
  unfold serviceUrgent
  by_cases jump : cpu.control.setPc = true
  · rw [if_pos jump, if_pos jump]
    refine SameAnswer.elim (serviceJump_matching agreement cpu s t start) ?_
    intro cpu s t start
    exact nonMaskable cpu s t start
  · rw [if_neg jump, if_neg jump]
    exact nonMaskable cpu s t start

/-- What is served depends on two processors only through what they know once
they have asked their hosts. -/
theorem service_matching_of_poll {first second : Cpu}
    (agreement : Bus.Agreement related left right)
    (polled : Matching before related (first.poll left) (second.poll right)) :
    Matching before related (first.service left) (second.service right) := by
  intro s t start
  unfold service
  refine SameAnswer.elim (polled s t start) ?_
  intro cpu s t start
  dsimp only
  split
  · exact serviceUrgent_matching agreement cpu s t start
  · split
    · exact acceptInterrupt_matching agreement cpu s t start
    · exact ⟨rfl, start⟩

theorem service_matching (agreement : Bus.Agreement related left right)
    (cpu : Cpu) :
    Matching related related (cpu.service left) (cpu.service right) :=
  service_matching_of_poll agreement (poll_matching agreement cpu)

/-- The processors whose parity bit is at stake after an instruction that
sampled the interrupt enable latch. -/
def RisksParity (cpu : Cpu) : Prop :=
  (cpu.model.losesParity && cpu.regs.f.parity) = true

theorem serviceSampled_of_not_risksParity (bus : Bus σ) {cpu : Cpu}
    (state : σ) (safe : ¬ cpu.RisksParity) :
    cpu.serviceSampled bus state = (cpu, state) := by
  unfold RisksParity at safe
  unfold serviceSampled
  rw [if_neg safe]

theorem serviceSampled_matching_of_poll {first second : Cpu}
    (agreement : Bus.Agreement related left right)
    (firstRisks : first.RisksParity) (secondRisks : second.RisksParity)
    (polled : Matching before related (first.poll left) (second.poll right)) :
    Matching before related (first.serviceSampled left)
      (second.serviceSampled right) := by
  have parity (cpu : Cpu) {s : σ} {t : τ} (start : related s t) :
      SameAnswer related
        (if cpu.regs.iff2 then (cpu, s)
          else ({ cpu with regs.f.parity := false }, s))
        (if cpu.regs.iff2 then (cpu, t)
          else ({ cpu with regs.f.parity := false }, t)) := by
    split
    · exact ⟨rfl, start⟩
    · exact ⟨rfl, start⟩
  intro s t start
  unfold RisksParity at firstRisks secondRisks
  unfold serviceSampled
  rw [if_pos firstRisks, if_pos secondRisks]
  refine SameAnswer.elim (polled s t start) ?_
  intro cpu s t start
  dsimp only
  by_cases due :
      (cpu.control.interruptPending && !cpu.control.nonMaskable &&
        !cpu.control.setPc && cpu.regs.iff1) = true
  · rw [if_pos due, if_pos due]
    refine SameAnswer.elim (acceptInterrupt_matching agreement cpu s t start) ?_
    intro cpu s t start
    exact parity cpu start
  · rw [if_neg due, if_neg due]
    exact parity cpu start

private theorem serviceSampled_matching (agreement : Bus.Agreement related left right)
    (cpu : Cpu) :
    Matching related related (cpu.serviceSampled left)
      (cpu.serviceSampled right) := by
  by_cases risks : cpu.RisksParity
  · exact serviceSampled_matching_of_poll agreement risks risks
      (poll_matching agreement cpu)
  · intro s t start
    rw [serviceSampled_of_not_risksParity left s risks,
      serviceSampled_of_not_risksParity right t risks]
    exact ⟨rfl, start⟩

theorem step_matching (agreement : Bus.Agreement related left right)
    (cpu : Cpu) :
    Matching related related (cpu.step left) (cpu.step right) := by
  intro s t start
  unfold step
  refine SameAnswer.elim (runInstruction_matching agreement.alike cpu s t start) ?_
  intro (instruction, cpu) s t start
  dsimp only
  by_cases sampling : instruction.boundary = .sampling
  · rw [if_pos sampling, if_pos sampling]
    refine SameAnswer.elim (serviceSampled_matching agreement cpu s t start) ?_
    intro cpu s t start
    exact service_matching agreement cpu s t start
  · rw [if_neg sampling, if_neg sampling]
    exact service_matching agreement cpu s t start

/-- Two hosts that answer alike leave every run of instructions the same. -/
theorem run_matching (agreement : Bus.Agreement related left right)
    (count : Nat) (cpu : Cpu) :
    Matching related related (run left count cpu) (run right count cpu) := by
  induction count generalizing cpu with
  | zero =>
      intro s t start
      exact ⟨rfl, start⟩
  | succ count inductionHypothesis =>
      intro s t start
      unfold run
      refine SameAnswer.elim (step_matching agreement cpu s t start) ?_
      intro cpu s t start
      exact inductionHypothesis cpu s t start

end Cpu

/-! ## Commands -/

namespace Command

variable {related : σ → τ → Prop} {left : Bus σ} {right : Bus τ}

theorem apply_matching (agreement : Bus.Agreement related left right)
    (command : Command) (cpu : Cpu) :
    Matching related related (fun s => command.apply left (cpu, s))
      (fun t => command.apply right (cpu, t)) := by
  intro s t start
  cases command with
  | step => exact Cpu.step_matching agreement cpu s t start
  | _ => exact ⟨rfl, start⟩

end Command

end Z80
