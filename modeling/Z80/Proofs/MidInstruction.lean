import Z80.Bench.Session
import Z80.Proofs.Alarms

/-!
# Interrupts raised in the middle of an instruction

A processor looks for interrupts at the end of an instruction.  One that is
raised while the instruction runs acts like one that was triggered before it.

Main statement: `Cpu.step_raised_within`, for every wiring to the scheduled host.
-/

namespace Z80

variable {α σ τ : Type}

/-! ## Recorded hosts -/

namespace Recorded

/-- The same record around related states. -/
structure Along (related : σ → τ → Prop) (left : Recorded σ)
    (right : Recorded τ) : Prop where
  inner : related left.inner right.inner
  calls : left.calls = right.calls
  events : left.events = right.events

variable {before after related : σ → τ → Prop}

theorem matching_onInner {left : σ → α × σ} {right : τ → α × τ}
    (matching : Matching before after left right) :
    Matching (Along before) (Along after) (onInner left) (onInner right) := by
  intro s t start
  obtain ⟨answer, inner⟩ := matching s.inner t.inner start.inner
  exact ⟨answer, inner, start.calls, start.events⟩

theorem keeping_modify {left : σ → σ} {right : τ → τ}
    (keeping : Keeping before after left right) :
    Keeping (Along before) (Along after) (Zoom.modify onInner left)
      (Zoom.modify onInner right) := by
  intro s t start
  exact ⟨keeping s.inner t.inner start.inner, start.calls, start.events⟩

theorem keeping_call (noted : Call) :
    Keeping (Along related) (Along related) (call noted) (call noted) := by
  intro s t start
  exact ⟨start.inner, congrArg (Array.push · noted) start.calls, start.events⟩

private theorem keeping_event (noticed : Event) :
    Keeping (Along related) (Along related) (event noticed) (event noticed) := by
  intro s t start
  exact ⟨start.inner, start.calls, congrArg (Array.push · noticed) start.events⟩

/-- Answers that are alike are recorded alike. -/
theorem matching_call {left : Recorded σ → α × Recorded σ}
    {right : Recorded τ → α × Recorded τ}
    (matching : Matching (Along before) (Along after) left right)
    (noted : α → Call) :
    Matching (Along before) (Along after)
      (fun s => ((left s).1, (left s).2.call (noted (left s).1)))
      (fun t => ((right t).1, (right t).2.call (noted (right t).1))) := by
  intro s t start
  dsimp only
  refine SameAnswer.elim (matching s t start) ?_
  intro answer s t start
  exact ⟨rfl, keeping_call (noted answer) s t start⟩

variable {left : Host σ} {right : Host τ}

theorem alike_eventHost (alike : Host.Alike before after left right) :
    Host.Alike (Along before) (Along after) (eventHost left)
      (eventHost right) where
  read address := matching_onInner (alike.read address)
  write address byte := keeping_modify (alike.write address byte)
  readPort port := matching_onInner (alike.readPort port)
  writePort port byte := keeping_modify (alike.writePort port byte)
  tapePatch regs := matching_onInner (alike.tapePatch regs)
  settled s t start :=
    ⟨alike.settled s.inner t.inner start.inner, start.calls, start.events⟩
  advance cycles := keeping_modify (alike.advance cycles)

theorem alike_callHost (alike : Host.Alike before after left right) :
    Host.Alike (Along before) (Along after) (callHost left) (callHost right) := by
  have quiet := alike_eventHost alike
  refine ⟨⟨?_, ?_, ?_, ?_, ?_⟩, quiet.settled, ?_⟩
  · intro address
    exact matching_call (quiet.read address) (Call.read address)
  · intro address byte s t start
    exact keeping_call _ _ _ (quiet.write address byte s t start)
  · intro port
    exact matching_call (quiet.readPort port) (Call.readPort port)
  · intro port byte s t start
    exact keeping_call _ _ _ (quiet.writePort port byte s t start)
  · intro regs
    exact matching_call (quiet.tapePatch regs) fun _ => .tapePatch
  · intro cycles s t start
    exact keeping_call _ _ _ (quiet.advance cycles s t start)

theorem agreement_eventHost (agreement : Host.Agreement related left right) :
    Host.Agreement (Along related) (eventHost left) (eventHost right) := by
  refine ⟨alike_eventHost agreement.toAlike, ?_, ?_, ?_⟩
  · exact matching_onInner agreement.requests
  · exact keeping_modify agreement.acknowledge
  · intro noticed s t start
    have inside := keeping_modify (agreement.report noticed) s t start
    exact keeping_event noticed _ _ inside

private theorem agreement_callHost (agreement : Host.Agreement related left right) :
    Host.Agreement (Along related) (callHost left) (callHost right) := by
  have quiet := agreement_eventHost agreement
  refine ⟨alike_callHost agreement.toAlike, ?_, ?_, ?_⟩
  · exact matching_call quiet.requests fun _ => .requests
  · intro s t start
    exact keeping_call _ _ _ (quiet.acknowledge s t start)
  · exact quiet.report

end Recorded

/-! ## Wirings -/

namespace Bench.Wiring

open Recorded

/-- The scheduled host, with a record of its calls if it is traced. -/
def recordedHost (traced : Bool) : Host World :=
  if traced then callHost Scheduled.host else eventHost Scheduled.host

def announce (traced : Bool) (access : Access) (world : World) : World :=
  if traced then world.call (.access access) else world

theorem bus_direct (traced : Bool) :
    bus .direct traced = (recordedHost traced).bus := by
  cases traced <;> rfl

theorem bus_waiting (traced : Bool) :
    bus .waiting traced =
      (recordedHost traced).waitingBus Access.distinctCost (announce traced) := by
  cases traced <;> rfl

variable {before after related : Scheduled → Scheduled → Prop} (traced : Bool)

private theorem alike_recordedHost
    (alike : Host.Alike before after Scheduled.host Scheduled.host) :
    Host.Alike (Along before) (Along after) (recordedHost traced)
      (recordedHost traced) := by
  cases traced with
  | true => exact alike_callHost alike
  | false => exact alike_eventHost alike

private theorem agreement_recordedHost
    (agreement : Host.Agreement related Scheduled.host Scheduled.host) :
    Host.Agreement (Along related) (recordedHost traced)
      (recordedHost traced) := by
  cases traced with
  | true => exact agreement_callHost agreement
  | false => exact agreement_eventHost agreement

theorem keeping_announce (access : Access) :
    Keeping (Along related) (Along related) (announce traced access)
      (announce traced access) := by
  cases traced with
  | true => exact keeping_call (.access access)
  | false => exact fun _ _ start => start

variable {wiring : Wiring} (scheduled : wiring ≠ .flat)

include scheduled

private theorem alike_bus
    (alike : Host.Alike before after Scheduled.host Scheduled.host) :
    Bus.Alike (Along before) (Along after) (wiring.bus traced)
      (wiring.bus traced) := by
  have recorded := alike_recordedHost traced alike
  cases wiring with
  | flat => exact absurd rfl scheduled
  | direct =>
      rw [bus_direct]
      exact recorded.bus
  | waiting =>
      rw [bus_waiting]
      exact recorded.waitingBus _ (keeping_announce traced)

private theorem agreement_bus
    (agreement : Host.Agreement related Scheduled.host Scheduled.host) :
    Bus.Agreement (Along related) (wiring.bus traced) (wiring.bus traced) := by
  have recorded := agreement_recordedHost traced agreement
  cases wiring with
  | flat => exact absurd rfl scheduled
  | direct =>
      rw [bus_direct]
      exact recorded.bus
  | waiting =>
      rw [bus_waiting]
      exact recorded.waitingBus _ (keeping_announce traced)

private theorem toHost_bus : (wiring.bus traced).toHost = recordedHost traced := by
  cases wiring with
  | flat => exact absurd rfl scheduled
  | direct => rw [bus_direct, Host.bus]
  | waiting => rw [bus_waiting, Host.waitingBus]

/-- Requests that the right host does not have are put to its answer. -/
theorem requests_owed (owed : Requests) :
    Matching
      (Along fun left right =>
        Scheduled.SameButOrder left (right.expecting [] owed))
      (Along Scheduled.SameButOrder) (wiring.bus traced).requests
      (fun world =>
        (((wiring.bus traced).requests world).1.union owed,
          ((wiring.bus traced).requests world).2)) := by
  have taken :
      Matching
        (fun left right =>
          Scheduled.SameButOrder left (right.expecting [] owed))
        Scheduled.SameButOrder Scheduled.takeRequests
        (fun right =>
          (right.takeRequests.1.union owed, right.takeRequests.2)) := by
    intro left right same
    exact ⟨same.raised, { same with raised := rfl }⟩
  have quiet := matching_onInner taken
  rw [toHost_bus traced scheduled]
  cases traced with
  | true => exact matching_call quiet fun _ => .requests
  | false => exact quiet

end Bench.Wiring

/-! ## Latched requests -/

/-- The commands that raise the interrupts of an alarm at once. -/
def Alarm.triggers (alarm : Alarm) : List Command :=
  (if alarm.requests.interrupt then [.triggerInterrupt] else []) ++
    if alarm.requests.nonMaskable then [.triggerNonMaskable] else []

namespace Cpu

@[simp]
theorem latch_none (cpu : Cpu) : cpu.latch .none = cpu := by
  rw [latch, Control.latch_none]

theorem latch_latch (cpu : Cpu) (first second : Requests) :
    (cpu.latch first).latch second = cpu.latch (second.union first) := by
  rw [Requests.union_comm]
  simp [latch, Control.latch, Requests.union, Bool.or_assoc]

private theorem run_triggers (bus : Bus σ) (alarm : Alarm) (cpu : Cpu) (state : σ) :
    Command.run bus alarm.triggers (cpu, state) =
      (cpu.latch alarm.requests, state) := by
  obtain ⟨_, ⟨interrupt, nonMaskable⟩⟩ := alarm
  cases interrupt <;> cases nonMaskable <;>
    simp [Alarm.triggers, Command.run, Command.apply, latch, Control.latch,
      triggerInterrupt, triggerNonMaskable, Control.assertInterrupt]

private theorem run_flatMap_triggers (bus : Bus σ) (alarms : List Alarm) (cpu : Cpu)
    (state : σ) :
    Command.run bus (alarms.flatMap Alarm.triggers) (cpu, state) =
      (cpu.latch (Alarm.total alarms), state) := by
  induction alarms generalizing cpu with
  | nil => exact congrArg (·, state) cpu.latch_none.symm
  | cons alarm rest inductionHypothesis =>
      rw [List.flatMap_cons, Command.run_append, run_triggers,
        inductionHypothesis, latch_latch, Requests.union_comm]
      rfl

/-- What an instruction does has nothing to do with what is latched. -/
theorem runInstruction_latch (bus : Bus σ) (cpu : Cpu) (requests : Requests)
    (state : σ) :
    (cpu.latch requests).runInstruction bus state =
      (((cpu.runInstruction bus state).1.1,
          (cpu.runInstruction bus state).1.2.latch requests),
        (cpu.runInstruction bus state).2) := by
  have after (control : Control) (boundary : Boundary) :
      (control.latch requests).after boundary =
        (control.after boundary).latch requests := by
    cases boundary <;> rfl
  simp only [runInstruction, latch, after]

/-- Processors that come to know the same once they have asked their hosts
end the step alike, if the instruction left them alike. -/
theorem step_latch {middle related : σ → τ → Prop} {left : Bus σ}
    {right : Bus τ} {owed : Requests} (agreement : Bus.Agreement related left right)
    (requests :
      Matching middle related left.requests
        (fun t => ((right.requests t).1.union owed, (right.requests t).2)))
    {cpu : Cpu} {s : σ} {t : τ}
    (ran :
      SameAnswer middle (cpu.runInstruction left s)
        (cpu.runInstruction right t)) :
    SameAnswer related (cpu.step left s) ((cpu.latch owed).step right t) := by
  have polled (cpu : Cpu) :
      Matching middle related (cpu.poll left) ((cpu.latch owed).poll right) := by
    intro s t start
    have same := (requests s t start).map cpu.latch
    rw [← latch_latch] at same
    exact same
  unfold step
  rw [runInstruction_latch]
  refine SameAnswer.elim ran ?_
  intro (instruction, cpu) s t start
  dsimp only
  have served := service_matching_of_poll agreement (polled cpu) s t start
  by_cases sampling : instruction.boundary = .sampling
  · rw [if_pos sampling, if_pos sampling]
    by_cases risks : cpu.RisksParity
    · have risksLatched : (cpu.latch owed).RisksParity := risks
      have sampled :=
        serviceSampled_matching_of_poll agreement risks risksLatched
          (polled cpu) s t start
      refine SameAnswer.elim sampled ?_
      intro cpu s t start
      exact service_matching agreement cpu s t start
    · have risksLatched : ¬ (cpu.latch owed).RisksParity := risks
      rw [serviceSampled_of_not_risksParity left s risks,
        serviceSampled_of_not_risksParity right t risksLatched]
      exact served
  · rw [if_neg sampling, if_neg sampling]
    exact served

/-- Interrupts that are raised while an instruction runs act like interrupts
that were triggered before it, wherever in the instruction their time comes. -/
theorem step_raised_within (wiring : Bench.Wiring)
    (scheduled : wiring ≠ .flat) (traced : Bool) (cpu : Cpu)
    (world : Bench.World) (early later : List Alarm)
    (set : world.inner.alarms.Perm (early ++ later))
    (within : ∀ alarm ∈ early,
      world.inner.flat.cycles + alarm.left ≤
        (cpu.runInstruction (wiring.bus traced) world).2.inner.flat.cycles) :
    SameAnswer (Recorded.Along Scheduled.SameButOrder)
      (cpu.step (wiring.bus traced) world)
      (Command.run (wiring.bus traced)
        (early.flatMap Alarm.triggers ++ [.step])
        (cpu, { world with inner.alarms := later })) := by
  have expected :
      Scheduled.SameButOrder world.inner
        ({ world.inner with alarms := later }.expecting early .none) :=
    ⟨rfl, set, (Requests.union_none _).symm, rfl, rfl, rfl⟩
  have owing :=
    runInstruction_matching
      (Bench.Wiring.alike_bus traced scheduled
        (Scheduled.alike_owing (Alarm.total early) _))
      cpu world { world with inner.alarms := later }
      ⟨⟨early, .none, expected, Requests.none_union _,
        fun alarm member => ⟨Nat.zero_le _, within alarm member⟩⟩, rfl, rfl⟩
  have settled := owing.state.inner.settled rfl
  have ran : SameAnswer
      (Recorded.Along fun left right =>
        Scheduled.SameButOrder left (right.expecting [] (Alarm.total early)))
      (cpu.runInstruction (wiring.bus traced) world)
      (cpu.runInstruction (wiring.bus traced)
        { world with inner.alarms := later }) :=
    ⟨owing.answer, settled, owing.state.calls, owing.state.events⟩
  rw [Command.run_append, run_flatMap_triggers]
  exact step_latch
    (Bench.Wiring.agreement_bus traced scheduled
      Scheduled.agreement_sameButOrder)
    (Bench.Wiring.requests_owed traced scheduled _) ran

/-- A processor that lets interrupts in, in mode 1 and with its stack at low
addresses. -/
def enabled : Cpu :=
  { Cpu.new .nmos with
    regs :=
      { (Cpu.new .nmos).regs with iff1 := true, iff2 := true, im := 1, sp := 0x20 } }

/-- `LD A,R`, with an interrupt due while it runs and another one later. -/
def interrupted : Bench.World :=
  .start
    { Scheduled.ofFlat (Flat.new.load 0 [0xED, 0x5F]) with
      alarms := [⟨1000, ⟨false, true⟩⟩, ⟨5, ⟨true, false⟩⟩] }

/-- The interrupt that is due after five cycles is accepted inside the
instruction, which ends after nine, and costs it the parity bit. -/
theorem step_raised_within_interrupted :
    (enabled.runInstruction (Bench.Wiring.direct.bus false)
          interrupted).2.inner.flat.cycles = 9 ∧
      SameAnswer (Recorded.Along Scheduled.SameButOrder)
        (enabled.step (Bench.Wiring.direct.bus false) interrupted)
        (Command.run (Bench.Wiring.direct.bus false) [.triggerInterrupt, .step]
          (enabled,
            { interrupted with inner.alarms := [⟨1000, ⟨false, true⟩⟩] })) ∧
      (enabled.step (Bench.Wiring.direct.bus false)
          interrupted).2.inner.accepted = 1 ∧
      (enabled.step (Bench.Wiring.direct.bus false)
          interrupted).1.regs.f.parity = false := by
  have same :=
    step_raised_within .direct (by decide) false enabled interrupted
      [⟨5, ⟨true, false⟩⟩] [⟨1000, ⟨false, true⟩⟩] (List.Perm.swap _ _ _)
      (by decide)
  exact ⟨by decide, same, by decide, by decide⟩

end Cpu

end Z80
