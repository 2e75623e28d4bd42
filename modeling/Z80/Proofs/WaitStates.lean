import Z80.Host.Scheduled
import Z80.Host.WaitStates
import Z80.Proofs.Agreement

/-!
# Wait states

A host may charge what it likes for an access.  As long as it then makes the
accesses that the flat host makes, a program cannot tell: the processor goes
through the same states and leaves the same memory and port writes.

Main statement: `Cpu.run_waitingBus`.
-/

namespace Z80

variable {τ : Type}

/-- Two flat hosts that differ at most in the cycles they have counted. -/
structure Flat.SameContent (left right : Flat) : Prop where
  ram : left.ram = right.ram
  ports : left.ports = right.ports
  writes : left.writes = right.writes

namespace Flat

private theorem SameContent.trans {left middle right : Flat}
    (first : left.SameContent middle) (second : middle.SameContent right) :
    left.SameContent right :=
  ⟨first.ram.trans second.ram, first.ports.trans second.ports,
    first.writes.trans second.writes⟩

private theorem accesses_sameContent :
    Host.Accesses SameContent Flat.host Flat.host := by
  refine ⟨?_, ?_, ?_, ?_, ?_⟩
  · intro address left right same
    exact ⟨congrArg (Memory.get · address) same.ram, same⟩
  · intro address byte left right same
    have sameRam := congrArg (Memory.set · address byte) same.ram
    exact ⟨sameRam, same.ports, same.writes⟩
  · intro port left right same
    exact ⟨congrFun same.ports port, same⟩
  · intro port byte left right same
    have sameWrites := congrArg (Array.push · (port, byte)) same.writes
    exact ⟨same.ram, same.ports, sameWrites⟩
  · intro regs left right same
    exact ⟨rfl, same⟩

private theorem alike_eq : Host.Alike Eq Eq Flat.host Flat.host := by
  refine ⟨⟨?_, ?_, ?_, ?_, ?_⟩, ?_, ?_⟩
  · intro address left right same
    exact ⟨congrArg (Flat.peek · address) same, same⟩
  · intro address byte left right same
    exact congrArg (Flat.poke · address byte) same
  · intro port left right same
    exact ⟨congrArg (Flat.ports · port) same, same⟩
  · intro port byte left right same
    exact congrArg (Flat.writePort · port byte) same
  · intro regs left right same
    exact ⟨rfl, same⟩
  · intro left right same
    exact same
  · intro cycles left right same
    exact congrArg (Flat.addCycles · cycles) same

end Flat

/-- A host around a flat host.  It makes the untimed accesses inside, raises no
interrupts and patches nothing; its own account of time is its own affair. -/
structure Host.Wraps (host : Host τ) (inner : τ → Flat) : Prop where
  read : ∀ address state,
    (host.read address state).map id inner =
      ((inner state).peek address, inner state)
  write : ∀ address byte state,
    inner (host.write address byte state) = (inner state).poke address byte
  readPort : ∀ port state,
    (host.readPort port state).map id inner =
      ((inner state).ports port, inner state)
  writePort : ∀ port byte state,
    inner (host.writePort port byte state) = (inner state).writePort port byte
  advance : ∀ cycles state,
    (inner state).SameContent (inner (host.advance cycles state))
  requests : ∀ state,
    (host.requests state).map id inner = (.none, inner state)
  acknowledge : ∀ state, inner (host.acknowledge state) = inner state
  tapePatch : ∀ regs state,
    (host.tapePatch regs state).map id inner = (regs, inner state)
  report : ∀ event state, inner (host.report event state) = inner state

namespace Host.Wraps

variable {host : Host τ} {inner : τ → Flat} {related : Flat → Flat → Prop}

/-- A flat host related to the one that is wrapped. -/
def Through (inner : τ → Flat) (related : Flat → Flat → Prop) (flat : Flat)
    (state : τ) : Prop :=
  related flat (inner state)

/-! ## Untimed operations -/

/-- An action that answers as the flat host inside does, and leaves inside what
the flat host leaves. -/
theorem matching_through {α : Type} {left right : Flat → α × Flat}
    {wrapped : τ → α × τ} (matching : Matching related related left right)
    (inside : ∀ state, (wrapped state).map id inner = right (inner state)) :
    Matching (Through inner related) (Through inner related) left wrapped := by
  intro flat state start
  obtain ⟨sameAnswer, sameState⟩ := matching flat (inner state) start
  rw [← inside state] at sameAnswer sameState
  exact ⟨sameAnswer, sameState⟩

theorem keeping_through {left right : Flat → Flat} {wrapped : τ → τ}
    (keeping : Keeping related related left right)
    (inside : ∀ state, inner (wrapped state) = right (inner state)) :
    Keeping (Through inner related) (Through inner related) left wrapped := by
  intro flat state start
  have kept := keeping flat (inner state) start
  rw [← inside state] at kept
  exact kept

theorem accesses (wraps : host.Wraps inner)
    (flat : Host.Accesses related Flat.host Flat.host) :
    Host.Accesses (Through inner related) Flat.host host where
  read address := matching_through (flat.read address) (wraps.read address)
  write address byte :=
    keeping_through (flat.write address byte) (wraps.write address byte)
  readPort port := matching_through (flat.readPort port) (wraps.readPort port)
  writePort port byte :=
    keeping_through (flat.writePort port byte) (wraps.writePort port byte)
  tapePatch regs := matching_through (flat.tapePatch regs) (wraps.tapePatch regs)

/-- On a bus of the host nothing but the machine cycles can differ. -/
theorem agreement (wraps : host.Wraps inner) {bus : Bus τ}
    (onHost : bus.toHost = host)
    (cycle : ∀ cycle : Cycle,
      Matching (Through inner related) (Through inner related)
        (cycle.perform Flat.bus) (cycle.perform bus)) :
    Bus.Agreement (Through inner related) Flat.bus bus := by
  have untouched : Keeping related related (fun flat => flat) (fun flat => flat) :=
    fun _ _ start => start
  have quiet :
      Matching related related Flat.host.requests Flat.host.requests :=
    fun _ _ start => ⟨rfl, start⟩
  refine ⟨cycle, ?_, ?_, ?_⟩
  · rw [onHost]
    exact matching_through quiet wraps.requests
  · rw [onHost]
    exact keeping_through untouched wraps.acknowledge
  · intro event
    rw [onHost]
    exact keeping_through untouched (wraps.report event)

/-! ## Costs of its own -/

private theorem cycle_waitingBus (wraps : host.Wraps inner) (cost : Access → Nat)
    {announce : Access → τ → τ}
    (announced : ∀ access state,
      (inner state).SameContent (inner (announce access state)))
    (cycle : Cycle) :
    Matching (Through inner Flat.SameContent) (Through inner Flat.SameContent)
      (cycle.perform Flat.bus)
      (cycle.perform (host.waitingBus cost announce)) := by
  have accesses := wraps.accesses Flat.accesses_sameContent
  have passed (cycles : Nat) {flat : Flat} {state : τ}
      (start : Through inner Flat.SameContent flat state) :
      Through inner Flat.SameContent (flat.addCycles cycles) state :=
    ⟨start.ram, start.ports, start.writes⟩
  have charged (access : Access) {flat : Flat} {state : τ}
      (start : Through inner Flat.SameContent flat state) :
      Through inner Flat.SameContent flat
        (host.advance (cost access) (announce access state)) := by
    have announcedInside := start.trans (announced access state)
    exact announcedInside.trans (wraps.advance _ _)
  -- The flat bus charges each byte of a word, the waiting bus the word.
  have word (access : Access) (address : UInt16) {flat : Flat} {state : τ}
      (start : Through inner Flat.SameContent flat state) :
      SameAnswer (Through inner Flat.SameContent)
        (Flat.bus.readWord address flat)
        (host.readPair address
          (host.advance (cost access) (announce access state))) := by
    obtain ⟨sameLow, afterLow⟩ :=
      accesses.read address _ _ (passed 3 (charged access start))
    obtain ⟨sameHigh, afterHigh⟩ :=
      accesses.read (address + 1) _ _ (passed 3 afterLow)
    exact ⟨congr (congrArg Word.ofBytes sameHigh) sameLow, afterHigh⟩
  intro flat state start
  cases cycle with
  | internal cycles =>
      exact ⟨rfl, (passed cycles start).trans (wraps.advance cycles state)⟩
  | readMemory address =>
      have ready := passed 3 (charged (.readMemory address) start)
      exact accesses.read address _ _ ready
  | writeMemory address byte =>
      have ready := passed 3 (charged (.writeMemory address) start)
      exact ⟨rfl, accesses.write address byte _ _ ready⟩
  | readWord address => exact word (.readWord address) address start
  | writeWord address written =>
      have ready := passed 3 (charged (.writeWord address) start)
      have afterLow := accesses.write address (Word.low written) _ _ ready
      exact ⟨rfl,
        accesses.write (address + 1) (Word.high written) _ _ (passed 3 afterLow)⟩
  | input port =>
      have ready := passed 4 (charged (.input port) start)
      exact accesses.readPort port _ _ ready
  | output port byte =>
      have ready := passed 4 (charged (.output port) start)
      exact ⟨rfl, accesses.writePort port byte _ _ ready⟩
  | fetchFirst pc =>
      have ready := passed 3 (passed 1 (charged (.fetchFirst pc) start))
      exact accesses.read pc _ _ ready
  | fetchSecond pc =>
      have ready := passed 3 (passed 1 (charged (.fetchSecond pc) start))
      exact accesses.read (pc + 1) _ _ ready
  | fetchByte pc offset =>
      have ready := passed 3 (charged (.fetchByte pc offset) start)
      exact accesses.read (pc + offset) _ _ ready
  | fetchWord pc offset => exact word (.fetchWord pc offset) (pc + offset) start
  | tapePatch regs => exact accesses.tapePatch regs flat state start

/-- A host that counts the cycles as the flat host does. -/
theorem alike_of_counts (wraps : host.Wraps inner)
    (counts : ∀ cycles state,
      inner (host.advance cycles state) = (inner state).addCycles cycles) :
    Host.Alike (Through inner Eq) (Through inner Eq) Flat.host host where
  toAccesses := wraps.accesses Flat.alike_eq.toAccesses
  settled := fun _ _ start => start
  advance cycles := keeping_through (Flat.alike_eq.advance cycles) (counts cycles)

end Host.Wraps

namespace Cpu

open Host.Wraps

/-- Wait states are invisible to the program.  A host around a flat host may
charge each access as it likes, by its kind and its place: after any number of
instructions the processor, the memory and the port writes are those of the
flat host alone.  If it keeps to the default costs and counts them, the counts
of cycles are the same too. -/
theorem run_waitingBus {host : Host τ} {inner : τ → Flat}
    (wraps : host.Wraps inner) (cost : Access → Nat)
    (announce : Access → τ → τ)
    (announced : ∀ access state,
      (inner state).SameContent (inner (announce access state)))
    (count : Nat) (cpu : Cpu) (state : τ) :
    (cpu.run (host.waitingBus cost announce) count state).1 =
        (cpu.run Flat.bus count (inner state)).1 ∧
      (inner (cpu.run (host.waitingBus cost announce) count state).2).SameContent
        (cpu.run Flat.bus count (inner state)).2 ∧
      ((∀ cycles state,
          inner (host.advance cycles state) = (inner state).addCycles cycles) →
        (cpu.run host.bus count state).1 =
            (cpu.run Flat.bus count (inner state)).1 ∧
          inner (cpu.run host.bus count state).2 =
            (cpu.run Flat.bus count (inner state)).2) := by
  have waiting :=
    run_matching
      (wraps.agreement rfl (wraps.cycle_waitingBus cost announced)) count cpu
      (inner state) state ⟨rfl, rfl, rfl⟩
  refine ⟨waiting.answer.symm, ?_, ?_⟩
  · have same := waiting.state
    exact ⟨same.ram.symm, same.ports.symm, same.writes.symm⟩
  · intro counts
    have alike := (wraps.alike_of_counts counts).bus
    have counted :=
      run_matching (wraps.agreement rfl alike.cycle) count cpu (inner state)
        state rfl
    exact ⟨counted.answer.symm, counted.state.symm⟩

/-- The bus without interrupts and with a cost of its own for every access. -/
def unhurried : Bus Scheduled :=
  Scheduled.flatHost.waitingBus Access.distinctCost fun _ scheduled => scheduled

/-- `LD (0010h),HL` and `OUT (5),A` at the start of the memory. -/
def storing : Scheduled :=
  .ofFlat (Flat.new.load 0 [0x22, 0x10, 0x00, 0xD3, 0x05])

private theorem flatHost_wraps : Scheduled.flatHost.Wraps Scheduled.flat :=
  ⟨fun _ _ => rfl, fun _ _ _ => rfl, fun _ _ => rfl, fun _ _ _ => rfl,
    fun _ _ => ⟨rfl, rfl, rfl⟩, fun _ => rfl, fun _ => rfl, fun _ _ => rfl,
    fun _ _ => rfl⟩

/-- Only the clock tells the run with costs of its own from the flat one, and
nothing tells the run with the default costs. -/
theorem run_waitingBus_storing :
    Scheduled.flatHost.Wraps Scheduled.flat ∧
      ((Cpu.new .nmos).run unhurried 2 storing).1 =
        ((Cpu.new .nmos).run Flat.bus 2 storing.flat).1 ∧
      ((Cpu.new .nmos).run unhurried 2 storing).2.flat.SameContent
        ((Cpu.new .nmos).run Flat.bus 2 storing.flat).2 ∧
      ((Cpu.new .nmos).run unhurried 2 storing).2.flat.cycles = 59 ∧
      ((Cpu.new .nmos).run Scheduled.flatHost.bus 2 storing).2.flat =
        ((Cpu.new .nmos).run Flat.bus 2 storing.flat).2 ∧
      ((Cpu.new .nmos).run Flat.bus 2 storing.flat).2.cycles = 27 := by
  obtain ⟨sameCpu, sameContent, counted⟩ :=
    run_waitingBus flatHost_wraps Access.distinctCost
      (fun _ scheduled => scheduled) (fun _ _ => ⟨rfl, rfl, rfl⟩) 2
      (Cpu.new .nmos) storing
  obtain ⟨_, sameFlat⟩ := counted fun _ _ => rfl
  exact ⟨flatHost_wraps, sameCpu, sameContent, by decide, sameFlat, by decide⟩

end Cpu

end Z80
