import Z80.Proofs.Boundary
import Z80.Proofs.ProgramCounter

/-!
# Every byte is stepped over once

A step fetches the bytes of one instruction, from the program counter on, and
goes on behind them or where the instruction says.  Nothing is fetched while
events are served, and every jump that is made and every interrupt that is
taken is reported to the host.

Main statement: `Cpu.step_fetches`, for every bus and every state.
-/

namespace Z80

open Microcode

variable {σ : Type}

/-! ## What is served -/

namespace Cpu

/-- A relation that holds across whatever may happen to a processor and its
host once the instruction of a step has run. -/
structure RespectsService (bus : Bus σ)
    (related : Cpu × σ → Cpu × σ → Prop) : Prop where
  refl : ∀ current, related current current
  trans : ∀ first second third,
    related first second → related second third → related first third
  poll : ∀ cpu state, related (cpu, state) (cpu.poll bus state)
  serviceJump : ∀ cpu state, related (cpu, state) (cpu.serviceJump bus state)
  serviceNonMaskable : ∀ cpu state,
    related (cpu, state) (cpu.serviceNonMaskable bus state)
  acceptInterrupt : ∀ cpu state,
    related (cpu, state) (cpu.acceptInterrupt bus state)
  loseParity : ∀ cpu state, related (cpu, state) (cpu.loseParity, state)

namespace RespectsService

variable {bus : Bus σ} {related : Cpu × σ → Cpu × σ → Prop}
  (respects : RespectsService bus related)

include respects

private theorem service (cpu : Cpu) (state : σ) :
    related (cpu, state) (cpu.service bus state) := by
  have polled := respects.poll cpu state
  refine service_elim (related (cpu, state)) polled ?_ ?_ ?_
  · exact respects.trans _ _ _ polled (respects.serviceJump _ _)
  · intro left reached
    exact respects.trans _ _ _ reached (respects.serviceNonMaskable _ _)
  · intro _ _
    exact respects.trans _ _ _ polled (respects.acceptInterrupt _ _)

private theorem serviceSampled (cpu : Cpu) (state : σ) :
    related (cpu, state) (cpu.serviceSampled bus state) := by
  have polled := respects.poll cpu state
  refine serviceSampled_elim (related (cpu, state)) (respects.refl _) polled
    ?_ ?_
  · intro _
    exact respects.trans _ _ _ polled (respects.acceptInterrupt _ _)
  · intro left reached _
    exact respects.trans _ _ _ reached (respects.loseParity _ _)

/-- What follows the instruction of a step. -/
theorem step (cpu : Cpu) (state : σ) :
    related
      ((cpu.runInstruction bus state).1.2, (cpu.runInstruction bus state).2)
      (cpu.step bus state) := by
  unfold Cpu.step
  dsimp only
  split
  · exact respects.trans _ _ _ (respects.serviceSampled _ _)
      (respects.service _ _)
  · exact respects.service _ _

end RespectsService

end Cpu

/-! ## Traced steps -/

namespace Traced

/-- Nothing more was fetched; and if no event was reported, then the processor
has used the bus no further, and its registers are the same but for a lost
parity bit. -/
structure Served (before after : Cpu × Traced σ) : Prop where
  fetches :
    after.2.trace.flatMap Transaction.fetches =
      before.2.trace.flatMap Transaction.fetches
  quiet : after.2.events = [] →
    before.2.events = [] ∧ after.2.trace = before.2.trace ∧
      after.1.loseParity.regs = before.1.loseParity.regs

theorem Served.of_report {before after : Cpu × Traced σ}
    (reported : after.2.events ≠ [])
    (fetches :
      after.2.trace.flatMap Transaction.fetches =
        before.2.trace.flatMap Transaction.fetches) :
    Served before after :=
  ⟨fetches, fun nothing => absurd nothing reported⟩

private theorem Served.of_trace {before after : Cpu × Traced σ}
    (events : after.2.events = before.2.events)
    (trace : after.2.trace = before.2.trace)
    (regs : after.1.loseParity.regs = before.1.loseParity.regs) :
    Served before after := by
  refine ⟨by rw [trace], ?_⟩
  intro nothing
  exact ⟨events ▸ nothing, trace, regs⟩

variable (inner : Bus σ)

theorem runRegisters_bus (code : Registers → Microcode Registers) (cpu : Cpu)
    (traced : Traced σ) :
    cpu.runRegisters (bus inner) code traced =
      ((cpu.runRegisters inner code traced.inner).1,
        { traced with
          inner := (cpu.runRegisters inner code traced.inner).2
          trace :=
            traced.trace ++
              (code cpu.regs).transactions inner traced.inner }) := by
  simp only [Cpu.runRegisters, run_bus]

/-- Entering a service routine fetches nothing. -/
theorem fetches_runRegisters {code : Registers → Microcode Registers}
    (cpu : Cpu) (traced : Traced σ)
    (nothing : (code cpu.regs).fetches inner traced.inner = []) :
    (cpu.runRegisters (bus inner) code traced).2.trace.flatMap
        Transaction.fetches =
      traced.trace.flatMap Transaction.fetches := by
  rw [runRegisters_bus, List.flatMap_append]
  exact (congrArg _ nothing).trans (List.append_nil _)

private theorem served_serviceNonMaskable (cpu : Cpu) (traced : Traced σ) :
    Served (cpu, traced) (cpu.serviceNonMaskable (bus inner) traced) := by
  refine .of_report ?_ ?_
  · simp only [Cpu.serviceNonMaskable, runRegisters_bus]
    exact List.concat_ne_nil _ _
  · exact fetches_runRegisters inner _ _ rfl

private theorem served_acceptInterrupt (cpu : Cpu) (traced : Traced σ) :
    Served (cpu, traced) (cpu.acceptInterrupt (bus inner) traced) := by
  unfold Cpu.acceptInterrupt
  dsimp only
  split
  · exact .of_report (List.concat_ne_nil _ _) rfl
  · refine .of_report ?_ (fetches_runRegisters inner _ _ rfl)
    rw [runRegisters_bus]
    exact List.concat_ne_nil _ _
  · refine .of_report ?_ (fetches_runRegisters inner _ _ rfl)
    rw [runRegisters_bus]
    exact List.concat_ne_nil _ _

theorem served_respects : Cpu.RespectsService (bus inner) Served := by
  refine ⟨?_, ?_, ?_, ?_, served_serviceNonMaskable inner,
    served_acceptInterrupt inner, ?_⟩
  · intro current
    exact .of_trace rfl rfl rfl
  · intro first second third earlier later
    refine ⟨later.fetches.trans earlier.fetches, ?_⟩
    intro nothing
    obtain ⟨none, sameTrace, sameRegs⟩ := later.quiet nothing
    obtain ⟨start, trace, regs⟩ := earlier.quiet none
    exact ⟨start, sameTrace.trans trace, sameRegs.trans regs⟩
  · intro cpu traced
    exact .of_trace rfl rfl rfl
  · intro cpu traced
    unfold Cpu.serviceJump
    cases cpu.newPc with
    | none => exact .of_trace rfl rfl rfl
    | some target => exact .of_report (List.concat_ne_nil _ _) rfl
  · intro cpu traced
    exact .of_trace rfl rfl rfl

/-- An instruction runs on the tracing bus as it does on the bus inside. -/
theorem runInstruction_bus (cpu : Cpu) (traced : Traced σ) :
    cpu.runInstruction (bus inner) traced =
      ((cpu.runInstruction inner traced.inner).1,
        { traced with
          inner := (cpu.runInstruction inner traced.inner).2
          trace :=
            traced.trace ++
              (Instruction.perform cpu.model cpu.regs).transactions inner
                traced.inner }) := by
  simp only [Cpu.runInstruction, run_bus]

end Traced

/-! ## Whole steps -/

/-- The flow of an instruction does not depend on a lost parity bit. -/
theorem Instruction.flow_loseParity (instruction : Instruction)
    (regs : Registers) (left : Cpu) :
    instruction.flow regs left.loseParity.regs =
      instruction.flow regs left.regs := by
  cases instruction with
  | extended op =>
      cases op with
      | block round =>
          have same :
              round.GoesOn left.loseParity.regs ↔ round.GoesOn left.regs :=
            Iff.rfl
          simp only [flow, same]
      | _ => rfl
  | _ => rfl

namespace Cpu

section Step

variable (bus : Bus σ) (cpu : Cpu) (state : σ)

/-- A step fetches what its instruction fetches. -/
theorem fetches_step :
    (cpu.step (Traced.bus bus) (.start state)).2.trace.flatMap
        Transaction.fetches =
      (Instruction.perform cpu.model cpu.regs).fetches bus state := by
  have served := (Traced.served_respects bus).step cpu (.start state)
  rw [served.fetches, Traced.runInstruction_bus]
  rfl

private theorem places_step :
    ((cpu.step (Traced.bus bus) (.start state)).2.trace.flatMap
        Transaction.fetches).map Fetch.place =
      (cpu.regs.pc, true) ::
        (Word.span (cpu.regs.pc + 1)
          ((cpu.runInstruction bus state).1.1.length - 1)).map (·, false) := by
  rw [fetches_step, fst_runInstruction]
  exact Instruction.places_perform bus cpu.model cpu.regs state

private theorem reaches_step (patch : bus.PatchKeepsPc)
    (quiet : (cpu.step (Traced.bus bus) (.start state)).2.events = []) :
    let instruction := (cpu.runInstruction bus state).1.1
    let after := cpu.step (Traced.bus bus) (.start state)
    (instruction.flow cpu.regs after.1.regs).Reaches cpu.regs
      (cpu.regs.pc + UInt16.ofNat instruction.length) after.2.trace
      after.1.regs.pc := by
  intro instruction after
  have served := (Traced.served_respects bus).step cpu (.start state)
  let left := (cpu.runInstruction bus state).1.2
  obtain ⟨-, trace, regs⟩ := served.quiet quiet
  rw [Traced.runInstruction_bus] at trace regs
  have lost : after.1.loseParity.regs = left.loseParity.regs := regs
  have pc : after.1.loseParity.regs.pc = left.loseParity.regs.pc :=
    congrArg Registers.pc lost
  have flow :
      instruction.flow cpu.regs after.1.regs =
        instruction.flow cpu.regs left.regs := by
    rw [← Instruction.flow_loseParity, lost, Instruction.flow_loseParity]
  have samePc : after.1.regs.pc = left.regs.pc := pc
  rw [samePc, flow, trace]
  exact Instruction.reaches_perform patch cpu.model cpu.regs state

private theorem fetches_step_of_isConditional {other : Cpu}
    (conditional : (cpu.runInstruction bus state).1.1.isConditional = true)
    (same : other.regs.pc = cpu.regs.pc) :
    (other.step (Traced.bus bus) (.start state)).2.trace.flatMap
        Transaction.fetches =
      (cpu.step (Traced.bus bus) (.start state)).2.trace.flatMap
        Transaction.fetches := by
  rw [fst_runInstruction] at conditional
  rw [fetches_step, fetches_step]
  exact Instruction.fetches_perform_of_isConditional bus conditional same _ _

end Step

/-- A step fetches the bytes of one instruction, one to four of them, each once
and in order, and only the first as the first byte of an instruction.  If it
reports no event, then it goes on where the flow of the instruction leads.
Whether a condition holds makes no difference to what is fetched. -/
theorem step_fetches (bus : Bus σ) (cpu : Cpu) (state : σ) :
    let instruction := (cpu.runInstruction bus state).1.1
    let after := cpu.step (Traced.bus bus) (.start state)
    let fetches := after.2.trace.flatMap Transaction.fetches
    after.1 = (cpu.step bus state).1 ∧
      1 ≤ instruction.length ∧ instruction.length ≤ 4 ∧
      fetches.map Fetch.address = Word.span cpu.regs.pc instruction.length ∧
      (fetches.map Fetch.address).Nodup ∧
      fetches.map Fetch.isFirst =
        true :: List.replicate (instruction.length - 1) false ∧
      (bus.PatchKeepsPc → after.2.events = [] →
        (instruction.flow cpu.regs after.1.regs).Reaches cpu.regs
          (cpu.regs.pc + UInt16.ofNat instruction.length) after.2.trace
          after.1.regs.pc) ∧
      (instruction.isConditional = true →
        ∀ other : Cpu, other.regs.pc = cpu.regs.pc →
          (other.step (Traced.bus bus) (.start state)).2.trace.flatMap
            Transaction.fetches = fetches) := by
  intro instruction after fetches
  have same := step_matching (Traced.agreement bus) cpu (.start state) state rfl
  have places := places_step bus cpu state
  have length : instruction.length - 1 + 1 = instruction.length :=
    Nat.sub_add_cancel instruction.one_le_length
  have addresses :
      fetches.map Fetch.address =
        Word.span cpu.regs.pc instruction.length := by
    rw [Fetch.addresses_of_places places, length]
  have few : instruction.length ≤ 65536 :=
    Nat.le_trans instruction.length_le_four (by decide)
  refine ⟨same.answer, instruction.one_le_length, instruction.length_le_four,
    addresses, ?_, Fetch.firsts_of_places places, reaches_step bus cpu state, ?_⟩
  · rw [addresses]
    exact Word.nodup_span cpu.regs.pc few
  · intro conditional other samePc
    exact fetches_step_of_isConditional bus cpu state conditional samePc

/-- `CALL Z,1234h`. -/
def calling : Flat :=
  Flat.new.load 0 [0xCC, 0x34, 0x12]

def caller (zero : Bool) : Cpu :=
  { Cpu.new .cmos with
    regs :=
      { (Cpu.new .cmos).regs with
        sp := 8
        f := { Flags.none with zero := zero } } }

theorem step_fetches_calling :
    let taken := (caller true).step (Traced.bus Flat.bus) (.start calling)
    let skipped := (caller false).step (Traced.bus Flat.bus) (.start calling)
    Flat.bus.PatchKeepsPc ∧ taken.2.events = [] ∧
      (taken.2.trace.flatMap Transaction.fetches).map Fetch.address =
        [0, 1, 2] ∧
      taken.2.trace.flatMap Transaction.stores = [(7, 0), (6, 3)] ∧
      taken.1.regs.pc = 0x1234 ∧
      skipped.2.trace.flatMap Transaction.fetches =
        taken.2.trace.flatMap Transaction.fetches := by
  intro taken skipped
  have patch : Flat.bus.PatchKeepsPc := fun _ _ => rfl
  have quiet : taken.2.events = [] := by decide
  have isCall :
      ((caller true).runInstruction Flat.bus calling).1.1 =
        .main .hl (.callIf .zero) := by
    decide
  have bytes :
      (taken.2.trace.flatMap Transaction.fetches).map Fetch.byte =
        [0xCC, 0x34, 0x12] := by
    decide
  obtain ⟨-, -, -, addresses, -, -, reaches, sameBytes⟩ :=
    step_fetches Flat.bus (caller true) calling
  rw [isCall] at addresses reaches sameBytes
  obtain ⟨saves, opcode, low, high, fetched, target⟩ := reaches patch quiet
  rw [bytes] at fetched
  cases fetched
  exact ⟨patch, quiet, addresses, saves, target,
    sameBytes rfl (caller false) rfl⟩

end Cpu

end Z80
