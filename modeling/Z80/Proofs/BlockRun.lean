import Z80.Proofs.Halt
import Z80.Proofs.Refresh
import Z80.Proofs.Timing

/-!
# Runs of a repeating block operation

A repeating block operation is a loop that goes round once for each step of the
processor.  Every round fetches the operation anew, so the bytes of the
operation have to be there when a round begins.

A round makes `BlockOperation.pass` of the registers and the host.  Main
statement: `Cpu.run_block`, the run from the first round to the last one, for
any number of rounds.
-/

namespace Z80

/-! ## Counters and addresses -/

/-- The number of rounds that a counter below `size` stands for when it is
counted down before it is tested: zero stands for a full turn. -/
def rounds (size counter : Nat) : Nat :=
  if counter = 0 then size else counter

theorem rounds_pos {size counter : Nat} (positive : 0 < size) :
    0 < rounds size counter := by
  unfold rounds
  split <;> omega

/-- Within its rounds a counter comes to zero at the last one only. -/
theorem mod_eq_iff_rounds {size counter done : Nat} (small : counter < size)
    (positive : 0 < done) (bound : done ≤ rounds size counter) :
    done % size = counter ↔ done = rounds size counter := by
  unfold rounds at bound ⊢
  by_cases full : done = size
  · subst full
    rw [Nat.mod_self]
    split <;> omega
  · have below : done < size := by
      split at bound <;> omega
    rw [Nat.mod_eq_of_lt below]
    split <;> omega

namespace Byte

theorem sub_ofNat_eq_zero_iff {counter : UInt8} {done : Nat}
    (positive : 0 < done) (bound : done ≤ rounds 256 counter.toNat) :
    counter - .ofNat done = 0 ↔ done = rounds 256 counter.toNat := by
  rw [← mod_eq_iff_rounds counter.toNat_lt positive bound,
    UInt8.sub_eq_iff_eq_add, UInt8.zero_add, ← UInt8.toNat_inj,
    UInt8.toNat_ofNat']
  exact eq_comm

theorem sub_ofNat_succ (byte : UInt8) (places : Nat) :
    byte - .ofNat (places + 1) = byte - .ofNat places - 1 := by
  have next : UInt8.ofNat (places + 1) = .ofNat places + 1 :=
    UInt8.ofNat_add places 1
  rw [next]
  grind

end Byte

namespace Word

theorem sub_ofNat_eq_zero_iff {counter : UInt16} {done : Nat}
    (positive : 0 < done) (bound : done ≤ rounds 65536 counter.toNat) :
    counter - .ofNat done = 0 ↔ done = rounds 65536 counter.toNat := by
  rw [← mod_eq_iff_rounds counter.toNat_lt positive bound, UInt16.sub_eq_iff_eq_add,
    UInt16.zero_add, ← UInt16.toNat_inj, UInt16.toNat_ofNat']
  exact eq_comm

theorem sub_ofNat_succ (word : UInt16) (places : Nat) :
    word - .ofNat (places + 1) = word - .ofNat places - 1 := by
  have next : UInt16.ofNat (places + 1) = .ofNat places + 1 :=
    UInt16.ofNat_add places 1
  rw [next]
  grind

theorem add_ofNat_succ (word : UInt16) (places : Nat) :
    word + .ofNat (places + 1) = word + .ofNat places + 1 := by
  have next : UInt16.ofNat (places + 1) = .ofNat places + 1 :=
    UInt16.ofNat_add places 1
  rw [next, UInt16.add_assoc]

/-- The address a number of places further, downwards when `decrement`
holds. -/
def walk (decrement : Bool) (address : UInt16) (places : Nat) : UInt16 :=
  if decrement then address - .ofNat places else address + .ofNat places

@[simp]
theorem walk_zero (decrement : Bool) (address : UInt16) :
    walk decrement address 0 = address := by
  cases decrement <;> simp [walk]

theorem neighbour_walk (decrement : Bool) (address : UInt16) (places : Nat) :
    neighbour decrement (walk decrement address places) =
      walk decrement address (places + 1) := by
  cases decrement with
  | true => exact (sub_ofNat_succ address places).symm
  | false => exact (add_ofNat_succ address places).symm

end Word

/-! ## Registers -/

namespace Registers

@[simp]
theorem setHl_hl (regs : Registers) : regs.setHl regs.hl = regs := by
  simp [setHl, inBank, Bank.setHl, Bank.hl]

@[simp]
theorem setDe_de (regs : Registers) : regs.setDe regs.de = regs := by
  simp [setDe, inBank, Bank.setDe, Bank.de]

@[simp]
theorem setBc_bc (regs : Registers) : regs.setBc regs.bc = regs := by
  simp [setBc, inBank, Bank.setBc, Bank.bc]

theorem refresh_zero (regs : Registers) : regs.refresh 0 = regs := by
  have kept (r : UInt8) : (r &&& 0x80) ||| ((r + 0) &&& 0x7F) = r := by
    revert r
    refine Byte.of_forall_ofNat ?_
    decide +kernel
  exact congrArg (fun r => { regs with r := r }) (kept regs.r)

/-- Counting in two parts is counting in one. -/
theorem refresh_add (regs : Registers) (first second : UInt8) :
    (regs.refresh first).refresh second = regs.refresh (first + second) := by
  have inParts :=
    (CountsOn.refresh regs first).trans (.refresh (regs.refresh first) second)
  have atOnce := CountsOn.refresh regs (first + second)
  have sameCount :
      (first.toNat + second.toNat) % 128 = (first + second).toNat % 128 := by
    rw [UInt8.toNat_add]
    omega
  exact congrArg (fun r => { regs with r := r }) (inParts.unique atOnce sameCount)

end Registers

/-! ## The bytes of a block operation -/

/-- The opcode of a block operation behind the lead of the extended table. -/
def BlockOperation.opcode (op : BlockOperation) : UInt8 :=
  let action : UInt8 :=
    match op.action with
    | .load => 0xA0
    | .compare => 0xA1
    | .input => 0xA2
    | .output => 0xA3
  action + (if op.decrement then 0x08 else 0) + (if op.repeats then 0x10 else 0)

private theorem BlockOperation.ofByte_opcode (op : BlockOperation) :
    ExtendedOperation.ofByte op.opcode = .block op := by
  obtain ⟨action, decrement, repeats⟩ := op
  cases action <;> cases decrement <;> cases repeats <;> decide

/-- The two bytes of a block operation lie at an address. -/
structure Memory.HoldsBlock (ram : Memory) (pc : UInt16) (op : BlockOperation) :
    Prop where
  lead : ram.get pc = 0xED
  opcode : ram.get (pc + 1) = op.opcode

private theorem Memory.HoldsBlock.instructionAt {ram : Memory} {pc : UInt16}
    {op : BlockOperation} (held : ram.HoldsBlock pc op) :
    ram.instructionAt pc = .extended (.block op) := by
  rw [instructionAt_extended held.lead held.opcode, op.ofByte_opcode]

/-! ## One round -/

namespace BlockOperation

/-- What a round makes of the registers and of the host, leaving aside the
program counter, the refresh register and the cycles. -/
def pass (op : BlockOperation) (current : Registers × Flat) : Registers × Flat :=
  let (regs, flat) := current
  match op.action with
  | .load =>
      let byte := flat.peek regs.hl
      let stepped :=
        (op.stepCounted regs).setDe (Word.neighbour op.decrement regs.de)
      ({ stepped with f := loadFlags byte stepped }, flat.poke regs.de byte)
  | .compare =>
      let stepped := op.stepCounted regs
      ({ stepped with f := compareFlags (flat.peek regs.hl) stepped }, flat)
  | .input =>
      let byte := flat.ports regs.bc
      let stepped := op.stepPort regs
      let other := if op.decrement then stepped.c - 1 else stepped.c + 1
      ({ stepped with f := portFlags byte other stepped.b },
        flat.poke regs.hl byte)
  | .output =>
      let byte := flat.peek regs.hl
      let stepped := op.stepPort regs
      ({ stepped with f := portFlags byte stepped.l stepped.b },
        flat.writePort stepped.bc byte)

/-- A number of rounds, one after the other. -/
def passes (op : BlockOperation) (current : Registers × Flat) :
    Nat → Registers × Flat
  | 0 => current
  | done + 1 => op.pass (op.passes current done)

/-- One more place for the pointer, and one less for the counter. -/
theorem stepCounted_walk (op : BlockOperation) (regs current : Registers)
    (done : Nat) (hl : current.hl = Word.walk op.decrement regs.hl done)
    (bc : current.bc = regs.bc - .ofNat done) :
    op.stepCounted current =
      (current.setHl (Word.walk op.decrement regs.hl (done + 1))).setBc
        (regs.bc - .ofNat (done + 1)) := by
  unfold stepCounted
  rw [hl, bc, Word.neighbour_walk, Word.sub_ofNat_succ]

theorem stepPort_walk (op : BlockOperation) (regs current : Registers)
    (done : Nat) (hl : current.hl = Word.walk op.decrement regs.hl done)
    (b : current.b = regs.b - .ofNat done) :
    op.stepPort current =
      { current.setHl (Word.walk op.decrement regs.hl (done + 1)) with
        b := regs.b - .ofNat (done + 1) } := by
  unfold stepPort
  rw [hl, Word.neighbour_walk, Byte.sub_ofNat_succ, ← b]
  rfl

/-- A round changes nothing but the bank in use. -/
theorem fst_pass (op : BlockOperation) (current : Registers × Flat) :
    (op.pass current).1 =
      { current.1 with toBank := (op.pass current).1.toBank } := by
  obtain ⟨action, decrement, repeats⟩ := op
  cases action <;> rfl

theorem fst_passes (op : BlockOperation) (current : Registers × Flat)
    (done : Nat) :
    (op.passes current done).1 =
      { current.1 with toBank := (op.passes current done).1.toBank } := by
  induction done with
  | zero => rfl
  | succ done inductionHypothesis =>
      rw [passes, fst_pass, inductionHypothesis]

/-- A round neither looks at the refresh register nor at the cycles. -/
theorem pass_refresh (op : BlockOperation) (regs : Registers) (flat : Flat)
    (count : UInt8) (cycles : Nat) :
    op.pass (regs.refresh count, flat.addCycles cycles) =
      ((op.pass (regs, flat)).1.refresh count,
        (op.pass (regs, flat)).2.addCycles cycles) := by
  obtain ⟨action, decrement, repeats⟩ := op
  cases action <;> rfl

theorem goesOn_refresh (op : BlockOperation) (regs : Registers) (count : UInt8) :
    op.GoesOn (regs.refresh count) ↔ op.GoesOn regs :=
  Iff.rfl

private theorem run_finish_flat (again last : Nat) (more : Bool) (regs : Registers)
    (flat : Flat) :
    (finish again last more regs).run Flat.bus flat =
      if more then (regs, flat.addCycles again)
      else (regs.advance 2, flat.addCycles last) := by
  cases more <;> rfl

private theorem run_finishPort_flat (op : BlockOperation) (regs : Registers)
    (flat : Flat) :
    (op.finishPort regs).run Flat.bus flat =
      if op.repeats && !regs.f.zero then (regs, flat.addCycles 5)
      else (regs.advance 2, flat) := by
  unfold finishPort
  cases op.repeats && !regs.f.zero <;> rfl

/-- Whether there is another round, as a round reads it off its own flags. -/
def showsMore (op : BlockOperation) (flags : Flags) : Bool :=
  match op.action with
  | .load => op.repeats && flags.parity
  | .compare => op.repeats && flags.parity && !flags.zero
  | .input | .output => op.repeats && !flags.zero

/-- The flags of a round show its counter. -/
theorem flags_pass (op : BlockOperation) (current : Registers × Flat) :
    match op.action with
    | .load | .compare =>
        (op.pass current).1.f.parity = ((op.pass current).1.bc != 0)
    | .input | .output =>
        (op.pass current).1.f.zero = ((op.pass current).1.b == 0) := by
  obtain ⟨action, decrement, repeats⟩ := op
  cases action <;> rfl

private theorem goesOn_pass (op : BlockOperation) (current : Registers × Flat) :
    op.GoesOn (op.pass current).1 ↔ op.showsMore (op.pass current).1.f = true := by
  have shown := flags_pass op current
  revert shown
  generalize (op.pass current).1 = left
  unfold GoesOn showsMore
  cases op.action with
  | load =>
      intro shown
      rw [shown, Bool.and_eq_true, bne_iff_ne]
  | compare =>
      intro shown
      rw [shown, Bool.and_eq_true, Bool.and_eq_true, bne_iff_ne,
        Bool.not_eq_true', and_assoc]
  | input =>
      intro shown
      rw [shown, Bool.and_eq_true, Bool.not_eq_true', beq_eq_false_iff_ne]
  | output =>
      intro shown
      rw [shown, Bool.and_eq_true, Bool.not_eq_true', beq_eq_false_iff_ne]

/-- The microcode of a round.  With the eight cycles of the fetch it takes 21
cycles, and the last round 16. -/
theorem run_execute_flat (op : BlockOperation) (regs : Registers) (flat : Flat) :
    (op.execute regs).run Flat.bus flat =
      if op.GoesOn (op.pass (regs, flat)).1 then
        ((op.pass (regs, flat)).1, (op.pass (regs, flat)).2.addCycles 13)
      else
        ((op.pass (regs, flat)).1.advance 2,
          (op.pass (regs, flat)).2.addCycles 8) := by
  simp only [goesOn_pass]
  obtain ⟨action, decrement, repeats⟩ := op
  cases action with
  | load => exact run_finish_flat 7 2 _ _ _
  | compare => exact run_finish_flat 10 5 _ _ _
  | input => exact run_finishPort_flat _ _ _
  | output => exact run_finishPort_flat _ _ _

end BlockOperation

/-! ## One step -/

namespace Cpu

/-- The processor that is left when a plain instruction ended with these
registers and nothing was served. -/
def leaving (cpu : Cpu) (regs : Registers) : Cpu :=
  { cpu with
    regs := regs
    control := { cpu.control with checkInterrupt := true } }

theorem eventDue_leaving {cpu : Cpu} {regs : Registers}
    (sameLatch : regs.iff1 = cpu.regs.iff1) :
    (cpu.leaving regs).EventDue ↔ cpu.EventDue := by
  unfold EventDue
  rw [← sameLatch]
  exact Iff.rfl

/-- When nothing is due, a step at a block operation is its microcode. -/
theorem step_of_execute {cpu : Cpu} {flat : Flat} {op : BlockOperation}
    (quiet : ¬ cpu.EventDue) (held : flat.ram.HoldsBlock cpu.regs.pc op)
    {left : Registers × Flat}
    (executed :
      (op.execute (cpu.regs.refresh 2)).run Flat.bus (flat.addCycles 8) = left)
    (sameLatch : left.1.iff1 = cpu.regs.iff1) :
    cpu.step Flat.bus flat = (cpu.leaving left.1, left.2) := by
  have ran :
      cpu.runInstruction Flat.bus flat =
        ((.extended (.block op), cpu.leaving left.1), left.2) := by
    subst executed
    exact runInstruction_flat held.instructionAt
  have stillQuiet : ¬ (cpu.leaving left.1).EventDue :=
    fun due => quiet ((eventDue_leaving sameLatch).mp due)
  unfold step
  rw [ran, ← served_of_not_eventDue left.2 stillQuiet, ← service_flat_eq_served]
  exact rfl

/-- A step at a block operation is one round of it. -/
theorem step_block {cpu : Cpu} {flat : Flat} {op : BlockOperation}
    (quiet : ¬ cpu.EventDue) (held : flat.ram.HoldsBlock cpu.regs.pc op) :
    cpu.step Flat.bus flat =
      let left := op.pass (cpu.regs, flat)
      if op.GoesOn left.1 then
        (cpu.leaving (left.1.refresh 2), left.2.addCycles 21)
      else
        (cpu.leaving ((left.1.refresh 2).advance 2), left.2.addCycles 16) := by
  have executed := op.run_execute_flat (cpu.regs.refresh 2) (flat.addCycles 8)
  have sameLatch : (op.pass (cpu.regs, flat)).1.iff1 = cpu.regs.iff1 := by
    rw [op.fst_pass]
  simp only [op.pass_refresh, op.goesOn_refresh] at executed
  by_cases goesOn : op.GoesOn (op.pass (cpu.regs, flat)).1
  · rw [if_pos goesOn] at executed
    dsimp only
    rw [if_pos goesOn]
    exact step_of_execute quiet held executed sameLatch
  · rw [if_neg goesOn] at executed
    dsimp only
    rw [if_neg goesOn]
    exact step_of_execute quiet held executed sameLatch

/-! ## Runs -/

theorem run_succ {σ : Type} (bus : Bus σ) (count : Nat) (cpu : Cpu) (state : σ) :
    cpu.run bus (count + 1) state =
      (cpu.run bus count state).1.step bus (cpu.run bus count state).2 := by
  induction count generalizing cpu state with
  | zero => rfl
  | succ count inductionHypothesis =>
      exact inductionHypothesis _ _

/-- The program counter stays where it is for all of a number of steps but the
last one, which moves it. -/
structure MovesAfter (cpu : Cpu) (flat : Flat) (count : Nat) : Prop where
  stays : ∀ done < count,
    (cpu.run Flat.bus done flat).1.regs.pc = cpu.regs.pc
  moves : (cpu.run Flat.bus count flat).1.regs.pc ≠ cpu.regs.pc

section Rounds

variable (cpu : Cpu) (flat : Flat) (op : BlockOperation)

/-- What a block operation leaves after a number of rounds that were not the
last one: the registers and the host of these rounds, and two opcode bytes and
21 cycles counted for each. -/
structure AfterRounds (done : Nat) (left : Cpu × Flat) : Prop where
  regs :
    left.1.regs = (op.passes (cpu.regs, flat) done).1.refresh (.ofNat (2 * done))
  host : left.2 = (op.passes (cpu.regs, flat) done).2.addCycles (21 * done)
  others : ∀ regs, left.1.leaving regs = cpu.leaving regs

/-- The registers and the host with which a block operation is done after a
number of rounds. -/
def completed (count : Nat) : Cpu × Flat :=
  let left := op.passes (cpu.regs, flat) count
  (cpu.leaving ((left.1.refresh (.ofNat (2 * count))).advance 2),
    left.2.addCycles (21 * (count - 1) + 16))

end Rounds

namespace AfterRounds

variable {cpu : Cpu} {flat : Flat} {op : BlockOperation} {done : Nat}
  {left : Cpu × Flat}

private theorem start : cpu.AfterRounds flat op 0 (cpu, flat) := by
  refine ⟨?_, rfl, fun _ => rfl⟩
  exact cpu.regs.refresh_zero.symm

variable (after : cpu.AfterRounds flat op done left)
include after

theorem pc : left.1.regs.pc = cpu.regs.pc := by
  rw [after.regs, op.fst_passes]
  rfl

private theorem quiet (quiet : ¬ cpu.EventDue) : ¬ left.1.EventDue := by
  have sameLatch : left.1.regs.iff1 = cpu.regs.iff1 := by
    rw [after.regs, op.fst_passes]
    rfl
  have leaving := after.others left.1.regs
  intro due
  rw [← eventDue_leaving rfl, leaving] at due
  exact quiet ((eventDue_leaving sameLatch).mp due)

/-- One more round. -/
theorem step_eq (quiet : ¬ cpu.EventDue)
    (held :
      (op.passes (cpu.regs, flat) done).2.ram.HoldsBlock cpu.regs.pc op) :
    left.1.step Flat.bus left.2 =
      let next := op.passes (cpu.regs, flat) (done + 1)
      let regs := next.1.refresh (.ofNat (2 * (done + 1)))
      if op.GoesOn next.1 then
        (cpu.leaving regs, next.2.addCycles (21 * (done + 1)))
      else
        (cpu.leaving (regs.advance 2), next.2.addCycles (21 * done + 16)) := by
  have here : left.2.ram.HoldsBlock left.1.regs.pc op := by
    rw [after.host, after.pc]
    exact held
  have counted : UInt8.ofNat (2 * (done + 1)) = .ofNat (2 * done) + 2 := by
    rw [Nat.mul_succ, UInt8.ofNat_add]
    rfl
  rw [step_block (after.quiet quiet) here, after.regs, after.host,
    op.pass_refresh, counted]
  simp only [after.others, Registers.refresh_add, op.goesOn_refresh]
  rfl

private theorem goesOn (quiet : ¬ cpu.EventDue)
    (held :
      (op.passes (cpu.regs, flat) done).2.ram.HoldsBlock cpu.regs.pc op)
    (more : op.GoesOn (op.passes (cpu.regs, flat) (done + 1)).1) :
    cpu.AfterRounds flat op (done + 1) (left.1.step Flat.bus left.2) := by
  rw [after.step_eq quiet held]
  dsimp only
  rw [if_pos more]
  exact ⟨rfl, rfl, fun _ => rfl⟩

private theorem completes (quiet : ¬ cpu.EventDue)
    (held :
      (op.passes (cpu.regs, flat) done).2.ram.HoldsBlock cpu.regs.pc op)
    (last : ¬ op.GoesOn (op.passes (cpu.regs, flat) (done + 1)).1) :
    left.1.step Flat.bus left.2 = cpu.completed flat op (done + 1) := by
  rw [after.step_eq quiet held]
  dsimp only
  rw [if_neg last]
  rfl

end AfterRounds

section Run

variable {cpu : Cpu} {flat : Flat} {op : BlockOperation} {count : Nat}

private theorem afterRounds_run (quiet : ¬ cpu.EventDue)
    (held : ∀ done < count,
      (op.passes (cpu.regs, flat) done).2.ram.HoldsBlock cpu.regs.pc op)
    (goesOn : ∀ done, 0 < done → done < count →
      op.GoesOn (op.passes (cpu.regs, flat) done).1)
    {done : Nat} (earlier : done < count) :
    cpu.AfterRounds flat op done (cpu.run Flat.bus done flat) := by
  induction done with
  | zero => exact .start
  | succ done inductionHypothesis =>
      have before : done < count := by omega
      rw [run_succ]
      exact (inductionHypothesis before).goesOn quiet (held done before)
        (goesOn (done + 1) (by omega) earlier)

private theorem pc_completed :
    (cpu.completed flat op count).1.regs.pc = cpu.regs.pc + 2 := by
  have kept := congrArg Registers.pc (op.fst_passes (cpu.regs, flat) count)
  exact congrArg (· + 2) kept

/-- If its bytes are there whenever a round begins, a block operation takes one
step for each of its rounds.  Then the program counter is behind it. -/
theorem run_block (quiet : ¬ cpu.EventDue) (positive : 0 < count)
    (held : ∀ done < count,
      (op.passes (cpu.regs, flat) done).2.ram.HoldsBlock cpu.regs.pc op)
    (goesOn : ∀ done, 0 < done → done ≤ count →
      (op.GoesOn (op.passes (cpu.regs, flat) done).1 ↔ done ≠ count)) :
    cpu.MovesAfter flat count ∧
      cpu.run Flat.bus count flat = cpu.completed flat op count := by
  have repeated : ∀ done, 0 < done → done < count →
      op.GoesOn (op.passes (cpu.regs, flat) done).1 := by
    intro done started earlier
    exact (goesOn done started (by omega)).mpr (by omega)
  have last : ¬ op.GoesOn (op.passes (cpu.regs, flat) count).1 := by
    intro more
    exact (goesOn count positive (Nat.le_refl _)).mp more rfl
  obtain ⟨before, rfl⟩ : ∃ before, count = before + 1 :=
    ⟨count - 1, by omega⟩
  have reached := afterRounds_run quiet held repeated (Nat.lt_succ_self before)
  have ran :
      cpu.run Flat.bus (before + 1) flat = cpu.completed flat op (before + 1) := by
    rw [run_succ]
    exact reached.completes quiet (held before (Nat.lt_succ_self before)) last
  refine ⟨⟨?_, ?_⟩, ran⟩
  · intro done earlier
    exact (afterRounds_run quiet held repeated earlier).pc
  · have moved : cpu.regs.pc + 2 ≠ cpu.regs.pc := by grind
    rw [ran, pc_completed]
    exact moved

end Run

end Cpu

end Z80
