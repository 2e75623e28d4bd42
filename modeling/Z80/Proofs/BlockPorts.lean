import Z80.Proofs.BlockRun

/-!
# Block transfers through ports

`INIR` and `INDR` store bytes from ports, `OTIR` and `OTDR` write bytes to
ports.  The counter is the high byte of the port number, so every byte goes
through a port of its own.

Main statement: `Cpu.run_blockPorts`, for every counter and both directions.
-/

namespace Z80

/-! ## What goes through the ports -/

/-- The memory when a number of bytes have been stored one after the other.  A
port is asked for before the counter is counted down. -/
def Flat.taken (flat : Flat) (decrement : Bool) (target : UInt16)
    (counter low : UInt8) : Nat → Memory
  | 0 => flat.ram
  | done + 1 =>
      (flat.taken decrement target counter low done).set
        (Word.walk decrement target done)
        (flat.ports (Word.ofBytes (counter - .ofNat done) low))

/-- The record of written bytes when a number of bytes have been written one
after the other.  A port is written to when the counter has been counted
down. -/
def Flat.sent (flat : Flat) (decrement : Bool) (source : UInt16)
    (counter low : UInt8) : Nat → Array (UInt16 × UInt8)
  | 0 => flat.writes
  | done + 1 =>
      (flat.sent decrement source counter low done).push
        (Word.ofBytes (counter - 1 - .ofNat done) low,
          flat.ram.get (Word.walk decrement source done))

namespace BlockOperation

section Ported

variable (decrement : Bool) (regs : Registers) (bytes others : Nat → UInt8)

/-- The flags of a block transfer after a number of rounds, given the bytes of
the rounds and what is added to them. -/
def portedFlags : Nat → Flags
  | 0 => regs.f
  | done + 1 => portFlags (bytes done) (others done) (regs.b - .ofNat (done + 1))

/-- The registers of a block transfer after a number of rounds. -/
def portedRegisters (done : Nat) : Registers :=
  { regs.setHl (Word.walk decrement regs.hl done) with
    b := regs.b - .ofNat done
    f := portedFlags regs bytes others done }

theorem portedRegisters_zero :
    portedRegisters decrement regs bytes others 0 = regs := by
  have b : regs.b - .ofNat 0 = regs.b := UInt8.sub_zero _
  unfold portedRegisters
  rw [Word.walk_zero, b, Registers.setHl_hl]
  rfl

theorem hl_portedRegisters (done : Nat) :
    (portedRegisters decrement regs bytes others done).hl =
      Word.walk decrement regs.hl done :=
  Word.ofBytes_high_low _

theorem stepPort_ported (op : BlockOperation) (done : Nat) :
    op.stepPort (portedRegisters op.decrement regs bytes others done) =
      { portedRegisters op.decrement regs bytes others (done + 1) with
        f := portedFlags regs bytes others done } :=
  stepPort_walk op regs _ done (hl_portedRegisters _ _ _ _ _) rfl

/-- A block transfer goes on until its counter has run out. -/
theorem goesOn_ported_iff {op : BlockOperation} (repeats : op.repeats = true)
    (ports : op.action = .input ∨ op.action = .output) {done : Nat}
    (positive : 0 < done) (bound : done ≤ rounds 256 regs.b.toNat) :
    op.GoesOn (portedRegisters decrement regs bytes others done) ↔
      done ≠ rounds 256 regs.b.toNat := by
  have counter :
      (portedRegisters decrement regs bytes others done).b =
        regs.b - .ofNat done :=
    rfl
  have ranOut := Byte.sub_ofNat_eq_zero_iff positive bound
  rcases ports with action | action
  · simp only [GoesOn, repeats, action, true_and, counter]
    exact not_congr ranOut
  · simp only [GoesOn, repeats, action, true_and, counter]
    exact not_congr ranOut

end Ported

/-- The byte that each round of a block input stores. -/
def inputByte (regs : Registers) (flat : Flat) (done : Nat) : UInt8 :=
  flat.ports (Word.ofBytes (regs.b - .ofNat done) regs.c)

private theorem passes_input (decrement repeats : Bool) (regs : Registers) (flat : Flat)
    (done : Nat) :
    passes ⟨.input, decrement, repeats⟩ (regs, flat) done =
      (portedRegisters decrement regs (inputByte regs flat)
          (fun _ => if decrement then regs.c - 1 else regs.c + 1) done,
        { flat with
          ram := flat.taken decrement regs.hl regs.b regs.c done }) := by
  induction done with
  | zero =>
      rw [portedRegisters_zero]
      rfl
  | succ done inductionHypothesis =>
      have stepped := stepPort_ported regs (inputByte regs flat)
        (fun _ => if decrement then regs.c - 1 else regs.c + 1)
        ⟨.input, decrement, repeats⟩ done
      rw [passes, inductionHypothesis]
      simp only [pass, stepped, hl_portedRegisters]
      rfl

private theorem passes_output (decrement repeats : Bool) (regs : Registers)
    (flat : Flat)
    (done : Nat) :
    passes ⟨.output, decrement, repeats⟩ (regs, flat) done =
      (portedRegisters decrement regs
          (fun done => flat.ram.get (Word.walk decrement regs.hl done))
          (fun done => Word.low (Word.walk decrement regs.hl (done + 1))) done,
        { flat with
          writes := flat.sent decrement regs.hl regs.b regs.c done }) := by
  induction done with
  | zero =>
      rw [portedRegisters_zero]
      rfl
  | succ done inductionHypothesis =>
      have stepped := stepPort_ported regs
        (fun done => flat.ram.get (Word.walk decrement regs.hl done))
        (fun done => Word.low (Word.walk decrement regs.hl (done + 1)))
        ⟨.output, decrement, repeats⟩ done
      have counter :
          regs.b - 1 - .ofNat done = regs.b - .ofNat (done + 1) := by
        rw [Byte.sub_ofNat_succ]
        grind
      rw [passes, inductionHypothesis]
      simp only [pass, stepped, hl_portedRegisters, Flat.sent, counter]
      rfl

/-- The flags when the counter of a block transfer has run out, given the last
byte and what is added to it. -/
def finalPortFlags (last other : UInt8) : Flags :=
  { sign := false
    zero := true
    bit5 := false
    half := 255 < last.toNat + other.toNat
    bit3 := false
    parity := Byte.evenParity (.ofNat ((last.toNat + other.toNat) % 8))
    subtract := Byte.testBit last 7
    carry := 255 < last.toNat + other.toNat }

private theorem portFlags_zero (last other : UInt8) :
    portFlags last other 0 = finalPortFlags last other := by
  have parity := congrArg Byte.evenParity
    (UInt8.xor_zero (a := .ofNat ((last.toNat + other.toNat) % 8)))
  unfold portFlags finalPortFlags
  simp only [parity]
  rfl

/-- The registers when the counter has run out. -/
theorem portedRegisters_last (decrement : Bool) (regs : Registers)
    (bytes others : Nat → UInt8) {before : Nat}
    (ranOut : regs.b - .ofNat (before + 1) = 0) :
    portedRegisters decrement regs bytes others (before + 1) =
      { regs.setHl (Word.walk decrement regs.hl (before + 1)) with
        b := 0
        f := finalPortFlags (bytes before) (others before) } := by
  unfold portedRegisters
  rw [portedFlags, ranOut, portFlags_zero]

end BlockOperation

namespace Cpu

/-- A block transfer takes one step for each byte, if its two bytes are there
before each of them. -/
theorem run_ported {cpu : Cpu} {flat : Flat} (quiet : ¬ cpu.EventDue)
    {count : Nat} (length : rounds 256 cpu.regs.b.toNat = count)
    (op : BlockOperation) (repeats : op.repeats = true)
    (ports : op.action = .input ∨ op.action = .output)
    (bytes others : Nat → UInt8) (host : Nat → Flat)
    (closed : ∀ done,
      op.passes (cpu.regs, flat) done =
        (BlockOperation.portedRegisters op.decrement cpu.regs bytes others done,
          host done))
    (held : ∀ done < count, (host done).ram.HoldsBlock cpu.regs.pc op) :
    cpu.MovesAfter flat count ∧
      cpu.run Flat.bus count flat =
        (cpu.leaving
            ((Registers.refresh
                { cpu.regs.setHl (Word.walk op.decrement cpu.regs.hl count) with
                  b := 0
                  f :=
                    BlockOperation.finalPortFlags (bytes (count - 1))
                      (others (count - 1)) }
                (.ofNat (2 * count))).advance 2),
          (host count).addCycles (21 * (count - 1) + 16)) := by
  have positive : 0 < count := by
    rw [← length]
    exact rounds_pos (by omega)
  have ranOut : cpu.regs.b - .ofNat count = 0 := by
    rw [← length] at positive ⊢
    exact (Byte.sub_ofNat_eq_zero_iff positive (Nat.le_refl _)).mpr rfl
  obtain ⟨moves, ran⟩ :
      cpu.MovesAfter flat count ∧
        cpu.run Flat.bus count flat = cpu.completed flat op count := by
    refine run_block quiet positive ?_ ?_
    · intro done earlier
      rw [closed]
      exact held done earlier
    · intro done started bound
      rw [← length] at bound ⊢
      rw [closed]
      exact BlockOperation.goesOn_ported_iff _ _ _ _ repeats ports started bound
  refine ⟨moves, ran.trans ?_⟩
  obtain ⟨before, rfl⟩ : ∃ before, count = before + 1 := ⟨count - 1, by omega⟩
  unfold completed
  rw [closed, BlockOperation.portedRegisters_last _ _ _ _ ranOut]
  rfl

/-- A repeating block transfer takes one step for each byte.  The bytes of an
input lie in memory in the end, those of an output are on record, each with its
port, and nothing else in the host has changed but the cycles.  The pointer has
moved on, the counter is zero, and the flags are those of the last byte.  An
input needs its two bytes to be there before each round, so only the last byte
may overwrite them. -/
theorem run_blockPorts (cpu : Cpu) (flat : Flat) (decrement : Bool)
    (quiet : ¬ cpu.EventDue) :
    let regs := cpu.regs
    let count := rounds 256 regs.b.toNat
    let cycles := flat.cycles + (21 * (count - 1) + 16)
    let left (last other : UInt8) : Cpu :=
      cpu.leaving
        ((Registers.refresh
            { regs.setHl (Word.walk decrement regs.hl count) with
              b := 0
              f := BlockOperation.finalPortFlags last other }
            (.ofNat (2 * count))).advance 2)
    ((∀ done < count,
        (flat.taken decrement regs.hl regs.b regs.c done).HoldsBlock regs.pc
          ⟨.input, decrement, true⟩) →
      let last := flat.ports (Word.ofBytes (regs.b - .ofNat (count - 1)) regs.c)
      let other := if decrement then regs.c - 1 else regs.c + 1
      cpu.MovesAfter flat count ∧
        cpu.run Flat.bus count flat =
          (left last other,
            { flat with
              ram := flat.taken decrement regs.hl regs.b regs.c count
              cycles := cycles })) ∧
    (flat.ram.HoldsBlock regs.pc ⟨.output, decrement, true⟩ →
      let last := flat.ram.get (Word.walk decrement regs.hl (count - 1))
      let other := Word.low (Word.walk decrement regs.hl count)
      cpu.MovesAfter flat count ∧
        cpu.run Flat.bus count flat =
          (left last other,
            { flat with
              writes := flat.sent decrement regs.hl regs.b regs.c count
              cycles := cycles })) := by
  have positive : 0 < rounds 256 cpu.regs.b.toNat := rounds_pos (by omega)
  dsimp only
  generalize length : rounds 256 cpu.regs.b.toNat = count at positive ⊢
  constructor
  · intro held
    exact run_ported quiet length ⟨.input, decrement, true⟩ rfl (.inl rfl) _ _ _
      (BlockOperation.passes_input decrement true cpu.regs flat) held
  · intro held
    have lastRound : count - 1 + 1 = count := Nat.sub_add_cancel positive
    have ran :=
      run_ported quiet length ⟨.output, decrement, true⟩ rfl (.inr rfl) _ _ _
        (BlockOperation.passes_output decrement true cpu.regs flat)
        (fun _ _ => held)
    dsimp only at ran
    rw [lastRound] at ran
    exact ran

/-- A processor about to move two bytes, the second of them at its program
counter. -/
def transferring : Cpu :=
  { Cpu.new .nmos with
    regs := { (Cpu.new .nmos).regs with b := 2, c := 0xFF, l := 0x0F, pc := 0x10 } }

/-- Ports that answer with the high byte of their number, and `INIR`. -/
def receivingHost : Flat :=
  { Flat.new.load 0x0F [0x00, 0xED, 0xB2] with
    ports := fun port => Word.high port }

/-- A byte, and `OTIR` behind it. -/
def sendingHost : Flat :=
  Flat.new.load 0x0F [0x5A, 0xED, 0xB3]

/-- An input asks the ports of the counters two and one, and its last byte
overwrites the lead byte of the instruction.  An output writes to the ports of
the counters one and zero. -/
theorem run_blockPorts_twoBytes :
    ¬ transferring.EventDue ∧
      transferring.MovesAfter receivingHost 2 ∧
      (transferring.run Flat.bus 2 receivingHost).2.ram.slice 0x0F 3 =
        [0x02, 0x01, 0xB2] ∧
      transferring.MovesAfter sendingHost 2 ∧
      (transferring.run Flat.bus 2 sendingHost).2.writes =
        #[(0x01FF, 0x5A), (0x00FF, 0xED)] := by
  have quiet : ¬ transferring.EventDue := by
    simp [EventDue, transferring, Cpu.new, Cpu.reset, Control.none]
  have two : rounds 256 transferring.regs.b.toNat = 2 := by decide
  have receives := (run_blockPorts transferring receivingHost false quiet).1
  have sends := (run_blockPorts transferring sendingHost false quiet).2
  dsimp only at receives sends
  rw [two] at receives sends
  have held : ∀ done < 2,
      (receivingHost.taken false transferring.regs.hl transferring.regs.b
          transferring.regs.c done).HoldsBlock transferring.regs.pc
        ⟨.input, false, true⟩ := by
    intro done earlier
    have cases : done = 0 ∨ done = 1 := by omega
    rcases cases with rfl | rfl
    · exact ⟨by decide, by decide⟩
    · exact ⟨by decide, by decide⟩
  obtain ⟨receivingMoves, received⟩ := receives held
  obtain ⟨sendingMoves, sent⟩ := sends ⟨by decide, by decide⟩
  refine ⟨quiet, receivingMoves, ?_, sendingMoves, ?_⟩
  · rw [received]
    decide
  · rw [sent]
    decide

end Cpu

end Z80
