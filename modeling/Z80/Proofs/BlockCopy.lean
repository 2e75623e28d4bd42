import Z80.Proofs.BlockRun

/-!
# Block copies

`LDIR` and `LDDR` copy bytes one after the other.  Where source and target
overlap, a byte that was copied may be copied on.

Main statement: `Cpu.run_blockCopy`, for every counter, every placement of
source and target and both directions.
-/

namespace Z80

/-- The memory when a number of bytes have been copied one after the other,
each of them read from the memory that the ones before it left. -/
def Memory.copied (ram : Memory) (decrement : Bool) (source target : UInt16) :
    Nat → Memory
  | 0 => ram
  | done + 1 =>
      let before := ram.copied decrement source target done
      before.set (Word.walk decrement target done)
        (before.get (Word.walk decrement source done))

namespace BlockOperation

section Copied

variable (decrement : Bool) (regs : Registers) (ram : Memory)

/-- The byte that is copied after a number of others. -/
def copiedByte (done : Nat) : UInt8 :=
  (ram.copied decrement regs.hl regs.de done).get
    (Word.walk decrement regs.hl done)

/-- The flags of a block copy after a number of rounds. -/
def copiedFlags : Nat → Flags
  | 0 => regs.f
  | done + 1 =>
      let sum := copiedByte decrement regs ram done + regs.a
      { regs.f with
        bit5 := Byte.testBit sum 1
        half := false
        bit3 := Byte.testBit sum 3
        parity := regs.bc - .ofNat (done + 1) != 0
        subtract := false }

/-- The registers of a block copy after a number of rounds. -/
def copiedRegisters (done : Nat) : Registers :=
  { ((regs.setHl (Word.walk decrement regs.hl done)).setDe
        (Word.walk decrement regs.de done)).setBc (regs.bc - .ofNat done) with
    f := copiedFlags decrement regs ram done }

private theorem copiedRegisters_zero : copiedRegisters decrement regs ram 0 = regs := by
  have bc : regs.bc - .ofNat 0 = regs.bc := UInt16.sub_zero _
  unfold copiedRegisters
  rw [Word.walk_zero, Word.walk_zero, bc, Registers.setHl_hl, Registers.setDe_de,
    Registers.setBc_bc]
  rfl

/-- Only the sign, zero and carry bits come down from the flags before. -/
theorem loadFlags_copied (done : Nat) (stepped : Registers)
    (flags : stepped.f = copiedFlags decrement regs ram done)
    (accumulator : stepped.a = regs.a)
    (counter : stepped.bc = regs.bc - .ofNat (done + 1)) :
    loadFlags (copiedByte decrement regs ram done) stepped =
      copiedFlags decrement regs ram (done + 1) := by
  unfold loadFlags
  rw [flags, accumulator, counter]
  cases done <;> rfl

/-- The registers when the counter has run out. -/
theorem copiedRegisters_last {before : Nat}
    (ranOut : regs.bc - .ofNat (before + 1) = 0) :
    copiedRegisters decrement regs ram (before + 1) =
      { ((regs.setHl (Word.walk decrement regs.hl (before + 1))).setDe
            (Word.walk decrement regs.de (before + 1))).setBc 0 with
        f :=
          { regs.f with
            bit5 := Byte.testBit (copiedByte decrement regs ram before + regs.a) 1
            half := false
            bit3 := Byte.testBit (copiedByte decrement regs ram before + regs.a) 3
            parity := false
            subtract := false } } := by
  unfold copiedRegisters
  rw [copiedFlags, ranOut]
  rfl

end Copied

/-- A number of rounds of a block copy. -/
theorem passes_load (decrement repeats : Bool) (regs : Registers) (flat : Flat)
    (done : Nat) :
    passes ⟨.load, decrement, repeats⟩ (regs, flat) done =
      (copiedRegisters decrement regs flat.ram done,
        { flat with
          ram := flat.ram.copied decrement regs.hl regs.de done }) := by
  induction done with
  | zero =>
      rw [copiedRegisters_zero]
      rfl
  | succ done inductionHypothesis =>
      have stepped := stepCounted_walk ⟨.load, decrement, repeats⟩ regs
        (copiedRegisters decrement regs flat.ram done) done
        (Word.ofBytes_high_low _) (Word.ofBytes_high_low _)
      have hl :
          (copiedRegisters decrement regs flat.ram done).hl =
            Word.walk decrement regs.hl done :=
        Word.ofBytes_high_low _
      have de :
          (copiedRegisters decrement regs flat.ram done).de =
            Word.walk decrement regs.de done :=
        Word.ofBytes_high_low _
      have flags := loadFlags_copied decrement regs flat.ram done
        ((((copiedRegisters decrement regs flat.ram done).setHl
              (Word.walk decrement regs.hl (done + 1))).setBc
            (regs.bc - .ofNat (done + 1))).setDe
          (Word.walk decrement regs.de (done + 1)))
        rfl rfl (Word.ofBytes_high_low _)
      rw [passes, inductionHypothesis]
      simp only [pass, stepped, hl, de, Word.neighbour_walk]
      refine Prod.ext ?_ rfl
      exact congrArg
        (fun f =>
          { ((regs.setHl (Word.walk decrement regs.hl (done + 1))).setDe
                (Word.walk decrement regs.de (done + 1))).setBc
              (regs.bc - .ofNat (done + 1)) with
            f := f })
        flags

/-- A block copy goes on until its counter has run out. -/
theorem goesOn_copied_iff (decrement : Bool) (regs : Registers) (ram : Memory)
    {done : Nat} (positive : 0 < done)
    (bound : done ≤ rounds 65536 regs.bc.toNat) :
    GoesOn ⟨.load, decrement, true⟩ (copiedRegisters decrement regs ram done) ↔
      done ≠ rounds 65536 regs.bc.toNat := by
  have bc :
      (copiedRegisters decrement regs ram done).bc = regs.bc - .ofNat done :=
    Word.ofBytes_high_low _
  simp only [GoesOn, true_and, bc]
  exact not_congr (Word.sub_ofNat_eq_zero_iff positive bound)

end BlockOperation

/-- A repeating block copy takes one step for each byte.  It needs its two bytes
to be there before each of them, so only the last byte may overwrite them.  In
the end the bytes have been copied one after the other, the pointers have moved
on and the counter has run out; of the flags the sign, zero and carry bits are
as they were.  Every step counts two refresh cycles. -/
theorem Cpu.run_blockCopy (cpu : Cpu) (flat : Flat) (decrement : Bool)
    (quiet : ¬ cpu.EventDue)
    (held : ∀ done < rounds 65536 cpu.regs.bc.toNat,
      (flat.ram.copied decrement cpu.regs.hl cpu.regs.de done).HoldsBlock
        cpu.regs.pc ⟨.load, decrement, true⟩) :
    let count := rounds 65536 cpu.regs.bc.toNat
    let last :=
      (flat.ram.copied decrement cpu.regs.hl cpu.regs.de (count - 1)).get
        (Word.walk decrement cpu.regs.hl (count - 1))
    cpu.MovesAfter flat count ∧
      cpu.run Flat.bus count flat =
        (cpu.leaving
            ((Registers.refresh
                { ((cpu.regs.setHl (Word.walk decrement cpu.regs.hl count)).setDe
                      (Word.walk decrement cpu.regs.de count)).setBc 0 with
                  f :=
                    { cpu.regs.f with
                      bit5 := Byte.testBit (last + cpu.regs.a) 1
                      half := false
                      bit3 := Byte.testBit (last + cpu.regs.a) 3
                      parity := false
                      subtract := false } }
                (.ofNat (2 * count))).advance 2),
          { flat with
            ram := flat.ram.copied decrement cpu.regs.hl cpu.regs.de count
            cycles := flat.cycles + (21 * (count - 1) + 16) }) := by
  have positive : 0 < rounds 65536 cpu.regs.bc.toNat := rounds_pos (by omega)
  have ranOut := Word.sub_ofNat_eq_zero_iff positive (Nat.le_refl _)
  have goesOn := @BlockOperation.goesOn_copied_iff decrement cpu.regs flat.ram
  have closed := BlockOperation.passes_load decrement true cpu.regs flat
  generalize rounds 65536 cpu.regs.bc.toNat = count at held positive ranOut goesOn ⊢
  obtain ⟨moves, ran⟩ :
      cpu.MovesAfter flat count ∧
        cpu.run Flat.bus count flat =
          cpu.completed flat ⟨.load, decrement, true⟩ count := by
    refine run_block quiet positive ?_ ?_
    · intro done earlier
      rw [closed]
      exact held done earlier
    · intro done started bound
      rw [closed]
      exact goesOn started bound
  refine ⟨moves, ran.trans ?_⟩
  obtain ⟨before, rfl⟩ : ∃ before, count = before + 1 := ⟨count - 1, by omega⟩
  unfold completed
  rw [closed, BlockOperation.copiedRegisters_last decrement _ _ (ranOut.mpr rfl)]
  rfl

/-- A processor about to copy three bytes, the target one place above the
source. -/
def Cpu.replicating : Cpu :=
  { Cpu.new .nmos with
    regs := { (Cpu.new .nmos).regs with c := 3, l := 0x0D, e := 0x0E, pc := 0x10 } }

/-- A byte, room for two more, and `LDIR` behind it. -/
def Flat.replicated : Flat :=
  Flat.new.load 0x0D [0x5A, 0x00, 0x00, 0xED, 0xB0]

/-- The first byte fills the room, and in the last round it overwrites the lead
byte of the instruction. -/
theorem Cpu.run_blockCopy_replicating :
    ¬ replicating.EventDue ∧
      (∀ done < rounds 65536 replicating.regs.bc.toNat,
        (Flat.replicated.ram.copied false replicating.regs.hl replicating.regs.de
            done).HoldsBlock replicating.regs.pc ⟨.load, false, true⟩) ∧
      replicating.MovesAfter Flat.replicated 3 ∧
      (replicating.run Flat.bus 3 Flat.replicated).2.ram.slice 0x0D 5 =
        [0x5A, 0x5A, 0x5A, 0x5A, 0xB0] ∧
      (replicating.run Flat.bus 3 Flat.replicated).2.cycles = 58 := by
  have quiet : ¬ replicating.EventDue := by
    simp [EventDue, replicating, Cpu.new, Cpu.reset, Control.none]
  have three : rounds 65536 replicating.regs.bc.toNat = 3 := by decide
  have held : ∀ done < rounds 65536 replicating.regs.bc.toNat,
      (Flat.replicated.ram.copied false replicating.regs.hl replicating.regs.de
          done).HoldsBlock replicating.regs.pc ⟨.load, false, true⟩ := by
    intro done earlier
    have cases : done = 0 ∨ done = 1 ∨ done = 2 := by omega
    rcases cases with rfl | rfl | rfl
    · exact ⟨by decide, by decide⟩
    · exact ⟨by decide, by decide⟩
    · exact ⟨by decide, by decide⟩
  obtain ⟨moves, ran⟩ :=
    run_blockCopy replicating Flat.replicated false quiet held
  rw [three] at moves ran
  refine ⟨quiet, held, moves, ?_, ?_⟩
  · rw [ran]
    decide
  · rw [ran]
    decide

end Z80
