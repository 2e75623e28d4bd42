import Z80.Bus

/-!
# Microcode

An instruction runs as a sequence of machine cycles.  A machine cycle asks the
bus for something and gets an answer, and the cycles that follow may depend on
the answers so far.  Such a sequence is a value, and `Microcode.run` performs
it on a bus.

Main statements: microcode is a lawful monad, and performing one part after
another is performing their composition.
-/

namespace Z80

/-- One machine cycle. -/
inductive Cycle where
  /-- Let cycles pass without using the bus. -/
  | internal (cycles : Nat)
  | readMemory (address : UInt16)
  | writeMemory (address : UInt16) (byte : UInt8)
  | readWord (address : UInt16)
  | writeWord (address word : UInt16)
  | input (port : UInt16)
  | output (port : UInt16) (byte : UInt8)
  | fetchFirst (pc : UInt16)
  | fetchSecond (pc : UInt16)
  | fetchByte (pc offset : UInt16)
  | fetchWord (pc offset : UInt16)
  /-- Hand the registers to the host. -/
  | tapePatch (regs : Registers)

abbrev Cycle.Answer : Cycle → Type
  | .internal _ | .writeMemory _ _ | .writeWord _ _ | .output _ _ => Unit
  | .readMemory _ | .input _ | .fetchFirst _ | .fetchSecond _
  | .fetchByte _ _ => UInt8
  | .readWord _ | .fetchWord _ _ => UInt16
  | .tapePatch _ => Registers

def Cycle.perform {σ : Type} (bus : Bus σ) :
    (cycle : Cycle) → σ → cycle.Answer × σ
  | .internal cycles, state => ((), bus.advance cycles state)
  | .readMemory address, state => bus.readMemory address state
  | .writeMemory address byte, state => ((), bus.writeMemory address byte state)
  | .readWord address, state => bus.readWord address state
  | .writeWord address word, state => ((), bus.writeWord address word state)
  | .input port, state => bus.input port state
  | .output port byte, state => ((), bus.output port byte state)
  | .fetchFirst pc, state => bus.fetchFirst pc state
  | .fetchSecond pc, state => bus.fetchSecond pc state
  | .fetchByte pc offset, state => bus.fetchByte pc offset state
  | .fetchWord pc offset, state => bus.fetchWord pc offset state
  | .tapePatch regs, state => bus.tapePatch regs state

/-- A sequence of machine cycles with a result. -/
inductive Microcode (α : Type) where
  | done (value : α)
  | step (cycle : Cycle) (next : cycle.Answer → Microcode α)

namespace Microcode

variable {α β σ : Type}

def bind : Microcode α → (α → Microcode β) → Microcode β
  | .done value, next => next value
  | .step cycle rest, next =>
      .step cycle fun answer => (rest answer).bind next

instance : Monad Microcode where
  pure := .done
  bind := bind

instance : LawfulMonad Microcode :=
  LawfulMonad.mk' Microcode
    (by
      intro α code
      induction code with
      | done value => rfl
      | step cycle next inductionHypothesis =>
          exact congrArg (step cycle) (funext inductionHypothesis))
    (by
      intro α β value next
      rfl)
    (by
      intro α β γ code next last
      induction code with
      | done value => rfl
      | step cycle rest inductionHypothesis =>
          exact congrArg (step cycle) (funext inductionHypothesis))

def run (bus : Bus σ) : Microcode α → σ → α × σ
  | .done value, state => (value, state)
  | .step cycle next, state =>
      let (answer, state) := cycle.perform bus state
      (next answer).run bus state

@[simp]
theorem run_pure (bus : Bus σ) (value : α) (state : σ) :
    run bus (pure value) state = (value, state) :=
  rfl

@[simp]
theorem run_bind (bus : Bus σ) (code : Microcode α) (next : α → Microcode β)
    (state : σ) :
    run bus (code >>= next) state =
      run bus (next (run bus code state).1) (run bus code state).2 := by
  induction code generalizing state with
  | done value => rfl
  | step cycle rest inductionHypothesis =>
      exact inductionHypothesis _ _

/-! ## Single cycles -/

/-- The microcode of a single cycle, whose result is the answer. -/
def ofCycle (cycle : Cycle) : Microcode cycle.Answer :=
  .step cycle .done

@[simp]
theorem run_ofCycle (bus : Bus σ) (cycle : Cycle) (state : σ) :
    run bus (ofCycle cycle) state = cycle.perform bus state :=
  rfl

def internal (cycles : Nat) : Microcode Unit :=
  ofCycle (.internal cycles)

def readMemory (address : UInt16) : Microcode UInt8 :=
  ofCycle (.readMemory address)

def writeMemory (address : UInt16) (byte : UInt8) : Microcode Unit :=
  ofCycle (.writeMemory address byte)

def readWord (address : UInt16) : Microcode UInt16 :=
  ofCycle (.readWord address)

def writeWord (address word : UInt16) : Microcode Unit :=
  ofCycle (.writeWord address word)

def input (port : UInt16) : Microcode UInt8 :=
  ofCycle (.input port)

def output (port : UInt16) (byte : UInt8) : Microcode Unit :=
  ofCycle (.output port byte)

def fetchFirst (pc : UInt16) : Microcode UInt8 :=
  ofCycle (.fetchFirst pc)

def fetchSecond (pc : UInt16) : Microcode UInt8 :=
  ofCycle (.fetchSecond pc)

def fetchByte (pc offset : UInt16) : Microcode UInt8 :=
  ofCycle (.fetchByte pc offset)

def fetchWord (pc offset : UInt16) : Microcode UInt16 :=
  ofCycle (.fetchWord pc offset)

def tapePatch (regs : Registers) : Microcode Registers :=
  ofCycle (.tapePatch regs)

end Microcode

end Z80
