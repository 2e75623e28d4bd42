import Z80.Host.Lift
import Z80.Microcode

/-!
# The tracing bus

Any bus, with a record of every machine cycle that was asked of it and of the
answer, and of the events that were reported to it.
-/

namespace Z80

/-- A machine cycle that a bus has performed. -/
structure Transaction where
  cycle : Cycle
  answer : cycle.Answer

/-- A byte of an instruction that was fetched. -/
structure Fetch where
  address : UInt16
  byte : UInt8
  /-- Whether it was asked for as the first byte of an instruction. -/
  isFirst : Bool
  deriving DecidableEq

namespace Transaction

/-- The bytes that were fetched, low byte first. -/
def fetches : Transaction → List Fetch
  | ⟨.fetchFirst pc, byte⟩ => [⟨pc, byte, true⟩]
  | ⟨.fetchSecond pc, byte⟩ => [⟨pc + 1, byte, false⟩]
  | ⟨.fetchByte pc offset, byte⟩ => [⟨pc + offset, byte, false⟩]
  | ⟨.fetchWord pc offset, word⟩ =>
      [⟨pc + offset, Word.low word, false⟩,
        ⟨pc + offset + 1, Word.high word, false⟩]
  | _ => []

/-- The bytes that were stored, low byte first. -/
def stores : Transaction → List (UInt16 × UInt8)
  | ⟨.writeMemory address byte, _⟩ => [(address, byte)]
  | ⟨.writeWord address word, _⟩ =>
      [(address, Word.low word), (address + 1, Word.high word)]
  | _ => []

end Transaction

structure Traced (σ : Type) where
  inner : σ
  /-- The machine cycles so far, oldest first. -/
  trace : List Transaction
  /-- The reported events, oldest first. -/
  events : List Event

namespace Traced

variable {σ : Type}

def start (inner : σ) : Traced σ :=
  ⟨inner, [], []⟩

def onInner : Zoom σ (Traced σ) :=
  fun action traced =>
    let (answer, inner) := action traced.inner
    (answer, { traced with inner := inner })

/-- Perform a machine cycle and record it. -/
def record (bus : Bus σ) (cycle : Cycle) (traced : Traced σ) :
    cycle.Answer × Traced σ :=
  let (answer, inner) := cycle.perform bus traced.inner
  (answer,
    { traced with
      inner := inner
      trace := traced.trace ++ [⟨cycle, answer⟩] })

/-- The bus that records machine cycles and events and otherwise is the one
inside. -/
def bus (bus : Bus σ) : Bus (Traced σ) :=
  { bus.lift onInner with
    readMemory := fun address => record bus (.readMemory address)
    writeMemory := fun address byte traced =>
      (record bus (.writeMemory address byte) traced).2
    readWord := fun address => record bus (.readWord address)
    writeWord := fun address word traced =>
      (record bus (.writeWord address word) traced).2
    input := fun port => record bus (.input port)
    output := fun port byte traced =>
      (record bus (.output port byte) traced).2
    fetchFirst := fun pc => record bus (.fetchFirst pc)
    fetchSecond := fun pc => record bus (.fetchSecond pc)
    fetchByte := fun pc offset => record bus (.fetchByte pc offset)
    fetchWord := fun pc offset => record bus (.fetchWord pc offset)
    tapePatch := fun regs => record bus (.tapePatch regs)
    advance := fun cycles traced => (record bus (.internal cycles) traced).2
    report := fun event traced =>
      { traced with
        inner := bus.report event traced.inner
        events := traced.events ++ [event] } }

end Traced

end Z80
