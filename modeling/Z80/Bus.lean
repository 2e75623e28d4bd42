import Z80.Event
import Z80.Operand

/-!
# The bus

A processor owns no memory and no clock.  Everything outside it is a state `σ`
and a `Bus σ`, a record of the operations that the processor may perform on
that state.  A `Host σ` gives the untimed operations; a bus adds the timed
accesses, which by default charge the cycles of a processor without wait
states.
-/

namespace Z80

/-- The interrupts that a host raised since it was last asked. -/
structure Requests where
  interrupt : Bool
  nonMaskable : Bool
  deriving DecidableEq

namespace Requests

def none : Requests :=
  ⟨false, false⟩

/-- The request bits of a byte: bit 0 is the maskable interrupt, bit 1 the
non-maskable one. -/
def ofBits (bits : UInt8) : Requests where
  interrupt := Byte.testBit bits 0
  nonMaskable := Byte.testBit bits 1

def bits (requests : Requests) : UInt8 :=
  UInt8.ofNat (requests.interrupt.toNat + 2 * requests.nonMaskable.toNat)

def union (left right : Requests) : Requests where
  interrupt := left.interrupt || right.interrupt
  nonMaskable := left.nonMaskable || right.nonMaskable

end Requests

/-- The untimed operations of a host. -/
structure Host (σ : Type) where
  read : UInt16 → σ → UInt8 × σ
  write : UInt16 → UInt8 → σ → σ
  readPort : UInt16 → σ → UInt8 × σ
  writePort : UInt16 → UInt8 → σ → σ
  /-- Let a number of cycles pass. -/
  advance : Nat → σ → σ
  /-- Take the interrupts raised since the last call. -/
  requests : σ → Requests × σ := fun state => (.none, state)
  /-- Notice that a maskable interrupt was accepted. -/
  acknowledge : σ → σ := fun state => state
  /-- Change the registers on behalf of a patched program. -/
  tapePatch : Registers → σ → Registers × σ := fun regs state => (regs, state)
  /-- Notice a diagnostic event. -/
  report : Event → σ → σ := fun _ state => state

/-- A host with timed accesses.  Each default charges the cycles of the access
and then makes the untimed accesses; words are accessed low byte first. -/
structure Bus (σ : Type) extends Host σ where
  readMemory : UInt16 → σ → UInt8 × σ :=
    fun address state => read address (advance 3 state)
  writeMemory : UInt16 → UInt8 → σ → σ :=
    fun address byte state => write address byte (advance 3 state)
  readWord : UInt16 → σ → UInt16 × σ :=
    fun address state =>
      let (low, state) := readMemory address state
      let (high, state) := readMemory (address + 1) state
      (Word.ofBytes high low, state)
  writeWord : UInt16 → UInt16 → σ → σ :=
    fun address word state =>
      writeMemory (address + 1) (Word.high word)
        (writeMemory address (Word.low word) state)
  input : UInt16 → σ → UInt8 × σ :=
    fun port state => readPort port (advance 4 state)
  output : UInt16 → UInt8 → σ → σ :=
    fun port byte state => writePort port byte (advance 4 state)
  /-- Fetch the first byte of an instruction, at the program counter. -/
  fetchFirst : UInt16 → σ → UInt8 × σ :=
    fun pc state => readMemory pc (advance 1 state)
  /-- Fetch the second opcode byte, after the program counter. -/
  fetchSecond : UInt16 → σ → UInt8 × σ :=
    fun pc state => readMemory (pc + 1) (advance 1 state)
  /-- Fetch an operand byte at an offset from the program counter. -/
  fetchByte : UInt16 → UInt16 → σ → UInt8 × σ :=
    fun pc offset state => readMemory (pc + offset) state
  /-- Fetch an operand word at an offset from the program counter. -/
  fetchWord : UInt16 → UInt16 → σ → UInt16 × σ :=
    fun pc offset state => readWord (pc + offset) state

/-- The bus without wait states on a host. -/
def Host.bus {σ : Type} (host : Host σ) : Bus σ :=
  { toHost := host }

/-! ## Wait states -/

/-- A timed access, by its kind and place. -/
inductive Access where
  | readMemory (address : UInt16)
  | writeMemory (address : UInt16)
  | readWord (address : UInt16)
  | writeWord (address : UInt16)
  | input (port : UInt16)
  | output (port : UInt16)
  | fetchFirst (pc : UInt16)
  | fetchSecond (pc : UInt16)
  | fetchByte (pc offset : UInt16)
  | fetchWord (pc offset : UInt16)
  deriving DecidableEq

namespace Host

variable {σ : Type}

/-- Two untimed reads, low byte first. -/
def readPair (host : Host σ) (address : UInt16) (state : σ) : UInt16 × σ :=
  let (low, state) := host.read address state
  let (high, state) := host.read (address + 1) state
  (Word.ofBytes high low, state)

/-- Two untimed writes, low byte first. -/
def writePair (host : Host σ) (address word : UInt16) (state : σ) : σ :=
  host.write (address + 1) (Word.high word)
    (host.write address (Word.low word) state)

/-- The bus on a host where every access has a cost of its own.  Each access
is first announced, then charged, and then made by untimed accesses. -/
def waitingBus (host : Host σ) (cost : Access → Nat)
    (announce : Access → σ → σ) : Bus σ :=
  let charge := fun access state => host.advance (cost access) (announce access state)
  { toHost := host
    readMemory := fun address state =>
      host.read address (charge (.readMemory address) state)
    writeMemory := fun address byte state =>
      host.write address byte (charge (.writeMemory address) state)
    readWord := fun address state =>
      host.readPair address (charge (.readWord address) state)
    writeWord := fun address word state =>
      host.writePair address word (charge (.writeWord address) state)
    input := fun port state =>
      host.readPort port (charge (.input port) state)
    output := fun port byte state =>
      host.writePort port byte (charge (.output port) state)
    fetchFirst := fun pc state =>
      host.read pc (charge (.fetchFirst pc) state)
    fetchSecond := fun pc state =>
      host.read (pc + 1) (charge (.fetchSecond pc) state)
    fetchByte := fun pc offset state =>
      host.read (pc + offset) (charge (.fetchByte pc offset) state)
    fetchWord := fun pc offset state =>
      host.readPair (pc + offset) (charge (.fetchWord pc offset) state) }

end Host

end Z80
