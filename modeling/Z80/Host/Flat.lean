import Z80.Bus
import Z80.Inspect
import Z80.Memory

/-!
# The flat host

A host with nothing but memory, ports that answer with set values, a record of
the bytes written to ports, and a count of cycles.  It raises no interrupts.
-/

namespace Z80

structure Flat where
  ram : Memory
  ports : UInt16 → UInt8
  /-- Every write to a port, oldest first. -/
  writes : Array (UInt16 × UInt8)
  /-- The cycles that passed since the count was last taken. -/
  cycles : Nat

namespace Flat

def new : Flat where
  ram := .zero
  ports := fun _ => 0xFF
  writes := #[]
  cycles := 0

def load (flat : Flat) (address : UInt16) (data : List UInt8) : Flat :=
  { flat with ram := flat.ram.load address data }

def peek (flat : Flat) (address : UInt16) : UInt8 :=
  flat.ram.get address

def peekWord (flat : Flat) (address : UInt16) : UInt16 :=
  flat.ram.getWord address

def poke (flat : Flat) (address : UInt16) (byte : UInt8) : Flat :=
  { flat with ram := flat.ram.set address byte }

def setPort (flat : Flat) (port : UInt16) (byte : UInt8) : Flat :=
  let ports := flat.ports
  { flat with ports := fun asked => if asked = port then byte else ports asked }

def writePort (flat : Flat) (port : UInt16) (byte : UInt8) : Flat :=
  { flat with writes := flat.writes.push (port, byte) }

def addCycles (flat : Flat) (cycles : Nat) : Flat :=
  { flat with cycles := flat.cycles + cycles }

/-- The count of cycles, which then starts from zero again. -/
def takeCycles (flat : Flat) : Nat × Flat :=
  (flat.cycles, { flat with cycles := 0 })

def host : Host Flat where
  read := fun address flat => (flat.peek address, flat)
  write := fun address byte flat => flat.poke address byte
  readPort := fun port flat => (flat.ports port, flat)
  writePort := fun port byte flat => flat.writePort port byte
  advance := fun cycles flat => flat.addCycles cycles

/-- The flat host without wait states. -/
def bus : Bus Flat :=
  host.bus

end Flat

instance : Inspectable Flat where
  properties :=
    [("cycles", fun flat => .count (.ofNat flat.cycles)),
      ("port_writes", fun flat => .count (.ofNat flat.writes.size))]

end Z80
