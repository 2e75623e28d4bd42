import Z80.Bench.Setup
import Z80.Cpu.Step

/-!
# Sweeps

A sweep runs the same code for many values of one input, each time from the
same set-up, and shows the same properties after each run.
-/

namespace Z80.Bench

/-- The input that a sweep varies. -/
inductive Varied where
  | memory (address : UInt16)
  | port (port : UInt16)
  | register (slot : Slot)

/-- What a sweep shows after each run. -/
inductive Shown where
  | cycles
  | property (read : Cpu → Value)
  | memory (address : UInt16)

structure Machine where
  cpu : Cpu
  flat : Flat

structure Sweep where
  setup : Setup
  code : List UInt8
  /-- Where the code is loaded and started. -/
  origin : UInt16
  varied : Varied
  /-- The number of instructions of each run. -/
  count : Nat
  shown : List Shown

namespace Sweep

def prepared (sweep : Sweep) : Machine where
  cpu := { sweep.setup.cpu with regs.pc := sweep.origin }
  flat := sweep.setup.flat.load sweep.origin sweep.code

/-- The change that gives the input a value, if the value fits. -/
def vary? (varied : Varied) (value : Nat) : Option (Machine → Machine) :=
  match varied with
  | .memory address =>
      if value < 256 then
        some fun ⟨cpu, flat⟩ => ⟨cpu, flat.poke address (UInt8.ofNat value)⟩
      else none
  | .port port =>
      if value < 256 then
        some fun ⟨cpu, flat⟩ => ⟨cpu, flat.setPort port (UInt8.ofNat value)⟩
      else none
  | .register slot =>
      (slot.setter? value).map fun set machine =>
        { machine with cpu.regs := set machine.cpu.regs }

def display (machine : Machine) : Shown → Value
  | .cycles => .count (.ofNat machine.flat.cycles)
  | .property read => read machine.cpu
  | .memory address => .byte (machine.flat.peek address)

def measure? (sweep : Sweep) (prepared : Machine) (value : Nat) :
    Option (List Value) := do
  let change ← vary? sweep.varied value
  let ⟨cpu, flat⟩ := change prepared
  let (cpu, flat) := cpu.run Flat.bus sweep.count flat
  return sweep.shown.map (Sweep.display ⟨cpu, flat⟩)

def run? (sweep : Sweep) (values : List Nat) : Option (List (List Value)) :=
  let prepared := sweep.prepared
  values.mapM (sweep.measure? prepared)

end Sweep

end Z80.Bench
