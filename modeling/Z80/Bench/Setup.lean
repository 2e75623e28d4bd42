import Z80.Host.Flat
import Z80.Registers.Named

/-!
# Setting up a bench

What memory, ports and registers hold before anything runs.
-/

namespace Z80.Bench

structure Setup where
  model : Model
  /-- The seed of the noise that fills the memory, or none for zeros. -/
  noise : Option Nat
  /-- Blocks of bytes and where they go, in order. -/
  blocks : List (UInt16 × List UInt8)
  /-- Ports and what they answer, in order. -/
  ports : List (UInt16 × UInt8)
  /-- The change from the reset state of the registers. -/
  registers : Registers → Registers

namespace Setup

def flat (setup : Setup) : Flat :=
  let filled :=
    match setup.noise with
    | some seed => { Flat.new with ram := .noise seed }
    | none => Flat.new
  let loaded :=
    setup.blocks.foldl (fun flat block => flat.load block.1 block.2) filled
  setup.ports.foldl (fun flat port => flat.setPort port.1 port.2) loaded

def cpu (setup : Setup) : Cpu :=
  let cpu := Cpu.new setup.model
  { cpu with regs := setup.registers cpu.regs }

end Setup

end Z80.Bench
