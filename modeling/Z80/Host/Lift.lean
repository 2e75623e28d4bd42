import Z80.Bus

/-!
# Hosts inside larger states

A host on part of a state is a host on the whole state.  A `Zoom` says where
the part is: it runs an action on the part and puts the rest back around it.
-/

namespace Z80

/-- A way to act on a part `σ` of a state `τ`. -/
abbrev Zoom (σ τ : Type) := {α : Type} → (σ → α × σ) → τ → α × τ

namespace Zoom

variable {σ τ : Type}

def modify (zoom : Zoom σ τ) (change : σ → σ) (whole : τ) : τ :=
  (zoom (fun part => ((), change part)) whole).2

end Zoom

/-- The host that acts on a part of a larger state. -/
def Host.lift {σ τ : Type} (host : Host σ) (zoom : Zoom σ τ) : Host τ where
  read := fun address => zoom (host.read address)
  write := fun address byte => Zoom.modify zoom (host.write address byte)
  readPort := fun port => zoom (host.readPort port)
  writePort := fun port byte => Zoom.modify zoom (host.writePort port byte)
  advance := fun cycles => Zoom.modify zoom (host.advance cycles)
  requests := zoom host.requests
  acknowledge := Zoom.modify zoom host.acknowledge
  tapePatch := fun regs => zoom (host.tapePatch regs)
  report := fun event => Zoom.modify zoom (host.report event)

/-- The bus that acts on a part of a larger state. -/
def Bus.lift {σ τ : Type} (bus : Bus σ) (zoom : Zoom σ τ) : Bus τ where
  toHost := bus.toHost.lift zoom
  readMemory := fun address => zoom (bus.readMemory address)
  writeMemory := fun address byte =>
    Zoom.modify zoom (bus.writeMemory address byte)
  readWord := fun address => zoom (bus.readWord address)
  writeWord := fun address word => Zoom.modify zoom (bus.writeWord address word)
  input := fun port => zoom (bus.input port)
  output := fun port byte => Zoom.modify zoom (bus.output port byte)
  fetchFirst := fun pc => zoom (bus.fetchFirst pc)
  fetchSecond := fun pc => zoom (bus.fetchSecond pc)
  fetchByte := fun pc offset => zoom (bus.fetchByte pc offset)
  fetchWord := fun pc offset => zoom (bus.fetchWord pc offset)

end Z80
