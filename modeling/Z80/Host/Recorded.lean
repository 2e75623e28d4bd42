import Z80.Host.Lift

/-!
# The recorded host

A host that keeps a record of the calls made to it and of the events it
noticed.  Apart from the record it does what the host inside does.
-/

namespace Z80

/-- A call to a host, with the answer it gave, or a timed access that was
announced. -/
inductive Call where
  | advance (cycles : Nat)
  | read (address : UInt16) (byte : UInt8)
  | write (address : UInt16) (byte : UInt8)
  | readPort (port : UInt16) (byte : UInt8)
  | writePort (port : UInt16) (byte : UInt8)
  | requests
  | acknowledge
  | tapePatch
  | access (timed : Access)
  deriving DecidableEq

def Access.text : Access → String
  | .readMemory address => "RD" ++ Hex.text 4 address.toNat
  | .writeMemory address => "WR" ++ Hex.text 4 address.toNat
  | .readWord address => "RW" ++ Hex.text 4 address.toNat
  | .writeWord address => "WW" ++ Hex.text 4 address.toNat
  | .input port => "IN" ++ Hex.text 4 port.toNat
  | .output port => "OUT" ++ Hex.text 4 port.toNat
  | .fetchFirst pc => "M1" ++ Hex.text 4 pc.toNat
  | .fetchSecond pc => "M2" ++ Hex.text 4 pc.toNat
  | .fetchByte pc offset =>
      "OB" ++ Hex.text 4 pc.toNat ++ "+" ++ toString offset.toNat
  | .fetchWord pc offset =>
      "OW" ++ Hex.text 4 pc.toNat ++ "+" ++ toString offset.toNat

namespace Call

/-- A place and the byte that went there or came from there. -/
def transfer (name : String) (place : UInt16) (byte : UInt8) : String :=
  name ++ Hex.text 4 place.toNat ++ "=" ++ Hex.text 2 byte.toNat

def text : Call → String
  | .advance cycles => "c" ++ toString cycles
  | .read address byte => transfer "r" address byte
  | .write address byte => transfer "w" address byte
  | .readPort port byte => transfer "i" port byte
  | .writePort port byte => transfer "o" port byte
  | .requests => "q"
  | .acknowledge => "k"
  | .tapePatch => "t"
  | .access timed => timed.text

end Call

/-- A state with a record of what happened to it, oldest first. -/
structure Recorded (σ : Type) where
  inner : σ
  calls : Array Call
  events : Array Event

namespace Recorded

variable {σ : Type}

def start (inner : σ) : Recorded σ :=
  ⟨inner, #[], #[]⟩

def onInner : Zoom σ (Recorded σ) :=
  fun action ⟨inner, calls, events⟩ =>
    let (answer, inner) := action inner
    (answer, ⟨inner, calls, events⟩)

def call (call : Call) (recorded : Recorded σ) : Recorded σ :=
  { recorded with calls := recorded.calls.push call }

def event (event : Event) (recorded : Recorded σ) : Recorded σ :=
  { recorded with events := recorded.events.push event }

/-- The recorded calls, which are then forgotten. -/
def takeCalls (recorded : Recorded σ) : Array Call × Recorded σ :=
  (recorded.calls, { recorded with calls := #[] })

/-- The host that records events alone. -/
def eventHost (host : Host σ) : Host (Recorded σ) :=
  { host.lift onInner with
    report := fun noticed recorded =>
      (Zoom.modify onInner (host.report noticed) recorded).event noticed }

/-- The host that records events and calls. -/
def callHost (host : Host σ) : Host (Recorded σ) :=
  let quiet := eventHost host
  { quiet with
    read := fun address recorded =>
      let (byte, recorded) := quiet.read address recorded
      (byte, recorded.call (.read address byte))
    write := fun address byte recorded =>
      (quiet.write address byte recorded).call (.write address byte)
    readPort := fun port recorded =>
      let (byte, recorded) := quiet.readPort port recorded
      (byte, recorded.call (.readPort port byte))
    writePort := fun port byte recorded =>
      (quiet.writePort port byte recorded).call (.writePort port byte)
    advance := fun cycles recorded =>
      (quiet.advance cycles recorded).call (.advance cycles)
    requests := fun recorded =>
      let (requests, recorded) := quiet.requests recorded
      (requests, recorded.call .requests)
    acknowledge := fun recorded => (quiet.acknowledge recorded).call .acknowledge
    tapePatch := fun regs recorded =>
      let (patched, recorded) := quiet.tapePatch regs recorded
      (patched, recorded.call .tapePatch) }

end Recorded

end Z80
