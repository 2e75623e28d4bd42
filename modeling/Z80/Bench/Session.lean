import Z80.Bench.Setup
import Z80.Cpu.Step
import Z80.Host.Recorded
import Z80.Host.Scheduled
import Z80.Host.WaitStates
import Z80.Snapshot

/-!
# Sessions

A session is a processor wired to a host and operated from outside.  Whatever
the processor does to the host can be traced, and every event is logged.
-/

namespace Z80.Bench

/-- How the processor is wired to its host. -/
inductive Wiring where
  /-- To the flat host, without interrupts. -/
  | flat
  /-- To the scheduled host, without wait states. -/
  | direct
  /-- To the scheduled host, with a cost of its own for every access. -/
  | waiting
  deriving DecidableEq

/-- The host of a session and what was recorded on it. -/
abbrev World := Recorded Scheduled

namespace Wiring

/-- The bus of a wiring.  Calls are only recorded when the bus is traced. -/
def bus (wiring : Wiring) (traced : Bool) : Bus World :=
  match wiring with
  | .flat => (Recorded.eventHost Scheduled.flatHost).bus
  | .direct =>
      if traced then (Recorded.callHost Scheduled.host).bus
      else (Recorded.eventHost Scheduled.host).bus
  | .waiting =>
      if traced then
        (Recorded.callHost Scheduled.host).waitingBus Access.distinctCost
          fun access => Recorded.call (.access access)
      else
        (Recorded.eventHost Scheduled.host).waitingBus Access.distinctCost
          fun _ world => world

end Wiring

structure Session where
  bus : Bus World
  cpu : Cpu
  world : World

/-- What a session shows of itself: the processor, the counters, and the calls
since the last report. -/
structure Report where
  cpu : Cpu
  cycles : Nat
  accepted : Nat
  calls : List Call

namespace Session

/-- The session that a set-up starts. -/
def start (wiring : Wiring) (traced : Bool) (setup : Setup) : Session where
  bus := wiring.bus traced
  cpu := setup.cpu
  world := .start (.ofFlat setup.flat)

def onHost {α : Type} (session : Session) (action : Scheduled → α × Scheduled) :
    α × Session :=
  let ⟨bus, cpu, world⟩ := session
  let (answer, world) := Recorded.onInner action world
  (answer, ⟨bus, cpu, world⟩)

/-- Act on the flat host inside the scheduled host. -/
def onFlat {α : Type} (session : Session) (action : Flat → α × Flat) :
    α × Session :=
  session.onHost (Scheduled.onFlat action)

def changeHost (session : Session) (change : Scheduled → Scheduled) : Session :=
  (session.onHost fun host => ((), change host)).2

def changeFlat (session : Session) (change : Flat → Flat) : Session :=
  (session.onFlat fun flat => ((), change flat)).2

def changeCpu (session : Session) (change : Cpu → Cpu) : Session :=
  { session with cpu := change session.cpu }

def log (session : Session) (event : Event) : Session :=
  let ⟨bus, cpu, world⟩ := session
  ⟨bus, cpu, bus.report event world⟩

def flat (session : Session) : Flat :=
  session.world.inner.flat

def traps (session : Session) : Nat :=
  session.world.inner.traps

/-- The log of everything that happened so far. -/
def logLines (session : Session) : List String :=
  session.world.events.toList.map Event.line

/-- The state of a session.  The calls it shows are forgotten. -/
def report (session : Session) : Report × Session :=
  let ⟨bus, cpu, world⟩ := session
  let (calls, world) := world.takeCalls
  ({ cpu := cpu
     cycles := world.inner.flat.cycles
     accepted := world.inner.accepted
     calls := calls.toList },
    ⟨bus, cpu, world⟩)

/-! ## Running -/

def step (session : Session) : Session :=
  let ⟨bus, cpu, world⟩ := session
  let (cpu, world) := cpu.step bus world
  ⟨bus, cpu, world⟩

/-- Run a number of instructions, with a report after each. -/
def execute (session : Session) : Nat → List Report × Session
  | 0 => ([], session)
  | count + 1 =>
      let (first, session) := session.step.report
      let (others, session) := session.execute count
      (first :: others, session)

/-- Run until the processor is halted, but no more than `limit`
instructions. -/
def runUntilHalt (session : Session) (limit : Nat) : Nat × Session :=
  let ⟨bus, cpu, world⟩ := session
  let (count, cpu, world) := cpu.runUntilHalt bus limit world
  (count, ⟨bus, cpu, world⟩)

def reset (session : Session) : Session :=
  (session.changeCpu Cpu.reset).log .reset

/-! ## Snapshots -/

def save (session : Session) (version : Snapshot.Version) :
    List UInt8 × Session :=
  let data := Snapshot.encode version session.cpu
  (data, session.log (.snapshotSaved data.length version))

/-- Load a snapshot.  The processor is reset first. -/
def load (session : Session) (data : List UInt8) :
    Except Snapshot.Error Unit × Session :=
  let (result, cpu) := session.cpu.load data
  let event :=
    match result with
    | .ok () => Event.snapshotLoaded data.length
    | .error error => .snapshotRejected error
  (result, ((session.changeCpu fun _ => cpu).log .reset).log event)

/-- Take a snapshot and load it into a new processor. -/
def roundTrip (session : Session) (version : Snapshot.Version) (model : Model) :
    Except Snapshot.Error Unit × Session :=
  let (data, session) := session.save version
  ((session.changeCpu fun _ => .new model).log .reset).load data

end Session

end Z80.Bench
