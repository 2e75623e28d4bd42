import Z80.Host.Flat
import Z80.Host.Lift

/-!
# The scheduled host

A flat host that raises interrupts when their time has come, counts the
interrupts that are accepted, and patches the registers when asked to.
-/

namespace Z80

/-- Interrupts to be raised once a number of cycles has passed. -/
structure Alarm where
  left : Nat
  requests : Requests
  deriving DecidableEq

structure Scheduled where
  flat : Flat
  /-- The alarms that have not gone off, in the order they were set. -/
  alarms : List Alarm
  /-- The interrupts raised since the processor last asked. -/
  raised : Requests
  /-- The number of interrupts that were accepted. -/
  accepted : Nat
  /-- The number of times the registers were patched. -/
  traps : Nat
  /-- What a patch does to the registers. -/
  patch : Registers → Registers

namespace Scheduled

def ofFlat (flat : Flat) : Scheduled where
  flat := flat
  alarms := []
  raised := .none
  accepted := 0
  traps := 0
  patch := id

def schedule (scheduled : Scheduled) (alarm : Alarm) : Scheduled :=
  { scheduled with alarms := scheduled.alarms ++ [alarm] }

def onFlat : Zoom Flat Scheduled :=
  fun action ⟨flat, alarms, raised, accepted, traps, patch⟩ =>
    let (answer, flat) := action flat
    (answer, ⟨flat, alarms, raised, accepted, traps, patch⟩)

/-- The alarms still left after some cycles. -/
def remaining (cycles : Nat) (alarms : List Alarm) : List Alarm :=
  alarms.filterMap fun alarm =>
    if alarm.left ≤ cycles then none
    else some { alarm with left := alarm.left - cycles }

/-- The interrupts of the alarms that go off within some cycles. -/
def due (cycles : Nat) (alarms : List Alarm) : Requests :=
  alarms.foldl
    (fun requests alarm =>
      if alarm.left ≤ cycles then requests.union alarm.requests else requests)
    .none

/-- Let cycles pass, raising the interrupts whose time has come. -/
def advance (cycles : Nat) (scheduled : Scheduled) : Scheduled :=
  let scheduled := Zoom.modify onFlat (·.addCycles cycles) scheduled
  { scheduled with
    raised := scheduled.raised.union (due cycles scheduled.alarms)
    alarms := remaining cycles scheduled.alarms }

/-- The raised interrupts, which are then taken back. -/
def takeRequests (scheduled : Scheduled) : Requests × Scheduled :=
  (scheduled.raised, { scheduled with raised := .none })

def host : Host Scheduled :=
  { Flat.host.lift onFlat with
    advance := advance
    requests := takeRequests
    acknowledge := fun scheduled =>
      { scheduled with accepted := scheduled.accepted + 1 }
    tapePatch := fun regs scheduled =>
      (scheduled.patch regs, { scheduled with traps := scheduled.traps + 1 }) }

/-- The flat host inside, on which nothing happens that is scheduled. -/
def flatHost : Host Scheduled :=
  Flat.host.lift onFlat

end Scheduled

end Z80
