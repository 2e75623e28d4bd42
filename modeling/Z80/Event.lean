import Z80.Snapshot.Layout

/-!
# Diagnostic events

What a processor tells its host besides the bus accesses it makes: resets,
interrupts it takes, and the fate of snapshots.
-/

namespace Z80

/-- How much attention an event asks for. -/
inductive Severity where
  | trace
  | debug
  | warn
  deriving DecidableEq

def Severity.text : Severity → String
  | .trace => "TRACE"
  | .debug => "DEBUG"
  | .warn => "WARN"

/-- Something worth a line in a log. -/
inductive Event where
  | reset
  | jumped (source target : UInt16)
  | nonMaskable (pc : UInt16)
  /-- A mode 0 interrupt was acknowledged and has no further effect. -/
  | modeZero (pc : UInt16)
  | modeOne (pc : UInt16)
  | modeTwo (pc vector : UInt16)
  | snapshotSaved (size : Nat) (version : Snapshot.Version)
  | snapshotLoaded (size : Nat)
  | snapshotRejected (error : Snapshot.Error)
  deriving DecidableEq

namespace Event

def severity : Event → Severity
  | .reset | .jumped _ _ | .nonMaskable _ => .debug
  | .modeZero _ | .modeOne _ | .modeTwo _ _ => .trace
  | .snapshotSaved _ _ | .snapshotLoaded _ => .debug
  | .snapshotRejected _ => .warn

def message : Event → String
  | .reset => "Z80 reset"
  | .jumped source target =>
      "PC override " ++ Hex.text 4 source.toNat ++ " -> " ++
        Hex.text 4 target.toNat
  | .nonMaskable pc => "NMI at PC=" ++ Hex.text 4 pc.toNat
  | .modeZero pc =>
      "IM 0 interrupt at PC=" ++ Hex.text 4 pc.toNat ++ " ignored"
  | .modeOne pc => "IM 1 interrupt at PC=" ++ Hex.text 4 pc.toNat
  | .modeTwo pc vector =>
      "IM 2 interrupt at PC=" ++ Hex.text 4 pc.toNat ++ ", vector " ++
        Hex.text 4 vector.toNat
  | .snapshotSaved size version =>
      s!"Z80 snapshot saved ({size} bytes, version " ++
        Hex.literal 8 version.tag.toNat ++ ")"
  | .snapshotLoaded size => s!"Z80 snapshot loaded ({size} bytes)"
  | .snapshotRejected error => "Z80 snapshot rejected: " ++ error.message

def line (event : Event) : String :=
  event.severity.text ++ " " ++ event.message

end Event

end Z80
