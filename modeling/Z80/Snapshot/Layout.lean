import Z80.Hex

/-!
# Snapshot layouts

A snapshot starts with a tag that names its layout.  Later layouts added the
pending jump and dropped a byte that was never used.
-/

namespace Z80.Snapshot

inductive Version where
  /-- The first layout, without the pending jump. -/
  | v0
  /-- The layout that added the pending jump. -/
  | v1
  /-- The layout that dropped the scratch byte. -/
  | v2
  deriving DecidableEq

namespace Version

/-- The layout that new snapshots use. -/
def current : Version :=
  .v2

def all : List Version :=
  [.v0, .v1, .v2]

/-- The number at the start of a snapshot. -/
def tag : Version → UInt32
  | .v0 => 0x01000000
  | .v1 => 0x01000001
  | .v2 => 0x01000002

def ofTag? (tag : UInt32) : Option Version :=
  all.find? fun version => version.tag == tag

def name : Version → String
  | .v0 => "V0"
  | .v1 => "V1"
  | .v2 => "V2"

def ofName? (name : String) : Option Version :=
  all.find? fun version => version.name == name

def hasScratchByte : Version → Bool
  | .v0 | .v1 => true
  | .v2 => false

def hasPendingPc : Version → Bool
  | .v0 => false
  | .v1 | .v2 => true

/-- The number of bytes of a snapshot, its tag included. -/
def encodedLength (version : Version) : Nat :=
  43 + version.hasScratchByte.toNat + 4 * version.hasPendingPc.toNat

end Version

inductive Error where
  | unsupportedVersion (tag : UInt32)
  | truncated (expected actual : Nat)
  | trailingBytes (expected actual : Nat)
  deriving DecidableEq

def Error.message : Error → String
  | .unsupportedVersion tag =>
      "unsupported Z80 snapshot version " ++ Hex.literal 8 tag.toNat
  | .truncated expected actual =>
      s!"truncated Z80 snapshot: {actual} bytes (expected {expected})"
  | .trailingBytes expected actual =>
      s!"Z80 snapshot too long: {actual} bytes (expected {expected})"

end Z80.Snapshot
