/-!
# Processor models

The two kinds of silicon and what tells them apart.
-/

namespace Z80

inductive Model where
  | nmos
  | cmos
  deriving DecidableEq

namespace Model

/-- The model of a processor when nothing else is said. -/
def standard : Model :=
  .nmos

/-- The byte that the undocumented write of no register puts on the bus. -/
def outputZero : Model → UInt8
  | .nmos => 0x00
  | .cmos => 0xFF

/-- Whether an interrupt during `LD A,I` or `LD A,R` clears the parity bit. -/
def losesParity : Model → Bool
  | .nmos => true
  | .cmos => false

theorem losesParity_iff (model : Model) :
    model.losesParity = true ↔ model = .nmos := by
  cases model <;> simp [losesParity]

def ofName? (name : String) : Option Model :=
  if name == "nmos" then some .nmos
  else if name == "cmos" then some .cmos
  else none

end Model

end Z80
