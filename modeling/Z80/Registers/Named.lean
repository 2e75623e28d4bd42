import Z80.Registers

/-!
# Registers by name

Debuggers and test scripts name registers by text.  Each name stands for a
slot of the register file, which says how wide the register is and how to
store into it.
-/

namespace Z80

/-- A place in the register file that a number can be stored into. -/
inductive Slot where
  | word (store : UInt16 → Registers → Registers)
  | byte (store : UInt8 → Registers → Registers)
  | latch (store : Bool → Registers → Registers)

namespace Slot

/-- The change that stores a number into a slot.  There is none for a number
too wide for the slot; a latch is set by any number but zero. -/
def setter? : Slot → Nat → Option (Registers → Registers)
  | .word store, value =>
      if value < 65536 then some (store (UInt16.ofNat value)) else none
  | .byte store, value =>
      if value < 256 then some (store (UInt8.ofNat value)) else none
  | .latch store, value => some (store (value != 0))

end Slot

namespace Registers

def inAlternate (regs : Registers) (change : Bank → Bank) : Registers :=
  { regs with alternate := change regs.alternate }

/-- Every named slot.  Pairs come before the registers they are made of, so
that storing several values in this order lets the narrower name win. -/
def slots : List (String × Slot) :=
  [("af", .word fun word regs => regs.setAf word),
    ("bc", .word fun word regs => regs.setBc word),
    ("de", .word fun word regs => regs.setDe word),
    ("hl", .word fun word regs => regs.setHl word),
    ("af'", .word fun word regs => regs.inAlternate (·.setAf word)),
    ("bc'", .word fun word regs => regs.inAlternate (·.setBc word)),
    ("de'", .word fun word regs => regs.inAlternate (·.setDe word)),
    ("hl'", .word fun word regs => regs.inAlternate (·.setHl word)),
    ("ix", .word fun word regs => { regs with ix := word }),
    ("iy", .word fun word regs => { regs with iy := word }),
    ("sp", .word fun word regs => { regs with sp := word }),
    ("pc", .word fun word regs => { regs with pc := word }),
    ("a", .byte fun byte regs => { regs with a := byte }),
    ("f", .byte fun byte regs => { regs with f := .ofByte byte }),
    ("b", .byte fun byte regs => { regs with b := byte }),
    ("c", .byte fun byte regs => { regs with c := byte }),
    ("d", .byte fun byte regs => { regs with d := byte }),
    ("e", .byte fun byte regs => { regs with e := byte }),
    ("h", .byte fun byte regs => { regs with h := byte }),
    ("l", .byte fun byte regs => { regs with l := byte }),
    ("a'", .byte fun byte regs => regs.inAlternate ({ · with a := byte })),
    ("f'", .byte fun byte regs => regs.inAlternate ({ · with f := .ofByte byte })),
    ("b'", .byte fun byte regs => regs.inAlternate ({ · with b := byte })),
    ("c'", .byte fun byte regs => regs.inAlternate ({ · with c := byte })),
    ("d'", .byte fun byte regs => regs.inAlternate ({ · with d := byte })),
    ("e'", .byte fun byte regs => regs.inAlternate ({ · with e := byte })),
    ("h'", .byte fun byte regs => regs.inAlternate ({ · with h := byte })),
    ("l'", .byte fun byte regs => regs.inAlternate ({ · with l := byte })),
    ("i", .byte fun byte regs => { regs with i := byte }),
    ("r", .byte fun byte regs => { regs with r := byte }),
    ("im", .byte fun byte regs => { regs with im := byte }),
    ("vector_base", .byte fun byte regs => { regs with vectorBase := byte }),
    ("iff1", .latch fun value regs => { regs with iff1 := value }),
    ("iff2", .latch fun value regs => { regs with iff2 := value })]

/-- The change that stores a number under a register's name. -/
def setter? (name : String) (value : Nat) : Option (Registers → Registers) := do
  (← slots.lookup name).setter? value

/-- The change that stores every value of a list of named values, in the order
of `slots`.  There is none when a name is unknown or a value too wide. -/
def setters? (values : List (String × Nat)) : Option (Registers → Registers) := do
  guard (values.all fun entry => (slots.lookup entry.1).isSome)
  slots.foldlM
    (fun change slot =>
      match values.lookup slot.1 with
      | none => some change
      | some value => (slot.2.setter? value).map fun set => set ∘ change)
    id

end Registers

end Z80
