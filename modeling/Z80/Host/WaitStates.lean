import Z80.Bus

/-!
# A wait state profile

Costs that are different for every kind of access, so that the cycle count
alone tells which accesses an instruction made.
-/

namespace Z80

def Access.distinctCost : Access → Nat
  | .readMemory _ => 5
  | .writeMemory _ => 6
  | .readWord _ => 11
  | .writeWord _ => 13
  | .input _ => 17
  | .output _ => 19
  | .fetchFirst _ => 7
  | .fetchSecond _ => 8
  | .fetchByte _ _ => 4
  | .fetchWord _ _ => 9

end Z80
