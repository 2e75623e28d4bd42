import Z80.Host.Lift

/-!
# The counting bus

Any bus, with a count of the maskable interrupts that were accepted on it.
-/

namespace Z80

structure Counted (σ : Type) where
  inner : σ
  /-- The number of interrupts that were accepted. -/
  accepted : Nat

namespace Counted

variable {σ : Type}

def start (inner : σ) : Counted σ :=
  ⟨inner, 0⟩

def onInner : Zoom σ (Counted σ) :=
  fun action ⟨inner, accepted⟩ =>
    let (answer, inner) := action inner
    (answer, ⟨inner, accepted⟩)

/-- The bus that counts acknowledgements and otherwise is the one inside. -/
def bus (bus : Bus σ) : Bus (Counted σ) :=
  { bus.lift onInner with
    acknowledge := fun ⟨inner, accepted⟩ =>
      ⟨bus.acknowledge inner, accepted + 1⟩ }

end Counted

end Z80
