import Z80.Word

/-!
# Memory

The address space of 64 KiB.  Main statements: a byte that was written is read
back, the others stay as they were, and memories that agree at every address
are equal.
-/

namespace Z80

structure Memory where
  bytes : ByteArray
  size_eq : bytes.size = 65536

namespace Memory

private theorem size_byteArray_set (bytes : ByteArray) (index : Nat)
    (byte : UInt8) (bound : index < bytes.size) :
    (bytes.set index byte bound).size = bytes.size :=
  Array.size_set bound

def zero : Memory where
  bytes := ⟨Array.replicate 65536 0⟩
  size_eq := Array.size_replicate

theorem toNat_lt_size (memory : Memory) (address : UInt16) :
    address.toNat < memory.bytes.size := by
  rw [memory.size_eq]
  exact address.toNat_lt

def get (memory : Memory) (address : UInt16) : UInt8 :=
  memory.bytes.get address.toNat (memory.toNat_lt_size address)

def set (memory : Memory) (address : UInt16) (byte : UInt8) : Memory where
  bytes := memory.bytes.set address.toNat byte (memory.toNat_lt_size address)
  size_eq := by rw [size_byteArray_set, memory.size_eq]

/-- Read a word, low byte first. -/
def getWord (memory : Memory) (address : UInt16) : UInt16 :=
  Word.ofBytes (memory.get (address + 1)) (memory.get address)

/-- Write bytes at consecutive addresses, wrapping at the top. -/
def load (memory : Memory) (address : UInt16) : List UInt8 → Memory
  | [] => memory
  | byte :: rest => (memory.set address byte).load (address + 1) rest

/-- The bytes at consecutive addresses, wrapping at the top. -/
def slice (memory : Memory) (address : UInt16) : Nat → List UInt8
  | 0 => []
  | count + 1 => memory.get address :: memory.slice (address + 1) count

theorem get_set (memory : Memory) (address other : UInt16) (byte : UInt8) :
    (memory.set address byte).get other =
      if address = other then byte else memory.get other := by
  by_cases same : address = other
  · subst other
    simp only [if_pos]
    exact Array.getElem_set_self (memory.toNat_lt_size address)
  · rw [if_neg same]
    have different : address.toNat ≠ other.toNat := fun equal =>
      same (UInt16.toNat_inj.mp equal)
    exact Array.getElem_set_ne (memory.toNat_lt_size address)
      (memory.toNat_lt_size other) different

@[simp]
theorem get_set_self (memory : Memory) (address : UInt16) (byte : UInt8) :
    (memory.set address byte).get address = byte := by
  simp [get_set]

theorem get_set_of_ne (memory : Memory) {address other : UInt16} (byte : UInt8)
    (different : address ≠ other) :
    (memory.set address byte).get other = memory.get other := by
  simp [get_set, different]

theorem ext {left right : Memory}
    (agree : ∀ address, left.get address = right.get address) :
    left = right := by
  have same : left.bytes.data = right.bytes.data := by
    apply Array.ext
    · exact left.size_eq.trans right.size_eq.symm
    · intro index leftBound rightBound
      have bound : index < 65536 := left.size_eq ▸ leftBound
      obtain ⟨address, rfl⟩ : ∃ address : UInt16, address.toNat = index :=
        ⟨UInt16.ofNat index, UInt16.toNat_ofNat_of_lt bound⟩
      exact agree address
  cases left
  cases right
  simpa only [mk.injEq] using ByteArray.ext same

/-! ## Noise -/

/-- The successor in a sequence of pseudorandom numbers. -/
def noiseStep (state : Nat) : Nat :=
  (state * 1103515245 + 12345) % 2147483648

/-- Write noise at a number of consecutive addresses. -/
def noiseFrom (memory : Memory) (address : UInt16) (state : Nat) :
    Nat → Memory
  | 0 => memory
  | count + 1 =>
      let state := noiseStep state
      (memory.set address (UInt8.ofNat (state / 65536))).noiseFrom
        (address + 1) state count

/-- A memory full of noise that grows from a seed. -/
def noise (seed : Nat) : Memory :=
  zero.noiseFrom 0 (seed % 2147483648) 65536

/-! ## Differences -/

/-- Put a changed byte in front of the runs of changes above it. -/
def addChange (address : UInt16) (byte : UInt8) :
    List (UInt16 × List UInt8) → List (UInt16 × List UInt8)
  | (start, bytes) :: rest =>
      if start.toNat = address.toNat + 1 then (address, byte :: bytes) :: rest
      else (address, [byte]) :: (start, bytes) :: rest
  | [] => [(address, [byte])]

/-- Collect the changes below an address, from the highest down. -/
def changesBelow (before after : Memory) :
    Nat → List (UInt16 × List UInt8) → List (UInt16 × List UInt8)
  | 0, runs => runs
  | count + 1, runs =>
      let address := UInt16.ofNat count
      let byte := after.get address
      if before.get address == byte then changesBelow before after count runs
      else changesBelow before after count (addChange address byte runs)

/-- The new bytes of every address where two memories differ, as runs of
consecutive addresses in ascending order. -/
def changes (before after : Memory) : List (UInt16 × List UInt8) :=
  changesBelow before after 65536 []

end Memory

end Z80
