import Z80.Snapshot.Field

/-!
# What readers take

Every reader of snapshot fields is made of single bytes.  Applied to a byte
sequence, a composed reader hands what its first part left to the next one.

`Reader.Takes` says that a reader takes a fixed number of bytes off the front
of any sequence that has as many, and never reads beyond the end of one that
has fewer.  `Reader.Restores` says which value it makes of certain bytes, and
`Reader.Gives` what is true of its value whatever the bytes.  Main statements:
the number of a composed reader is the sum of the numbers of its parts, and it
restores its value from their bytes put together.
-/

namespace Z80.Snapshot.Reader

variable {α β : Type}

/-! ## Composed readers -/

theorem bind_apply (reader : Reader α) (next : α → Reader β)
    (bytes : List UInt8) :
    (reader >>= next) bytes =
      (reader bytes).bind fun taken => next taken.1 taken.2 :=
  rfl

/-! ## The number of bytes taken -/

/-- The reader takes exactly `count` bytes, and fails when there are fewer. -/
structure Takes (reader : Reader α) (count : Nat) : Prop where
  short : ∀ bytes : List UInt8, bytes.length < count → reader bytes = none
  enough : ∀ bytes : List UInt8, count ≤ bytes.length →
    ∃ value, reader bytes = some (value, bytes.drop count)

namespace Takes

theorem pure (value : α) : Takes (Pure.pure value : Reader α) 0 where
  short := by
    intro bytes tooShort
    exact absurd tooShort (Nat.not_lt_zero _)
  enough := by
    intro bytes _
    exact ⟨value, rfl⟩

theorem bind {reader : Reader α} {next : α → Reader β} {count more : Nat}
    (first : Takes reader count) (second : ∀ value, Takes (next value) more) :
    Takes (reader >>= next) (count + more) where
  short := by
    intro bytes tooShort
    rw [bind_apply]
    by_cases firstShort : bytes.length < count
    · rw [first.short bytes firstShort]
      rfl
    · obtain ⟨value, taken⟩ := first.enough bytes (Nat.le_of_not_lt firstShort)
      rw [taken]
      apply (second value).short
      rw [List.length_drop]
      omega
  enough := by
    intro bytes longEnough
    obtain ⟨value, taken⟩ := first.enough bytes (by omega)
    have restLong : more ≤ (bytes.drop count).length := by
      rw [List.length_drop]
      omega
    obtain ⟨result, rest⟩ := (second value).enough _ restLong
    refine ⟨result, ?_⟩
    rw [bind_apply, taken, ← List.drop_drop]
    exact rest

theorem map {reader : Reader α} {count : Nat} (change : α → β)
    (taken : Takes reader count) : Takes (change <$> reader) count := by
  rw [map_eq_pure_bind]
  exact taken.bind fun value => pure (change value)

theorem branch {yes no : Reader α} {yesCount noCount : Nat} (condition : Bool)
    (takenYes : Takes yes yesCount) (takenNo : Takes no noCount) :
    Takes (if condition then yes else no)
      (if condition then yesCount else noCount) := by
  cases condition with
  | false => exact takenNo
  | true => exact takenYes

theorem of_eq {reader : Reader α} {count other : Nat}
    (taken : Takes reader count) (same : count = other) :
    Takes reader other :=
  same ▸ taken

theorem byte : Takes Reader.byte 1 where
  short := by
    intro bytes tooShort
    cases bytes with
    | nil => rfl
    | cons first rest => simp at tooShort
  enough := by
    intro bytes longEnough
    cases bytes with
    | nil => simp at longEnough
    | cons first rest => exact ⟨first, rfl⟩

theorem word : Takes Reader.word 2 :=
  byte.bind fun _ => byte.bind fun _ => pure _

theorem long : Takes Reader.long 4 :=
  byte.bind fun _ => byte.bind fun _ => byte.bind fun _ => byte.bind fun _ =>
    pure _

theorem latch : Takes Reader.latch 1 :=
  byte.bind fun _ => pure _

end Takes

/-! ## Values restored -/

/-- The reader makes the value of the bytes at the front, whatever follows. -/
def Restores (reader : Reader α) (front : List UInt8) (value : α) : Prop :=
  ∀ rest : List UInt8, reader (front ++ rest) = some (value, rest)

namespace Restores

theorem pure (value : α) : Restores (Pure.pure value : Reader α) [] value := by
  intro rest
  rfl

theorem bind {reader : Reader α} {next : α → Reader β}
    {front back : List UInt8} {value : α} {result : β}
    (first : Restores reader front value)
    (second : Restores (next value) back result) :
    Restores (reader >>= next) (front ++ back) result := by
  intro rest
  have firstRead := first (back ++ rest)
  rw [List.append_assoc, bind_apply, firstRead]
  exact second rest

theorem map {reader : Reader α} {front : List UInt8} {value : α}
    (change : α → β) (restored : Restores reader front value) :
    Restores (change <$> reader) front (change value) := by
  rw [map_eq_pure_bind, ← List.append_nil front]
  exact restored.bind (pure (change value))

theorem branch {yes no : Reader α} {yesFront noFront : List UInt8}
    {yesValue noValue : α} (condition : Bool)
    (restoredYes : Restores yes yesFront yesValue)
    (restoredNo : Restores no noFront noValue) :
    Restores (if condition then yes else no)
      (if condition then yesFront else noFront)
      (if condition then yesValue else noValue) := by
  cases condition with
  | false => exact restoredNo
  | true => exact restoredYes

theorem of_eq {reader : Reader α} {front other : List UInt8}
    {value result : α} (restored : Restores reader front value)
    (sameBytes : front = other) (sameValue : value = result) :
    Restores reader other result := by
  rw [← sameBytes, ← sameValue]
  exact restored

theorem byte (value : UInt8) : Restores Reader.byte [value] value := by
  intro rest
  rfl

theorem word (value : UInt16) : Restores Reader.word (wordBytes value) value :=
  word_wordBytes value

theorem long (value : UInt32) : Restores Reader.long (longBytes value) value :=
  long_longBytes value

theorem latch (value : UInt8) : Restores Reader.latch [value] (value != 0) := by
  intro rest
  rfl

end Restores

/-! ## Values given -/

/-- Every value that the reader makes has a property. -/
def Gives (reader : Reader α) (post : α → Prop) : Prop :=
  ∀ bytes value rest, reader bytes = some (value, rest) → post value

namespace Gives

theorem pure {post : α → Prop} {value : α} (holds : post value) :
    Gives (Pure.pure value : Reader α) post := by
  intro bytes given rest read
  cases read
  exact holds

theorem bind_of {reader : Reader α} {next : α → Reader β} {middle : α → Prop}
    {post : β → Prop} (first : Gives reader middle)
    (second : ∀ value, middle value → Gives (next value) post) :
    Gives (reader >>= next) post := by
  intro bytes result rest read
  rw [bind_apply] at read
  obtain ⟨⟨value, left⟩, firstRead, secondRead⟩ :=
    Option.bind_eq_some_iff.mp read
  exact second value (first bytes value left firstRead) left result rest
    secondRead

theorem bind {reader : Reader α} {next : α → Reader β} {post : β → Prop}
    (second : ∀ value, Gives (next value) post) :
    Gives (reader >>= next) post :=
  bind_of (fun _ _ _ _ => trivial) fun value _ => second value

end Gives

end Z80.Snapshot.Reader
