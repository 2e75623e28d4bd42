import Z80.Proofs.Service

/-!
# The stack as a list

Pushed words lie below one another in memory, and the last one is popped first.
The stack pointer wraps at both ends of the address space, so that a stack may
begin anywhere, and it loses nothing until it fills the whole address space.

Main statement: `StackAccess.lastInFirstOut`, for accesses in any order.
-/

namespace Z80

namespace Word

/-- The address a number of bytes below another one. -/
def below (address : UInt16) (depth : Nat) : UInt16 :=
  address - UInt16.ofNat depth

private theorem toNat_below (address : UInt16) (depth : Nat) :
    (below address depth).toNat =
      (65536 - depth % 65536 + address.toNat) % 65536 := by
  unfold below
  rw [UInt16.toNat_sub, UInt16.toNat_ofNat']

theorem below_zero (address : UInt16) : below address 0 = address :=
  UInt16.sub_zero address

theorem below_below (address : UInt16) (depth further : Nat) :
    below (below address depth) further = below address (depth + further) := by
  unfold below
  rw [UInt16.ofNat_add]
  grind

/-- Upwards again. -/
theorem below_add (address : UInt16) (depth height : Nat) :
    below address (depth + height) + UInt16.ofNat height = below address depth := by
  unfold below
  rw [UInt16.ofNat_add]
  grind

/-- Depths that differ by less than the address space do not meet. -/
theorem below_ne (address : UInt16) {depth deeper : Nat} (less : depth < deeper)
    (near : deeper < depth + 65536) :
    below address depth ≠ below address deeper := by
  intro same
  have equal := congrArg UInt16.toNat same
  rw [toNat_below, toNat_below] at equal
  omega

end Word

namespace Flat

/-- A push leaves what lies above it, as long as it does not come round to it. -/
theorem peek_pushWord_below (flat : Flat) (base word : UInt16) {depth deeper : Nat}
    (above : depth ≤ deeper) (near : deeper + 2 < depth + 65536) :
    (flat.pushWord (Word.below base deeper) word).peek (Word.below base depth) =
      flat.peek (Word.below base depth) := by
  have high : Word.below base deeper - 1 = Word.below base (deeper + 1) :=
    Word.below_below base deeper 1
  have low : Word.below base deeper - 2 = Word.below base (deeper + 2) :=
    Word.below_below base deeper 2
  apply peek_pushWord_of_ne
  · rw [high]
    exact Word.below_ne base (by omega) (by omega)
  · rw [low]
    exact Word.below_ne base (by omega) (by omega)

private theorem HasWord.pushWord {flat : Flat} {base other : UInt16}
    {depth deeper : Nat}
    (lies : flat.HasWord (Word.below base (depth + 2)) other)
    (above : depth + 2 ≤ deeper) (near : deeper + 1 < depth + 65536) (word : UInt16) :
    (flat.pushWord (Word.below base deeper) word).HasWord (Word.below base (depth + 2))
      other := by
  have next : Word.below base (depth + 2) + 1 = Word.below base (depth + 1) :=
    Word.below_add base (depth + 1) 1
  unfold HasWord at lies ⊢
  rw [next] at lies ⊢
  rw [flat.peek_pushWord_below base word above (by omega),
    flat.peek_pushWord_below base word (by omega) (by omega)]
  exact lies

end Flat

/-- A word that is pushed, or a pop. -/
inductive StackAccess where
  | push (word : UInt16)
  | pop
  deriving DecidableEq

namespace StackAccess

open Microcode

/-- The accesses on a list that holds at most so many words, the last one first.
The result is the words that were popped and the list that is left, unless the
list overflows or a pop finds nothing. -/
def onList? (room : Nat) (held : List UInt16) :
    List StackAccess → Option (List UInt16 × List UInt16)
  | [] => some ([], held)
  | .push word :: rest =>
      if held.length < room then onList? room (word :: held) rest else none
  | .pop :: rest =>
      match held with
      | [] => none
      | word :: lower =>
          (onList? room lower rest).map fun (popped, held) => (word :: popped, held)

/-- The accesses on the stack of a processor. -/
def execute (regs : Registers) :
    List StackAccess → Microcode (List UInt16 × Registers)
  | [] => return ([], regs)
  | .push word :: rest => do
      let regs ← regs.push word
      execute regs rest
  | .pop :: rest => do
      let (word, regs) ← regs.pop
      let (popped, regs) ← execute regs rest
      return (word :: popped, regs)

/-! ## Lists -/

section Lists

variable {room : Nat} {held after popped : List UInt16} {rest : List StackAccess}

private theorem onList?_push {word : UInt16} (fits : held.length < room) :
    onList? room held (.push word :: rest) = onList? room (word :: held) rest :=
  if_pos fits

private theorem onList?_push_eq_some {word : UInt16}
    {result : List UInt16 × List UInt16}
    (ran : onList? room held (.push word :: rest) = some result) :
    held.length < room ∧ onList? room (word :: held) rest = some result := by
  unfold onList? at ran
  split at ran
  case isTrue fits => exact ⟨fits, ran⟩
  case isFalse => contradiction

private theorem onList?_pop (room : Nat) (word : UInt16) (lower : List UInt16)
    (rest : List StackAccess) :
    onList? room (word :: lower) (.pop :: rest) =
      (onList? room lower rest).map fun (popped, held) => (word :: popped, held) :=
  rfl

private theorem onList?_pop_eq_some
    (ran : onList? room held (.pop :: rest) = some (popped, after)) :
    ∃ word lower others, held = word :: lower ∧ popped = word :: others ∧
      onList? room lower rest = some (others, after) := by
  cases held with
  | nil => contradiction
  | cons word lower =>
      obtain ⟨⟨others, _⟩, ranRest, same⟩ := Option.map_eq_some_iff.mp ran
      obtain ⟨rfl, rfl⟩ := Prod.mk.inj same
      exact ⟨word, lower, others, rfl, rfl, ranRest⟩

/-- Words that fit are held in reverse order. -/
theorem onList?_pushes (words : List UInt16) (fits : words.length + held.length ≤ room)
    (rest : List StackAccess) :
    onList? room held (words.map push ++ rest) =
      onList? room (words.reverse ++ held) rest := by
  induction words generalizing held with
  | nil => rfl
  | cons word words inductionHypothesis =>
      rw [List.length_cons] at fits
      rw [List.map_cons, List.cons_append, onList?_push (by omega),
        inductionHypothesis (by rw [List.length_cons]; omega), List.reverse_cons,
        List.append_assoc]
      rfl

private theorem onList?_pops (room : Nat) (held : List UInt16) :
    onList? room held (List.replicate held.length pop) = some (held, []) := by
  induction held with
  | nil => rfl
  | cons word lower inductionHypothesis =>
      rw [List.length_cons, List.replicate_succ, onList?_pop, inductionHypothesis]
      rfl

/-- The word that was pushed last lies behind all others. -/
theorem getElem?_reverse_cons {word other : UInt16} {index : Nat} :
    (word :: held).reverse[index]? = some other ↔
      held.reverse[index]? = some other ∨ index = held.length ∧ word = other := by
  rw [List.reverse_cons, List.getElem?_append, List.length_reverse]
  by_cases earlier : index < held.length
  · have notLast : index ≠ held.length := Nat.ne_of_lt earlier
    simp only [if_pos earlier, notLast, false_and, or_false]
  · have behind : held.reverse[index]? = none :=
      List.getElem?_eq_none (by rw [List.length_reverse]; omega)
    have last : index - held.length = 0 ↔ index = held.length := by omega
    rw [if_neg earlier, behind, List.getElem?_singleton]
    simp only [last, Option.ite_none_right_eq_some, Option.some.injEq, reduceCtorEq,
      false_or]

end Lists

/-! ## One access -/

/-- A stack that holds words and had its empty top at the given registers.  The
accesses were in a room below that. -/
structure Stacked (regs : Registers) (flat : Flat) (room : Nat)
    (held : List UInt16) (left : Registers × Flat) : Prop where
  pointer : left.1 = { regs with sp := Word.below regs.sp (2 * held.length) }
  /-- Words lie low byte first, the oldest one at the top. -/
  words : ∀ index word, held.reverse[index]? = some word →
    left.2.HasWord (Word.below regs.sp (2 * (index + 1))) word
  kept : ∀ address,
    (∀ depth, 1 ≤ depth → depth ≤ 2 * room → address ≠ Word.below regs.sp depth) →
      left.2.peek address = flat.peek address
  /-- Nothing of the host has changed but memory and the count of cycles. -/
  others : left.2 = { flat with ram := left.2.ram, cycles := left.2.cycles }

variable {regs : Registers} {flat : Flat} {room : Nat} {held : List UInt16}
  {left : Registers × Flat}

private theorem stacked_nil (regs : Registers) (flat : Flat) (room : Nat) :
    Stacked regs flat room [] (regs, flat) where
  pointer := by rw [List.length_nil, Word.below_zero]
  words := by
    intro index word found
    contradiction
  kept := fun _ _ => rfl
  others := rfl

/-- A push writes below everything that is held. -/
theorem Stacked.push (stacked : Stacked regs flat room held left)
    (fits : held.length < room) (enough : room ≤ 32768) (word : UInt16) :
    Stacked regs flat room (word :: held) ((left.1.push word).run Flat.bus left.2) := by
  have top : left.1.sp = Word.below regs.sp (2 * held.length) := by
    rw [stacked.pointer]
  have low : left.1.sp - 2 = Word.below regs.sp (2 * (held.length + 1)) := by
    rw [top]
    exact Word.below_below _ _ 2
  rw [Registers.run_push_flat]
  constructor
  case pointer => rw [low, stacked.pointer, List.length_cons]
  case words =>
    intro index other found
    obtain earlier | ⟨rfl, rfl⟩ := getElem?_reverse_cons.mp found
    · have lies : left.2.HasWord (Word.below regs.sp (2 * index + 2)) other :=
        stacked.words index other earlier
      have within : index < held.length := by
        rw [← List.length_reverse]
        exact (List.getElem?_eq_some_iff.mp earlier).1
      rw [top]
      exact lies.pushWord (by omega) (by omega) word
    · rw [← low]
      exact Flat.hasWord_pushWord left.2 left.1.sp word
  case kept =>
    intro address outside
    have high : left.1.sp - 1 = Word.below regs.sp (2 * held.length + 1) := by
      rw [top]
      exact Word.below_below _ _ 1
    rw [← stacked.kept address outside]
    refine Flat.peek_pushWord_of_ne left.2 word ?_ ?_
    · rw [high]
      exact outside _ (by omega) (by omega)
    · rw [low]
      exact outside _ (by omega) (by omega)
  case others =>
    rw [stacked.others]
    rfl

/-- A pop reads the word that was pushed last. -/
theorem Stacked.pop {word : UInt16}
    (stacked : Stacked regs flat room (word :: held) left) :
    ∃ next, left.1.pop.run Flat.bus left.2 = ((word, next), left.2.addCycles 6) ∧
      Stacked regs flat room held (next, left.2.addCycles 6) := by
  have top : left.1.sp = Word.below regs.sp (2 * (held.length + 1)) := by
    rw [stacked.pointer, List.length_cons]
  have lies : left.2.HasWord left.1.sp word := by
    rw [top]
    exact stacked.words held.length word (getElem?_reverse_cons.mpr (.inr ⟨rfl, rfl⟩))
  have ran :
      left.1.pop.run Flat.bus left.2 =
        ((left.2.peekWord left.1.sp, { left.1 with sp := left.1.sp + 2 }),
          left.2.addCycles 6) :=
    rfl
  rw [lies.peekWord] at ran
  refine ⟨_, ran, ?_⟩
  constructor
  case pointer =>
    have raised : left.1.sp + 2 = Word.below regs.sp (2 * held.length) := by
      rw [top]
      exact Word.below_add regs.sp (2 * held.length) 2
    rw [raised, stacked.pointer]
  case words =>
    intro index other found
    exact stacked.words index other (getElem?_reverse_cons.mpr (.inl found))
  case kept => exact stacked.kept
  case others =>
    rw [stacked.others]
    rfl

/-! ## All accesses -/

/-- Every pop gives what the list gives, and what the list holds is stacked. -/
theorem Stacked.execute (enough : room ≤ 32768) {accesses : List StackAccess}
    {popped after : List UInt16} (stacked : Stacked regs flat room held left)
    (ran : onList? room held accesses = some (popped, after)) :
    ∃ next host,
      (execute left.1 accesses).run Flat.bus left.2 = ((popped, next), host) ∧
        Stacked regs flat room after (next, host) ∧
        host.cycles + 7 * held.length =
          left.2.cycles + 7 * after.length + 13 * popped.length := by
  induction accesses generalizing held left popped with
  | nil =>
      obtain ⟨rfl, rfl⟩ := Prod.mk.inj (Option.some.inj ran)
      exact ⟨left.1, left.2, rfl, stacked, rfl⟩
  | cons access rest inductionHypothesis =>
      cases access with
      | push word =>
          obtain ⟨fits, ranRest⟩ := onList?_push_eq_some ran
          obtain ⟨next, host, executed, nextStacked, cycles⟩ :=
            inductionHypothesis (stacked.push fits enough word) ranRest
          refine ⟨next, host, ?_, nextStacked, ?_⟩
          · unfold StackAccess.execute
            rw [run_bind]
            exact executed
          · rw [Registers.run_push_flat, List.length_cons] at cycles
            dsimp only [Flat.addCycles, Flat.pushWord, Flat.poke] at cycles
            omega
      | pop =>
          obtain ⟨word, lower, others, rfl, rfl, ranRest⟩ := onList?_pop_eq_some ran
          obtain ⟨raised, popRan, popStacked⟩ := stacked.pop
          obtain ⟨next, host, executed, nextStacked, cycles⟩ :=
            inductionHypothesis popStacked ranRest
          refine ⟨next, host, ?_, nextStacked, ?_⟩
          · unfold StackAccess.execute
            rw [run_bind, popRan]
            dsimp only at executed ⊢
            rw [run_bind, executed]
            rfl
          · dsimp only [Flat.addCycles] at cycles
            rw [List.length_cons, List.length_cons]
            omega

/-- What is left of accesses to a stack that was empty at the given registers. -/
structure LastInFirstOut (regs : Registers) (flat : Flat) (room : Nat)
    (popped held : List UInt16) (outcome : (List UInt16 × Registers) × Flat) : Prop where
  answers : outcome.1.1 = popped
  stacked : Stacked regs flat room held (outcome.1.2, outcome.2)
  restored : held = [] → outcome.1.2 = regs
  /-- A push takes 7 cycles and a pop 6. -/
  cycles : outcome.2.cycles = flat.cycles + 7 * held.length + 13 * popped.length

private theorem lastInFirstOut_of_onList? (regs : Registers) (flat : Flat)
    (enough : room ≤ 32768)
    {accesses : List StackAccess} {popped : List UInt16}
    (ran : onList? room [] accesses = some (popped, held)) :
    LastInFirstOut regs flat room popped held
      ((execute regs accesses).run Flat.bus flat) := by
  obtain ⟨next, host, executed, stacked, cycles⟩ :=
    (stacked_nil regs flat room).execute enough ran
  rw [executed]
  refine ⟨rfl, stacked, ?_, cycles⟩
  rintro rfl
  refine stacked.pointer.trans ?_
  rw [List.length_nil, Word.below_zero]

/-- Up to 32768 words that are pushed lie below one another in this order and are
popped in reverse order.  Pops may also come between the pushes, as long as there
is a word to pop and no more than 32768 are held. -/
theorem lastInFirstOut (regs : Registers) (flat : Flat) :
    (∀ words : List UInt16, words.length ≤ 32768 →
      (∀ index word, words[index]? = some word →
        ((execute regs (words.map push)).run Flat.bus flat).2.HasWord
          (Word.below regs.sp (2 * (index + 1))) word) ∧
        LastInFirstOut regs flat words.length words.reverse []
          ((execute regs (words.map push ++ List.replicate words.length pop)).run
            Flat.bus flat)) ∧
      ∀ room accesses popped held, room ≤ 32768 →
        onList? room [] accesses = some (popped, held) →
          LastInFirstOut regs flat room popped held
            ((execute regs accesses).run Flat.bus flat) := by
  constructor
  · intro words enough
    have pushed (rest : List StackAccess) :
        onList? words.length [] (words.map push ++ rest) =
          onList? words.length words.reverse rest := by
      have fits : words.length + ([] : List UInt16).length ≤ words.length := Nat.le_refl _
      rw [onList?_pushes words fits rest, List.append_nil]
    constructor
    · have held := pushed []
      rw [List.append_nil] at held
      have stacked := (lastInFirstOut_of_onList? regs flat enough held).stacked
      intro index word found
      exact stacked.words index word (words.reverse_reverse.symm ▸ found)
    · have popped := onList?_pops words.length words.reverse
      rw [List.length_reverse, ← pushed] at popped
      exact lastInFirstOut_of_onList? regs flat enough popped
  · intro room accesses popped held enough ran
    exact lastInFirstOut_of_onList? regs flat enough ran

/-- Registers with the stack pointer at an odd address above the bottom. -/
def wrapping : Registers :=
  { (Cpu.new .nmos).regs with sp := 1 }

/-- The first word lies across the top of the address space. -/
theorem lastInFirstOut_wrapping :
    let pushes := ([0x1234, 0x5678] : List UInt16).map push
    let mixed := [.push 0x1234, .push 0x5678, .pop, .push 0x9ABC, .pop, .pop]
    ((execute wrapping pushes).run Flat.bus Flat.new).2.HasWord 0xFFFF 0x1234 ∧
      onList? 2 [] mixed = some ([0x5678, 0x9ABC, 0x1234], []) ∧
      ((execute wrapping mixed).run Flat.bus Flat.new).1 =
        ([0x5678, 0x9ABC, 0x1234], wrapping) ∧
      ((execute wrapping mixed).run Flat.bus Flat.new).2.cycles = 39 := by
  obtain ⟨sequence, nested⟩ := lastInFirstOut wrapping Flat.new
  obtain ⟨lies, _⟩ := sequence [0x1234, 0x5678] (by decide)
  have ran :
      onList? 2 [] [.push 0x1234, .push 0x5678, .pop, .push 0x9ABC, .pop, .pop] =
        some ([0x5678, 0x9ABC, 0x1234], []) :=
    rfl
  have left := nested 2 _ _ _ (by decide) ran
  exact ⟨lies 0 0x1234 rfl, ran, Prod.ext left.answers (left.restored rfl), left.cycles⟩

end StackAccess

end Z80
