import Z80.Host.Scheduled
import Z80.Proofs.Agreement

/-!
# Alarms that go off

Letting time pass moves interrupts from the alarms to the raised ones and loses
none.  Once all alarms of a list have gone off, it makes no difference when
each of them did.

Main statement: `Scheduled.alike_owing`, for two hosts of which one has some
alarms more.
-/

namespace Z80

/-! ## Unions of requests -/

namespace Requests

@[simp]
theorem none_union (requests : Requests) : Requests.none.union requests = requests := by
  simp [union, none]

@[simp]
theorem union_none (requests : Requests) : requests.union .none = requests := by
  simp [union, none]

theorem union_comm (left right : Requests) :
    left.union right = right.union left := by
  simp [union, Bool.or_comm]

theorem union_assoc (first second third : Requests) :
    (first.union second).union third = first.union (second.union third) := by
  simp [union, Bool.or_assoc]

theorem union_left_comm (first second third : Requests) :
    first.union (second.union third) = second.union (first.union third) := by
  rw [← union_assoc, union_comm first second, union_assoc]

/-- Two more requests may be put to either of two others. -/
theorem union_union_union_comm (first second third fourth : Requests) :
    (first.union second).union (third.union fourth) =
      (first.union third).union (second.union fourth) := by
  rw [union_assoc, union_left_comm second, ← union_assoc]

end Requests

namespace Alarm

/-! ## What alarms ask for -/

/-- Everything that some alarms ask for. -/
def total : List Alarm → Requests
  | [] => .none
  | alarm :: rest => alarm.requests.union (total rest)

private theorem total_append (first second : List Alarm) :
    total (first ++ second) = (total first).union (total second) := by
  induction first with
  | nil => exact (Requests.none_union _).symm
  | cons alarm rest inductionHypothesis =>
      rw [List.cons_append, total, inductionHypothesis, total,
        Requests.union_assoc]

private theorem total_perm {first second : List Alarm} (same : first.Perm second) :
    total first = total second := by
  induction same with
  | nil => rfl
  | cons alarm _ inductionHypothesis =>
      exact congrArg alarm.requests.union inductionHypothesis
  | swap first second rest => exact Requests.union_left_comm _ _ _
  | trans _ _ left right => exact left.trans right

end Alarm

namespace Scheduled

open Alarm

private theorem foldl_due (cycles : Nat) (alarms : List Alarm) (requests : Requests) :
    alarms.foldl
        (fun requests alarm =>
          if alarm.left ≤ cycles then requests.union alarm.requests
          else requests)
        requests =
      requests.union (total (alarms.filter (·.left ≤ cycles))) := by
  induction alarms generalizing requests with
  | nil => exact (Requests.union_none requests).symm
  | cons alarm rest inductionHypothesis =>
      rw [List.foldl_cons, inductionHypothesis]
      by_cases elapsed : alarm.left ≤ cycles
      · simp [elapsed, total, Requests.union_assoc]
      · simp [elapsed]

theorem due_eq_total (cycles : Nat) (alarms : List Alarm) :
    due cycles alarms = total (alarms.filter (·.left ≤ cycles)) :=
  (foldl_due cycles alarms .none).trans (Requests.none_union _)

private theorem due_append (cycles : Nat) (first second : List Alarm) :
    due cycles (first ++ second) =
      (due cycles first).union (due cycles second) := by
  rw [due_eq_total, due_eq_total, due_eq_total, List.filter_append,
    total_append]

private theorem due_perm (cycles : Nat) {first second : List Alarm}
    (same : first.Perm second) : due cycles first = due cycles second := by
  rw [due_eq_total, due_eq_total]
  exact total_perm (same.filter _)

private theorem remaining_append (cycles : Nat) (first second : List Alarm) :
    remaining cycles (first ++ second) =
      remaining cycles first ++ remaining cycles second :=
  List.filterMap_append

private theorem remaining_perm (cycles : Nat) {first second : List Alarm}
    (same : first.Perm second) :
    (remaining cycles first).Perm (remaining cycles second) :=
  same.filterMap _

private theorem remaining_cons_of_le {cycles : Nat} {alarm : Alarm}
    (elapsed : alarm.left ≤ cycles) (rest : List Alarm) :
    remaining cycles (alarm :: rest) = remaining cycles rest :=
  List.filterMap_cons_none (if_pos elapsed)

private theorem remaining_cons_of_not_le {cycles : Nat} {alarm : Alarm}
    (ahead : ¬ alarm.left ≤ cycles) (rest : List Alarm) :
    remaining cycles (alarm :: rest) =
      { alarm with left := alarm.left - cycles } :: remaining cycles rest :=
  List.filterMap_cons_some (if_neg ahead)

private theorem exists_of_mem_remaining {cycles : Nat} {alarms : List Alarm}
    {alarm : Alarm} (member : alarm ∈ remaining cycles alarms) :
    1 ≤ alarm.left ∧ ∃ set ∈ alarms, set.left = alarm.left + cycles := by
  obtain ⟨set, setMember, kept⟩ := List.mem_filterMap.mp member
  by_cases elapsed : set.left ≤ cycles
  · rw [if_pos elapsed] at kept
    cases kept
  · rw [if_neg elapsed] at kept
    cases kept
    dsimp only
    exact ⟨by omega, set, setMember, by omega⟩

/-- No request is lost while time passes. -/
theorem due_union_remaining (cycles : Nat) (alarms : List Alarm) :
    (due cycles alarms).union (total (remaining cycles alarms)) =
      total alarms := by
  induction alarms with
  | nil => rfl
  | cons alarm rest inductionHypothesis =>
      rw [due_eq_total] at inductionHypothesis ⊢
      by_cases elapsed : alarm.left ≤ cycles
      · rw [remaining_cons_of_le elapsed]
        simp only [elapsed, List.filter_cons, decide_true, if_true, total,
          Requests.union_assoc, inductionHypothesis]
      · rw [remaining_cons_of_not_le elapsed, total, Requests.union_left_comm]
        simp only [elapsed, List.filter_cons, decide_false, Bool.false_eq_true,
          if_false, inductionHypothesis, total]

/-! ## Hosts with more alarms -/

/-- Two hosts that differ at most in the order of their alarms. -/
structure SameButOrder (left right : Scheduled) : Prop where
  flat : left.flat = right.flat
  alarms : left.alarms.Perm right.alarms
  raised : left.raised = right.raised
  accepted : left.accepted = right.accepted
  traps : left.traps = right.traps
  patch : left.patch = right.patch

/-- The host with some more alarms to go off and some more interrupts
raised. -/
def expecting (waiting : List Alarm) (fired : Requests) (scheduled : Scheduled) :
    Scheduled :=
  { scheduled with
    alarms := waiting ++ scheduled.alarms
    raised := scheduled.raised.union fired }

private theorem expecting_nil_none (scheduled : Scheduled) :
    scheduled.expecting [] .none = scheduled := by
  unfold expecting
  rw [Requests.union_none, List.nil_append]

theorem accesses_expecting (waiting : List Alarm) (fired : Requests) :
    Host.Accesses
      (fun left right => SameButOrder left (right.expecting waiting fired))
      host host := by
  refine ⟨?_, ?_, ?_, ?_, ?_⟩
  · intro address left right same
    exact ⟨congrArg (Flat.peek · address) same.flat, same⟩
  · intro address byte left right same
    exact { same with flat := congrArg (Flat.poke · address byte) same.flat }
  · intro port left right same
    exact ⟨congrArg (Flat.ports · port) same.flat, same⟩
  · intro port byte left right same
    exact { same with flat := congrArg (Flat.writePort · port byte) same.flat }
  · intro regs left right same
    have traps := congrArg (· + 1) same.traps
    exact ⟨congrFun same.patch regs, { same with traps := traps }⟩

/-- The alarms that go off join the interrupts raised. -/
theorem advance_expecting (cycles : Nat) {waiting : List Alarm}
    {fired : Requests} {left right : Scheduled}
    (same : SameButOrder left (right.expecting waiting fired)) :
    SameButOrder (left.advance cycles)
      ((right.advance cycles).expecting (remaining cycles waiting)
        (fired.union (due cycles waiting))) := by
  refine { same with flat := ?_, alarms := ?_, raised := ?_ }
  · exact congrArg (Flat.addCycles · cycles) same.flat
  · have later := remaining_perm cycles same.alarms
    rw [expecting, remaining_append] at later
    exact later
  · have going := due_perm cycles same.alarms
    rw [expecting, due_append, Requests.union_comm] at going
    calc
      left.raised.union (due cycles left.alarms)
      _ = (right.raised.union fired).union
            ((due cycles right.alarms).union (due cycles waiting)) :=
        congr (congrArg Requests.union same.raised) going
      _ = (right.raised.union (due cycles right.alarms)).union
            (fired.union (due cycles waiting)) :=
        Requests.union_union_union_comm _ _ _ _

private theorem alike_sameButOrder :
    Host.Alike SameButOrder SameButOrder host host := by
  have accesses := accesses_expecting [] .none
  simp only [expecting_nil_none] at accesses
  refine ⟨accesses, fun _ _ same => same, ?_⟩
  intro cycles left right same
  rw [← expecting_nil_none right] at same
  have passed :
      SameButOrder (left.advance cycles)
        ((right.advance cycles).expecting [] .none) :=
    advance_expecting cycles same
  rw [expecting_nil_none] at passed
  exact passed

theorem agreement_sameButOrder : Host.Agreement SameButOrder host host := by
  refine ⟨alike_sameButOrder, ?_, ?_, ?_⟩
  · intro left right same
    exact ⟨same.raised, { same with raised := rfl }⟩
  · intro left right same
    exact { same with accepted := congrArg (· + 1) same.accepted }
  · intro event left right same
    exact same

/-- The left host has some alarms more, which go off by the deadline, but not
before `least` cycles.  Those of their interrupts that have not been raised yet
are still to come, and together they are what is owed. -/
inductive Owing (owed : Requests) (deadline least : Nat)
    (left right : Scheduled) : Prop where
  | intro (waiting : List Alarm) (fired : Requests)
      (same : SameButOrder left (right.expecting waiting fired))
      (conserved : fired.union (total waiting) = owed)
      (ahead : ∀ alarm ∈ waiting,
        least ≤ alarm.left ∧ left.flat.cycles + alarm.left ≤ deadline)

private theorem accesses_owing (owed : Requests) (deadline least : Nat) :
    Host.Accesses (Owing owed deadline least) host host := by
  refine ⟨?_, ?_, ?_, ?_, ?_⟩
  · intro address left right ⟨waiting, fired, same, conserved, ahead⟩
    obtain ⟨answer, same⟩ :=
      (accesses_expecting waiting fired).read address _ _ same
    exact ⟨answer, waiting, fired, same, conserved, ahead⟩
  · intro address byte left right ⟨waiting, fired, same, conserved, ahead⟩
    have same := (accesses_expecting waiting fired).write address byte _ _ same
    exact ⟨waiting, fired, same, conserved, ahead⟩
  · intro port left right ⟨waiting, fired, same, conserved, ahead⟩
    obtain ⟨answer, same⟩ :=
      (accesses_expecting waiting fired).readPort port _ _ same
    exact ⟨answer, waiting, fired, same, conserved, ahead⟩
  · intro port byte left right ⟨waiting, fired, same, conserved, ahead⟩
    have same := (accesses_expecting waiting fired).writePort port byte _ _ same
    exact ⟨waiting, fired, same, conserved, ahead⟩
  · intro regs left right ⟨waiting, fired, same, conserved, ahead⟩
    obtain ⟨answer, same⟩ :=
      (accesses_expecting waiting fired).tapePatch regs _ _ same
    exact ⟨answer, waiting, fired, same, conserved, ahead⟩

/-- An alarm that is left after some cycles has at least one more to wait. -/
theorem alike_owing (owed : Requests) (deadline : Nat) :
    Host.Alike (Owing owed deadline 0) (Owing owed deadline 1) host host := by
  refine ⟨accesses_owing owed deadline 1, ?_, ?_⟩
  · intro left right ⟨waiting, fired, same, conserved, ahead⟩
    refine ⟨waiting, fired, same, conserved, ?_⟩
    intro alarm member
    exact ⟨Nat.zero_le _, (ahead alarm member).2⟩
  · intro cycles left right ⟨waiting, fired, same, conserved, ahead⟩
    refine ⟨remaining cycles waiting, fired.union (due cycles waiting),
      advance_expecting cycles same, ?_, ?_⟩
    · rw [Requests.union_assoc, due_union_remaining, conserved]
    · intro alarm member
      obtain ⟨positive, set, setMember, shifted⟩ :=
        exists_of_mem_remaining member
      have bound := (ahead set setMember).2
      have clock :
          (left.advance cycles).flat.cycles = left.flat.cycles + cycles :=
        rfl
      refine ⟨positive, ?_⟩
      change (left.advance cycles).flat.cycles + alarm.left ≤ deadline
      omega

/-- At the deadline every alarm has gone off. -/
theorem Owing.settled {owed : Requests} {deadline : Nat}
    {left right : Scheduled} (owing : Owing owed deadline 1 left right)
    (elapsed : left.flat.cycles = deadline) :
    SameButOrder left (right.expecting [] owed) := by
  obtain ⟨waiting, fired, same, conserved, ahead⟩ := owing
  have done : waiting = [] := by
    rw [List.eq_nil_iff_forall_not_mem]
    intro alarm member
    have bounds := ahead alarm member
    omega
  subst done
  rw [total, Requests.union_none] at conserved
  rw [← conserved]
  exact same

end Scheduled

end Z80
