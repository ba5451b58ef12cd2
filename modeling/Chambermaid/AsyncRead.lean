import Chambermaid.Occurrence
import Chambermaid.AsyncImpl

/-! What `readStringUntil` finds. The search leaves out the last place a delimiter
can stand, so a queue that ends with its only delimiter yields nothing. -/
namespace Chambermaid.AsyncRead
open Occurrence AsyncImpl

theorem matchesHerePrefix (delim queue : Bytes) :
    matchesHere delim queue = true ↔ delim <+: queue := by
  induction delim generalizing queue with
  | nil => simp [matchesHere]
  | cons d delim ih =>
    cases queue with
    | nil => simp [matchesHere]
    | cons x queue =>
      unfold matchesHere
      rw [List.cons_prefix_cons]
      split
      · rename_i different
        have apart : ¬ d = x := fun same => different same.symm
        simp [apart]
      · rename_i same
        rw [Decidable.not_not] at same
        rw [ih]
        simp [same]

theorem searchLoopInside (delim : Bytes) (room : Nat) (queue : Bytes) :
    searchLoop delim room queue ≤ room := by
  induction room generalizing queue with
  | zero => exact Nat.le_refl _
  | succ room ih =>
    unfold searchLoop
    split
    · exact Nat.zero_le _
    · exact Nat.succ_le_succ (ih _)

theorem occursTail (delim queue : Bytes) (i : Nat) :
    OccursAt delim queue.tail i ↔ OccursAt delim queue (i+1) := by
  cases queue with
  | nil => simp [OccursAt]
  | cons x queue => rfl

theorem searchLoopFirst (delim : Bytes) (room : Nat) (queue : Bytes) :
    (∀ j < searchLoop delim room queue, ¬ OccursAt delim queue j) ∧
    (searchLoop delim room queue < room → OccursAt delim queue (searchLoop delim room queue)) := by
  induction room generalizing queue with
  | zero =>
    refine ⟨?_,?_⟩
    · intro j low
      exact absurd low (Nat.not_lt_zero j)
    · intro low
      exact absurd low (Nat.not_lt_zero _)
  | succ room ih =>
    obtain ⟨before,at_found⟩ := ih queue.tail
    unfold searchLoop
    split
    · rename_i here
      refine ⟨fun j low => absurd low (Nat.not_lt_zero j),fun _ => ?_⟩
      exact (matchesHerePrefix delim queue).mp here
    · rename_i elsewhere
      refine ⟨?_,?_⟩
      · intro j low
        cases j with
        | zero =>
          intro occurs
          exact elsewhere ((matchesHerePrefix delim queue).mpr occurs)
        | succ j =>
          rw [← occursTail]
          exact before j (Nat.lt_of_succ_lt_succ low)
      · intro low
        rw [← occursTail]
        exact at_found (Nat.lt_of_succ_lt_succ low)

def taking (s : State) (delim front back : Bytes) : State :=
  {s with readQueue := back,history := {s.history with taken := s.history.taken ++ [(front,delim)]}}

def Missing (delim queue : Bytes) : Prop :=
  ∀ i, i + delim.length < queue.length → ¬ OccursAt delim queue i

theorem readRefuses {s : State} {delim : Bytes} {ec : ErrorCode} (stored : s.error = some ec) :
    readStringUntil s delim = .error ec := by
  unfold readStringUntil
  rw [stored]

theorem readNothing {s : State} {delim : Bytes} (clear : s.error = none)
    (missing : Missing delim s.readQueue) : readStringUntil s delim = .ok (none,s) := by
  unfold readStringUntil
  split
  · rename_i stored
    rw [clear] at stored
    contradiction
  split
  · rfl
  · rename_i long
    obtain ⟨_,occurs⟩ := searchLoopFirst delim (s.readQueue.length - delim.length) s.readQueue
    have inside := searchLoopInside delim (s.readQueue.length - delim.length) s.readQueue
    have exhausted : searchLoop delim (s.readQueue.length - delim.length) s.readQueue =
        s.readQueue.length - delim.length := by
      by_contra early
      have early := Nat.lt_of_le_of_ne inside early
      exact missing _ (by omega) (occurs early)
    simp only [exhausted,if_true]

theorem readFirst {s : State} {delim : Bytes} {i : Nat} (clear : s.error = none)
    (room : i + delim.length < s.readQueue.length) (occurs : OccursAt delim s.readQueue i)
    (least : ∀ j < i, ¬ OccursAt delim s.readQueue j) :
    readStringUntil s delim = .ok (some (s.readQueue.take i),
      taking s delim (s.readQueue.take i) (s.readQueue.drop (i + delim.length))) := by
  obtain ⟨before,stops⟩ := searchLoopFirst delim (s.readQueue.length - delim.length) s.readQueue
  have inside := searchLoopInside delim (s.readQueue.length - delim.length) s.readQueue
  have found : searchLoop delim (s.readQueue.length - delim.length) s.readQueue = i := by
    rcases Nat.lt_trichotomy (searchLoop delim (s.readQueue.length - delim.length) s.readQueue) i
      with low | same | high
    · exact absurd (stops (by omega)) (least _ low)
    · exact same
    · exact absurd occurs (before i high)
  unfold readStringUntil
  split
  · rename_i stored
    rw [clear] at stored
    contradiction
  · simp only [found]
    rw [if_neg (by omega),if_neg (by omega)]
    rfl

/- Every call without a stored error takes the first delimiter with a byte after it, or
nothing. -/
theorem readCases {s : State} (delim : Bytes) (clear : s.error = none) :
    (Missing delim s.readQueue ∧ readStringUntil s delim = .ok (none,s)) ∨
    ∃ front back, s.readQueue = front ++ delim ++ back ∧ back ≠ [] ∧
      (∀ j < front.length, ¬ OccursAt delim s.readQueue j) ∧
      readStringUntil s delim = .ok (some front,taking s delim front back) := by
  cases found : firstOccurrence delim s.readQueue with
  | none =>
    have absent := (firstOccurrenceNone delim s.readQueue).mp found
    have missing : Missing delim s.readQueue := fun i room => absent i (by omega)
    exact .inl ⟨missing,readNothing clear missing⟩
  | some i =>
    obtain ⟨inside,occurs,least⟩ := (firstOccurrenceExact delim s.readQueue i).mp found
    by_cases room : i + delim.length < s.readQueue.length
    · right
      refine ⟨_,_,(occursSplit occurs).symm,?_,?_,readFirst clear room occurs least⟩
      · intro empty
        have length := congrArg List.length empty
        rw [List.length_drop,List.length_nil] at length
        omega
      · intro j low
        rw [List.length_take] at low
        exact least j (by omega)
    · have missing : Missing delim s.readQueue := fun j early => least j (by omega)
      exact .inl ⟨missing,readNothing clear missing⟩

def ExtractsLine (s : State) (delim : Bytes) : Prop :=
  ∃ result t, readStringUntil s delim = .ok (result,t) ∧
    (result.isSome = true ↔ delim <:+: s.readQueue) ∧
    (∀ front, result = some front →
      (∀ j < front.length, ¬ OccursAt delim s.readQueue j) ∧
      s.readQueue = front ++ delim ++ t.readQueue) ∧
    (result = none → t.readQueue = s.readQueue)

def OnlyAtEnd (delim queue : Bytes) : Prop := delim <:+ queue ∧ Missing delim queue

theorem missingInfix {delim queue : Bytes} (missing : Missing delim queue) :
    delim <:+: queue ↔ delim <:+ queue := by
  constructor
  · intro inside
    obtain ⟨i,room,occurs⟩ := infixOccurs.mp inside
    have last : i + delim.length = queue.length := by
      by_contra early
      exact missing i (Nat.lt_of_le_of_ne room early) occurs
    have split := occursSplit occurs
    rw [last,List.drop_length,List.append_nil] at split
    exact ⟨_,split⟩
  · exact List.IsSuffix.isInfix

theorem lineExtraction (s : State) (delim : Bytes) (clear : s.error = none) :
    ExtractsLine s delim ↔ ¬ OnlyAtEnd delim s.readQueue := by
  rcases readCases delim clear with ⟨missing,nothing⟩ | ⟨front,back,split,more,first,taken⟩
  · constructor
    · rintro ⟨result,t,returned,exact_when,_,_⟩ ⟨suffix,_⟩
      rw [nothing] at returned
      cases Except.ok.inj returned
      exact absurd (exact_when.mpr suffix.isInfix) Bool.false_ne_true
    · intro elsewhere
      refine ⟨none,s,nothing,?_,?_,?_⟩
      · rw [missingInfix missing]
        exact ⟨fun no => absurd no Bool.false_ne_true,fun suffix => absurd ⟨suffix,missing⟩ elsewhere⟩
      · intro front found
        contradiction
      · intro _
        rfl
  · constructor
    · rintro _ ⟨_,missing⟩
      refine missing front.length ?_ ⟨back,?_⟩
      · have rest := List.length_pos_iff.mpr more
        rw [split,List.length_append,List.length_append]
        omega
      · rw [split,List.append_assoc,List.drop_append]
        simp
    · intro _
      refine ⟨_,_,taken,?_,?_,?_⟩
      · exact ⟨fun _ => ⟨front,back,split.symm⟩,fun _ => rfl⟩
      · intro result same
        cases Option.some.inj same
        exact ⟨first,split⟩
      · intro no
        contradiction

def received (queue : Bytes) : State := {opened with readQueue := queue}

theorem lineExtractionFollowed : ExtractsLine (received [97,10,98]) [10] :=
  (lineExtraction (received [97,10,98]) [10] rfl).mpr (fun ⟨suffix,_⟩ => by
    revert suffix
    unfold received
    decide)

theorem lineExtractionFails : ¬ ExtractsLine (received [97,10]) [10] := by
  rintro ⟨result,t,returned,exact_when,_,_⟩
  have nothing : readStringUntil (received [97,10]) [10] = .ok (none,received [97,10]) := rfl
  rw [nothing] at returned
  cases Except.ok.inj returned
  exact absurd (exact_when.mpr ⟨[97],[],rfl⟩) Bool.false_ne_true

end Chambermaid.AsyncRead
