import Mathlib.Data.List.Basic

/-! Occurrences of a pattern in a list, and the first one. -/
namespace Chambermaid.Occurrence
variable {α : Type}

def OccursAt (pattern s : List α) (i : Nat) : Prop := pattern <+: s.drop i

theorem occursSplit {pattern s : List α} {i : Nat} (occurs : OccursAt pattern s i) :
    s.take i ++ pattern ++ s.drop (i + pattern.length) = s := by
  obtain ⟨rest,split⟩ := occurs
  have after : s.drop (i + pattern.length) = rest := by
    rw [← List.drop_drop,← split,List.drop_append]
    simp
  rw [after,List.append_assoc,split,List.take_append_drop]

theorem infixOccurs {pattern s : List α} :
    pattern <:+: s ↔ ∃ i, i + pattern.length ≤ s.length ∧ OccursAt pattern s i := by
  constructor
  · rintro ⟨front,back,rfl⟩
    refine ⟨front.length,by simp,back,?_⟩
    rw [List.append_assoc,List.drop_append]
    simp
  · rintro ⟨i,_,occurs⟩
    exact ⟨s.take i,s.drop (i + pattern.length),occursSplit occurs⟩

theorem occursWithin {pattern s : List α} {i : Nat} (inside : i + pattern.length ≤ s.length)
    (rest : List α) : OccursAt pattern (s ++ rest) i ↔ OccursAt pattern s i := by
  unfold OccursAt
  rw [List.drop_append_of_le_length (by omega)]
  refine ⟨fun occurs => ?_,fun occurs => occurs.trans (List.prefix_append _ _)⟩
  exact List.prefix_of_prefix_length_le occurs (List.prefix_append _ _) (by simp; omega)

theorem occursBehind (pattern front s : List α) (i : Nat) :
    OccursAt pattern (front ++ s) (front.length + i) ↔ OccursAt pattern s i := by
  unfold OccursAt
  rw [List.drop_length_add_append]

theorem terminatedFirst {x : α} {front : List α} (absent : x ∉ front) (back : List α) :
    OccursAt [x] (front ++ x::back) front.length ∧
    ∀ j < front.length, ¬ OccursAt [x] (front ++ x::back) j := by
  refine ⟨⟨back,by simp⟩,?_⟩
  rintro j low ⟨rest,split⟩
  rw [List.drop_append_of_le_length (Nat.le_of_lt low),
    List.drop_eq_getElem_cons low,List.cons_append] at split
  exact absent ((List.cons.inj split).1 ▸ List.getElem_mem low)

variable [DecidableEq α]

instance (pattern s : List α) (i : Nat) : Decidable (OccursAt pattern s i) := by
  unfold OccursAt; infer_instance

def firstOccurrence (pattern : List α) : List α → Option Nat
  | [] => if pattern = [] then some 0 else none
  | x::s => if OccursAt pattern (x::s) 0 then some 0 else (firstOccurrence pattern s).map (· + 1)

theorem firstOccurrenceExact (pattern s : List α) (i : Nat) : firstOccurrence pattern s = some i ↔
    i ≤ s.length ∧ OccursAt pattern s i ∧ ∀ j < i, ¬ OccursAt pattern s j := by
  induction s generalizing i with
  | nil =>
    unfold firstOccurrence
    split
    · rename_i empty
      subst empty
      constructor
      · intro found
        cases Option.some.inj found
        exact ⟨Nat.le_refl _,List.nil_prefix,fun j low => by omega⟩
      · rintro ⟨inside,_,_⟩
        simp only [List.length_nil,Nat.le_zero] at inside
        rw [inside]
    · rename_i some
      constructor
      · intro found; contradiction
      · rintro ⟨_,occurs,_⟩
        have none : pattern = [] := by simpa [OccursAt] using occurs
        exact absurd none some
  | cons x s ih =>
    unfold firstOccurrence
    split
    · rename_i here
      constructor
      · intro found
        cases Option.some.inj found
        exact ⟨by omega,here,fun j low => by omega⟩
      · rintro ⟨_,_,least⟩
        cases i with
        | zero => rfl
        | succ i => exact absurd here (least 0 (by omega))
    · rename_i elsewhere
      cases i with
      | zero =>
        constructor
        · intro found
          simp at found
        · rintro ⟨_,occurs,_⟩
          exact absurd occurs elsewhere
      | succ i =>
        simp only [Option.map_eq_some_iff,Nat.add_right_cancel_iff,exists_eq_right,ih]
        constructor
        · rintro ⟨inside,occurs,least⟩
          refine ⟨by simpa using inside,occurs,?_⟩
          intro j low
          cases j with
          | zero => exact elsewhere
          | succ j => exact least j (by omega)
        · rintro ⟨inside,occurs,least⟩
          exact ⟨by simpa using inside,occurs,fun j low => least (j+1) (by omega)⟩

theorem firstOccurrenceNone (pattern s : List α) :
    firstOccurrence pattern s = none ↔ ∀ i ≤ s.length, ¬ OccursAt pattern s i := by
  constructor
  · intro none i inside occurs
    induction i using Nat.strongRecOn with
    | _ i ih =>
      have least := (firstOccurrenceExact pattern s i).mpr
        ⟨inside,occurs,fun j low at_j => ih j low (by omega) at_j⟩
      rw [none] at least
      contradiction
  · intro absent
    cases found : firstOccurrence pattern s with
    | none => rfl
    | some i =>
      obtain ⟨inside,occurs,_⟩ := (firstOccurrenceExact pattern s i).mp found
      exact absurd occurs (absent i inside)

end Chambermaid.Occurrence
