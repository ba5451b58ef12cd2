import Mathlib.Data.List.Nodup

/-! Tables as lists of rows with a key. A row is put by changing every row with its key, or
by appending it where there is none. -/
namespace Chambermaid.Keyed
variable {α κ : Type} [DecidableEq κ] (key : α → κ)

def withKey (k : κ) (rows : List α) : List α := rows.filter fun row => decide (key row = k)

def put (x : α) (rows : List α) : List α :=
  if (withKey key (key x) rows).isEmpty then rows ++ [x]
  else rows.map fun row => if key row = key x then x else row

def putAll (xs rows : List α) : List α := xs.foldl (fun rows x => put key x rows) rows

def Settled (x : α) (rows : List α) : Prop := x ∈ rows ∧ ∀ row ∈ rows, key row = key x → row = x

variable {key}

theorem withKeyEmpty {k : κ} {rows : List α} :
    (withKey key k rows).isEmpty = true ↔ ∀ row ∈ rows, key row ≠ k := by
  unfold withKey
  rw [List.isEmpty_iff,List.filter_eq_nil_iff]
  simp

theorem putKeys (x : α) (rows : List α) :
    (put key x rows).map key = rows.map key ∨
    ((∀ row ∈ rows, key row ≠ key x) ∧ (put key x rows).map key = rows.map key ++ [key x]) := by
  unfold put
  split
  · rename_i empty
    exact .inr ⟨withKeyEmpty.mp empty,by simp⟩
  · refine .inl ?_
    rw [List.map_map]
    refine List.map_congr_left fun row _ => ?_
    by_cases same : key row = key x
    · simp [same]
    · simp [same]

theorem putUnique {rows : List α} (x : α) (unique : (rows.map key).Nodup) :
    ((put key x rows).map key).Nodup := by
  rcases @putKeys _ _ _ key x rows with same | ⟨fresh,longer⟩
  · rwa [same]
  · rw [longer]
    refine List.nodup_append.mpr ⟨unique,List.nodup_singleton _,?_⟩
    intro k old l new same
    obtain ⟨row,member,rfl⟩ := List.mem_map.mp old
    exact fresh row member (same.trans (List.mem_singleton.mp new))

theorem putSettles (x : α) (rows : List α) : Settled key x (put key x rows) := by
  unfold put
  split
  · rename_i empty
    refine ⟨List.mem_append_right _ (List.mem_singleton.mpr rfl),fun row member same => ?_⟩
    rcases List.mem_append.mp member with old | new
    · exact absurd same (withKeyEmpty.mp empty row old)
    · exact List.mem_singleton.mp new
  · rename_i some
    have has : ∃ row ∈ rows, key row = key x := by
      by_contra none
      exact some (withKeyEmpty.mpr fun row member same => none ⟨row,member,same⟩)
    obtain ⟨old,member,same⟩ := has
    refine ⟨List.mem_map.mpr ⟨old,member,if_pos same⟩,fun row changed has => ?_⟩
    obtain ⟨before,_,rfl⟩ := List.mem_map.mp changed
    split at has
    · exact if_pos (by assumption)
    · exact absurd has (by assumption)

theorem settledPut {x : α} {rows : List α} (settled : Settled key x rows) : put key x rows = rows := by
  obtain ⟨member,only⟩ := settled
  have some : ¬ (withKey key (key x) rows).isEmpty = true :=
    fun empty => withKeyEmpty.mp empty x member rfl
  have same : ∀ row ∈ rows, (if key row = key x then x else row) = id row := by
    intro row there
    split
    · exact (only row there (by assumption)).symm
    · rfl
  unfold put
  rw [if_neg some,List.map_congr_left same,List.map_id]

theorem putOthers {x : α} {k : κ} (other : k ≠ key x) (rows : List α) :
    withKey key k (put key x rows) = withKey key k rows := by
  unfold put
  split
  · have apart : decide (key x = k) = false := decide_eq_false fun same => other same.symm
    simp [withKey,apart]
  · clear * - other
    induction rows with
    | nil => rfl
    | cons row rows ih =>
      unfold withKey at ih ⊢
      rw [List.map_cons,List.filter_cons,List.filter_cons,ih]
      by_cases same : key row = key x
      · have apart : key row ≠ k := fun has => other (has.symm.trans same)
        rw [if_pos same,if_neg (by simpa using other.symm),if_neg (by simpa using apart)]
      · rw [if_neg same]

theorem settledStays {x y : α} {rows : List α} (agree : key y = key x → y = x)
    (settled : Settled key x rows) : Settled key x (put key y rows) := by
  by_cases same : key y = key x
  · rw [agree same]
    exact putSettles x rows
  · have others : withKey key (key x) (put key y rows) = withKey key (key x) rows :=
      putOthers (fun k => same k.symm) rows
    have member : ∀ row, (row ∈ put key y rows ∧ key row = key x) ↔ (row ∈ rows ∧ key row = key x) := by
      intro row
      have both := congrArg (row ∈ ·) others
      simpa [withKey] using both
    exact ⟨((member x).mpr ⟨settled.1,rfl⟩).1,
      fun row there has => settled.2 row ((member row).mp ⟨there,has⟩).1 has⟩

def Agree (key : α → κ) (xs : List α) : Prop := ∀ x ∈ xs, ∀ y ∈ xs, key x = key y → x = y

theorem putAllStays {x : α} {xs rows : List α} (agree : ∀ y ∈ xs, key y = key x → y = x)
    (settled : Settled key x rows) : Settled key x (putAll key xs rows) := by
  induction xs generalizing rows with
  | nil => exact settled
  | cons y ys ih =>
    obtain ⟨first,others⟩ := List.forall_mem_cons.mp agree
    exact ih others (settledStays first settled)

theorem putAllSettles {x : α} {xs : List α} (agree : Agree key xs) (member : x ∈ xs) (rows : List α) :
    Settled key x (putAll key xs rows) := by
  induction xs generalizing rows with
  | nil => contradiction
  | cons y ys ih =>
    have later : Agree key ys := fun a left b right =>
      agree a (List.mem_cons_of_mem _ left) b (List.mem_cons_of_mem _ right)
    rcases List.mem_cons.mp member with here | there
    · subst here
      have first : Settled key x (put key x rows) := putSettles x rows
      have agrees : ∀ b ∈ ys, key b = key x → b = x := fun b right same =>
        agree b (List.mem_cons_of_mem x right) x member same
      have rest : Settled key x (putAll key ys (put key x rows)) := putAllStays agrees first
      exact rest
    · exact ih later there (put key y rows)

theorem settledAll {xs rows : List α} (settled : ∀ x ∈ xs, Settled key x rows) :
    putAll key xs rows = rows := by
  induction xs with
  | nil => rfl
  | cons y ys ih =>
    obtain ⟨first,others⟩ := List.forall_mem_cons.mp settled
    unfold putAll
    rw [List.foldl_cons,settledPut first]
    exact ih others

theorem putAllAgain {xs ys : List α} (agree : Agree key (xs ++ ys)) (rows : List α) :
    putAll key (xs ++ ys) (putAll key xs rows) = putAll key (xs ++ ys) rows := by
  have front : Agree key xs := fun a left b right =>
    agree a (List.mem_append_left _ left) b (List.mem_append_left _ right)
  have again : putAll key xs (putAll key xs rows) = putAll key xs rows :=
    settledAll fun x member => putAllSettles front member rows
  unfold putAll at again ⊢
  rw [List.foldl_append,again,List.foldl_append]

theorem putAllUnique {xs rows : List α} (unique : (rows.map key).Nodup) :
    ((putAll key xs rows).map key).Nodup := by
  induction xs generalizing rows with
  | nil => exact unique
  | cons y ys ih => exact ih (putUnique y unique)

theorem putAllOthers {xs : List α} {k : κ} (other : ∀ x ∈ xs, k ≠ key x) (rows : List α) :
    withKey key k (putAll key xs rows) = withKey key k rows := by
  induction xs generalizing rows with
  | nil => rfl
  | cons y ys ih =>
    obtain ⟨first,others⟩ := List.forall_mem_cons.mp other
    exact (ih others (put key y rows)).trans (putOthers first rows)

theorem settledOnly {x : α} {rows : List α} (settled : Settled key x rows)
    (unique : (rows.map key).Nodup) : withKey key (key x) rows = [x] := by
  obtain ⟨member,only⟩ := settled
  have all : ∀ row ∈ withKey key (key x) rows, row = x := by
    intro row there
    obtain ⟨there,has⟩ := List.mem_filter.mp there
    exact only row there (by simpa using has)
  have same := List.eq_replicate_of_mem all
  have once : (withKey key (key x) rows).Nodup := unique.of_map.filter _
  have here : x ∈ withKey key (key x) rows := List.mem_filter.mpr ⟨member,by simp⟩
  have some := List.length_pos_of_mem here
  rw [same,List.nodup_replicate] at once
  rw [same,show (withKey key (key x) rows).length = 1 by omega,List.replicate_one]

end Chambermaid.Keyed
