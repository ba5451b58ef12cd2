import Mathlib.Data.List.Basic

/-! Cutting a list at the positions of a separator. The positions are found in
one scan and the pieces are taken as slices between neighbouring positions; the
result is the list's `splitOn`, empty pieces included. -/
namespace Chambermaid.Locations
variable {α : Type}

def slice (s : List α) (start stop : Nat) : List α := (s.take stop).drop start

def between (s : List α) : List Nat → List (List α)
  | [] => []
  | [last] => [s.drop (last+1)]
  | here::next::rest => slice s (here+1) next :: between s (next::rest)

theorem sliceShift (head rest : List α) (start stop : Nat) :
    slice (head ++ rest) (start + head.length) (stop + head.length) = slice rest start stop := by
  simp only [slice,List.take_append,List.drop_append]
  have past : head.drop (start + head.length) = [] := List.drop_eq_nil_of_le (by omega)
  simp [List.take_of_length_le (Nat.le_add_left head.length stop),past]

theorem betweenShift (head rest : List α) (positions : List Nat) :
    between (head ++ rest) (positions.map (· + head.length)) = between rest positions := by
  induction positions with
  | nil => rfl
  | cons here tail ih =>
    cases tail with
    | nil =>
      simp only [List.map_cons,List.map_nil,between]
      rw [show here + head.length + 1 = head.length + (here+1) by omega,List.drop_append]
      simp
    | cons next tail =>
      simp only [List.map_cons,between] at ih ⊢
      rw [ih,show here + head.length + 1 = here + 1 + head.length by omega,sliceShift]

theorem betweenLength (s : List α) (positions : List Nat) :
    (between s positions).length = positions.length := by
  induction positions with
  | nil => rfl
  | cons here tail ih =>
    cases tail with
    | nil => rfl
    | cons next tail => rw [between,List.length_cons,ih]; rfl

variable [DecidableEq α]

def locations (sep : α) : Nat → List α → List Nat
  | _,[] => []
  | index,x::xs => if x = sep then index :: locations sep (index+1) xs else locations sep (index+1) xs

theorem locationsCount (sep : α) (index : Nat) (s : List α) :
    (locations sep index s).length = s.count sep := by
  induction s generalizing index with
  | nil => rfl
  | cons x xs ih =>
    unfold locations
    split
    · rename_i same
      subst same
      simp [ih]
    · rename_i other
      rw [ih,List.count_cons_of_ne other]

theorem locationsShift (sep : α) (index : Nat) (s : List α) :
    locations sep index s = (locations sep 0 s).map (· + index) := by
  induction s generalizing index with
  | nil => rfl
  | cons x xs ih =>
    unfold locations
    rw [ih (index+1),ih (0+1)]
    split <;> simp [Function.comp_def,Nat.add_comm,Nat.add_left_comm]

theorem locationsAbsent {sep : α} {s : List α} (index : Nat) (absent : sep ∉ s) :
    locations sep index s = [] := by
  apply List.eq_nil_of_length_eq_zero
  rw [locationsCount]
  exact List.count_eq_zero_of_not_mem absent

theorem locationsConcat (sep : α) (index : Nat) (head rest : List α) :
    locations sep index (head ++ rest) =
      locations sep index head ++ locations sep (index + head.length) rest := by
  induction head generalizing index with
  | nil => rfl
  | cons x xs ih =>
    have width : index + (x::xs).length = index + 1 + xs.length := by
      rw [List.length_cons]; omega
    rw [List.cons_append,width]
    simp only [locations]
    split <;> simp [ih]

theorem locationsAppend {sep : α} (head rest : List α) (absent : sep ∉ head) :
    locations sep 0 (head ++ sep::rest) =
      head.length :: (locations sep 0 rest).map (· + (head.length+1)) := by
  induction head with
  | nil => simp only [List.nil_append,locations,if_pos,List.length_nil,Nat.zero_add]
           rw [locationsShift sep 1]
  | cons x xs ih =>
    have other : x ≠ sep := fun same => absent (by simp [same])
    have tail := ih (fun member => absent (by simp [member]))
    simp only [List.cons_append,locations,if_neg other]
    rw [locationsShift sep (0+1),tail]
    simp [Function.comp_def,Nat.add_assoc]

theorem tailsAppend {sep : α} (head rest : List α) (absent : sep ∉ head) :
    (locations sep 0 (head ++ sep::rest)).map (fun i => (head ++ sep::rest).drop (i+1)) =
      rest :: (locations sep 0 rest).map (fun i => rest.drop (i+1)) := by
  have after : ∀ i, (head ++ sep::rest).drop (i + (head.length+1) + 1) = rest.drop (i+1) := by
    intro i
    rw [show head ++ sep::rest = (head ++ [sep]) ++ rest by simp,
      show i + (head.length+1) + 1 = (head ++ [sep]).length + (i+1) by simp; omega,List.drop_append]
    simp
  rw [locationsAppend head rest absent,List.map_cons,List.map_map]
  congr 1
  · simp
  · exact List.map_congr_left fun i _ => after i

theorem piecesSplit {sep : α} (s : List α) {first : Nat} {positions : List Nat}
    (found : locations sep 0 s = first::positions) :
    slice s 0 first :: between s (first::positions) = s.splitOn sep := by
  induction hn : s.length using Nat.strongRecOn generalizing s first positions with
  | _ n ih =>
    have member : sep ∈ s := by
      by_contra absent
      simp [locationsAbsent 0 absent] at found
    obtain ⟨head,rest,rfl,absent⟩ := List.eq_append_cons_of_mem member
    rw [locationsAppend head rest absent] at found
    obtain ⟨rfl,rfl⟩ := List.cons.inj found
    rw [List.splitOn_append_cons_self_of_not_mem absent]
    have front : slice (head ++ sep::rest) 0 head.length = head := by simp [slice]
    have back : between (head ++ sep::rest)
        (head.length :: (locations sep 0 rest).map (· + (head.length+1))) = rest.splitOn sep := by
      have regroup : head ++ sep::rest = (head ++ [sep]) ++ rest := by simp
      have width : head.length + 1 = (head ++ [sep]).length := by simp
      cases later : locations sep 0 rest with
      | nil =>
        have alone : sep ∉ rest := by
          intro inside
          have count := locationsCount sep 0 rest
          rw [later] at count
          exact absurd inside (List.count_eq_zero.mp count.symm)
        rw [List.splitOn_eq_singleton alone]
        simp [between]
      | cons next positions =>
        rw [← ih rest.length (by rw [← hn]; simp; omega) rest later rfl]
        rw [List.map_cons,between,regroup,width]
        congr 1
        · have start := sliceShift (head ++ [sep]) rest 0 next
          rw [Nat.zero_add] at start
          exact start
        · exact betweenShift (head ++ [sep]) rest (next::positions)
    rw [front,back]

theorem splitCount (sep : α) (s : List α) : (s.splitOn sep).length = s.count sep + 1 := by
  rw [← locationsCount sep 0 s]
  cases found : locations sep 0 s with
  | nil =>
    have absent : sep ∉ s := by
      rw [← List.count_eq_zero,← locationsCount sep 0 s,found]
      rfl
    rw [List.splitOn_eq_singleton absent]
    rfl
  | cons first positions => rw [← piecesSplit s found,List.length_cons,betweenLength]

end Chambermaid.Locations
