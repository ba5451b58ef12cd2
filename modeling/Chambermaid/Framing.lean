import Chambermaid.Occurrence

/-! Cutting a stream into frames at a delimiter. A frame ends at the first delimiter
there is, and is cut only once something stands behind that delimiter; so what is cut
early is what would be cut with all of the stream there. -/
namespace Chambermaid.Framing
open Occurrence
variable {α : Type}

inductive Cuts (delim : List α) : List α → List (List α) → List α → Prop where
  | done (rest : List α) : Cuts delim rest [] rest
  | next {front stream : List α} {frames : List (List α)} {rest : List α}
      (first : ∀ j < front.length, ¬ OccursAt delim (front ++ delim) j) (more : stream ≠ [])
      (later : Cuts delim stream frames rest) :
      Cuts delim (front ++ delim ++ stream) (front::frames) rest

def NoCut (delim rest : List α) : Prop :=
  ∀ i, i + delim.length < rest.length → ¬ OccursAt delim rest i

theorem cutsExtend {delim stream rest : List α} {frames : List (List α)}
    (cuts : Cuts delim stream frames rest) (arrived : List α) :
    Cuts delim (stream ++ arrived) frames (rest ++ arrived) := by
  induction cuts with
  | done rest => exact .done _
  | next first more later ih =>
    rw [List.append_assoc _ _ arrived]
    exact .next first (List.append_ne_nil_of_left_ne_nil more arrived) ih

theorem cutsAgain {delim stream front back : List α} {frames : List (List α)}
    (cuts : Cuts delim stream frames (front ++ delim ++ back))
    (first : ∀ j < front.length, ¬ OccursAt delim (front ++ delim ++ back) j) (more : back ≠ []) :
    Cuts delim stream (frames ++ [front]) back := by
  generalize same : front ++ delim ++ back = rest at cuts
  induction cuts with
  | done rest =>
    subst same
    refine .next ?_ more (.done back)
    intro j low occurs
    exact first j low ((occursWithin (by simp; omega) back).mpr occurs)
  | next before some later ih => exact .next before some (ih same)

theorem frontLength {delim front stream other tail : List α}
    (same : front ++ delim ++ stream = other ++ delim ++ tail)
    (first : ∀ j < other.length, ¬ OccursAt delim (other ++ delim) j) :
    other.length ≤ front.length := by
  by_contra shorter
  have occurs : OccursAt delim (front ++ delim ++ stream) front.length := ⟨stream,by simp⟩
  rw [same,occursWithin (by simp; omega)] at occurs
  exact first front.length (by omega) occurs

theorem noCutDone {delim front stream : List α} (ends : NoCut delim (front ++ delim ++ stream))
    (more : stream ≠ []) : False := by
  have rest := List.length_pos_iff.mpr more
  exact ends front.length (by simp; omega) ⟨stream,by simp⟩

theorem cutsUnique {delim stream : List α} {frames others : List (List α)} {rest left : List α}
    (cuts : Cuts delim stream frames rest) (again : Cuts delim stream others left)
    (ends : NoCut delim rest) (stops : NoCut delim left) : frames = others ∧ rest = left := by
  induction cuts generalizing others left with
  | done rest =>
    cases again with
    | done => exact ⟨rfl,rfl⟩
    | next first more later => exact (noCutDone ends more).elim
  | @next front stream frames rest first more later ih =>
    generalize same : front ++ delim ++ stream = whole at again
    cases again with
    | done =>
      rw [← same] at stops
      exact (noCutDone stops more).elim
    | @next other tail others left before some after =>
      have length := Nat.le_antisymm (frontLength same.symm first) (frontLength same before)
      rw [List.append_assoc,List.append_assoc] at same
      obtain ⟨fronts,backs⟩ := List.append_inj same length
      have tails := List.append_cancel_left backs
      subst fronts tails
      obtain ⟨frames,rests⟩ := ih after ends stops
      exact ⟨congrArg _ frames,rests⟩

def terminated (x : α) (items : List (List α)) : List α := items.flatMap (· ++ [x])

theorem firstAbsent {x : α} {front : List α}
    (first : ∀ j < front.length, ¬ OccursAt [x] (front ++ [x]) j) : x ∉ front := by
  intro inside
  obtain ⟨before,after,rfl⟩ := List.append_of_mem inside
  refine first before.length (by simp) ⟨after ++ [x],?_⟩
  simp

theorem splitUnique {x : α} {front other back tail : List α} (plain : x ∉ front) (clean : x ∉ other)
    (same : front ++ x::back = other ++ x::tail) : front = other ∧ back = tail := by
  induction front generalizing other with
  | nil =>
    cases other with
    | nil => exact ⟨rfl,(List.cons.inj same).2⟩
    | cons y other => exact absurd ((List.cons.inj same).1 ▸ List.mem_cons_self) clean
  | cons y front ih =>
    cases other with
    | nil => exact absurd ((List.cons.inj same).1 ▸ List.mem_cons_self) plain
    | cons z other =>
      obtain ⟨rfl,tails⟩ := List.cons.inj same
      obtain ⟨rfl,backs⟩ := ih (mt (List.mem_cons_of_mem y) plain) (mt (List.mem_cons_of_mem y) clean) tails
      exact ⟨rfl,backs⟩

theorem cutsTerminated {x : α} {stream rest tail : List α} {frames : List (List α)}
    (cuts : Cuts [x] stream frames rest) {items : List (List α)} (plain : ∀ item ∈ items, x ∉ item)
    (whole : stream ++ tail = terminated x items) :
    frames = items.take frames.length ∧ frames.length ≤ items.length ∧
    rest ++ tail = terminated x (items.drop frames.length) := by
  induction cuts generalizing items with
  | done rest => exact ⟨rfl,Nat.zero_le _,whole⟩
  | @next front stream frames rest first more later ih =>
    cases items with
    | nil =>
      have empty := congrArg List.length whole
      simp [terminated] at empty
    | cons item items =>
      obtain ⟨here,others⟩ := List.forall_mem_cons.mp plain
      have split : front ++ x::(stream ++ tail) = item ++ x::terminated x items := by
        simpa [terminated] using whole
      obtain ⟨rfl,same⟩ := splitUnique (firstAbsent first) here split
      obtain ⟨taken,inside,left⟩ := ih others same
      exact ⟨congrArg _ taken,Nat.succ_le_succ inside,left⟩

end Chambermaid.Framing
