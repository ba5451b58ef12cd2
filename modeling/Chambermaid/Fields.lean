import Mathlib.Data.List.Nodup

/-! Folding changes over a record. A change that writes one field whatever was there, and no
other, is known by its field and what it writes; changes of distinct fields can be made in
any order. -/
namespace Chambermaid.Fields
variable {σ κ γ α ε : Type}

def Writes (get : σ → κ → γ) (change : σ → σ) (field : κ) : Prop :=
  (∀ s t, get (change s) field = get (change t) field) ∧
    ∀ s other, other ≠ field → get (change s) other = get s other

def Extensional (get : σ → κ → γ) : Prop := ∀ s t, (∀ field, get s field = get t field) → s = t

/-! Changes that may be refused; whether they are has nothing to do with the record. -/
def changeAll (change : α → Except ε (σ → σ)) (s : σ) (entries : List α) : Except ε σ :=
  entries.foldlM (fun s e => (change e).map fun f => f s) s

variable {change : α → Except ε (σ → σ)} {get : σ → κ → γ} {field : α → κ}

theorem changeNext {s t : σ} {e : α} {entries : List α} :
    changeAll change s (e::entries) = .ok t ↔
      ∃ f, change e = .ok f ∧ changeAll change (f s) entries = .ok t := by
  unfold changeAll
  rw [List.foldlM_cons]
  cases change e with
  | error x => exact ⟨fun same => (by cases same),fun ⟨_,same,_⟩ => (by cases same)⟩
  | ok f => exact ⟨fun rest => ⟨f,rfl,rest⟩,fun ⟨_,same,rest⟩ => (by cases same; exact rest)⟩

theorem changeRefused {s : σ} {x : ε} {entries : List α} : changeAll change s entries = .error x ↔
    ∃ before e after, entries = before ++ e::after ∧ (∀ b ∈ before, ∃ f, change b = .ok f) ∧
      change e = .error x := by
  induction entries generalizing s with
  | nil => exact ⟨fun same => (by cases same),fun ⟨before,_,_,same,_⟩ => (by cases before <;> cases same)⟩
  | cons e entries ih =>
    constructor
    · intro refused
      cases here : change e with
      | error y =>
        have same : changeAll change s (e::entries) = .error y := by
          unfold changeAll
          rw [List.foldlM_cons,here]
          rfl
        rw [same] at refused
        cases refused
        exact ⟨[],e,entries,rfl,fun b member => absurd member List.not_mem_nil,here⟩
      | ok f =>
        have rest : changeAll change (f s) entries = .error x := by
          rw [← refused]
          unfold changeAll
          rw [List.foldlM_cons,here]
          rfl
        obtain ⟨before,last,after,split,fine,refuses⟩ := ih.mp rest
        exact ⟨e::before,last,after,by rw [split]; rfl,List.forall_mem_cons.mpr ⟨⟨f,here⟩,fine⟩,refuses⟩
    · rintro ⟨before,last,after,split,fine,refuses⟩
      unfold changeAll
      rw [List.foldlM_cons]
      cases before with
      | nil =>
        cases split
        rw [refuses]
        rfl
      | cons b before =>
        cases split
        obtain ⟨⟨f,here⟩,others⟩ := List.forall_mem_cons.mp fine
        rw [here]
        exact ih.mpr ⟨before,last,after,rfl,others,refuses⟩

theorem changesHold (writes : ∀ e f, change e = .ok f → Writes get f (field e)) {s t : σ}
    {entries : List α} (distinct : (entries.map field).Nodup)
    (changed : changeAll change s entries = .ok t) :
    (∀ e ∈ entries, ∃ f, change e = .ok f ∧ ∀ u, get t (field e) = get (f u) (field e)) ∧
    ∀ other, other ∉ entries.map field → get t other = get s other := by
  induction entries generalizing s with
  | nil =>
    cases changed
    exact ⟨fun e member => absurd member List.not_mem_nil,fun _ _ => rfl⟩
  | cons e entries ih =>
    obtain ⟨fresh,distinct⟩ := List.nodup_cons.mp distinct
    obtain ⟨f,here,rest⟩ := changeNext.mp changed
    obtain ⟨hold,others⟩ := ih distinct rest
    obtain ⟨constant,frame⟩ := writes e f here
    refine ⟨List.forall_mem_cons.mpr ⟨⟨f,here,fun u => ?_⟩,hold⟩,fun other absent => ?_⟩
    · rw [others (field e) fresh]
      exact constant s u
    · obtain ⟨different,absent⟩ := not_or.mp (mt List.mem_cons.mpr absent)
      rw [others other absent]
      exact frame s other different

theorem changeStays (extensional : Extensional get)
    (writes : ∀ e f, change e = .ok f → Writes get f (field e)) {t : σ} {e : α} {f : σ → σ} (made : change e = .ok f)
    (holds : ∀ u, get t (field e) = get (f u) (field e)) : f t = t := by
  classical
  refine extensional _ _ fun other => ?_
  by_cases same : other = field e
  · rw [same]
    exact (holds t).symm
  · exact (writes e f made).2 t other same

theorem changeAccepted {s : σ} {entries : List α} :
    (∃ t, changeAll change s entries = .ok t) ↔ ∀ e ∈ entries, ∃ f, change e = .ok f := by
  induction entries generalizing s with
  | nil => exact ⟨fun _ e member => absurd member List.not_mem_nil,fun _ => ⟨s,rfl⟩⟩
  | cons e entries ih =>
    rw [List.forall_mem_cons]
    constructor
    · rintro ⟨t,changed⟩
      obtain ⟨f,here,rest⟩ := changeNext.mp changed
      exact ⟨⟨f,here⟩,ih.mp ⟨t,rest⟩⟩
    · rintro ⟨⟨f,here⟩,others⟩
      have rest : ∃ t, changeAll change (f s) entries = .ok t := ih.mpr others
      obtain ⟨t,rest⟩ := rest
      exact ⟨t,changeNext.mpr ⟨f,here,rest⟩⟩

theorem changePerm (extensional : Extensional get)
    (writes : ∀ e f, change e = .ok f → Writes get f (field e)) {s t : σ} {entries others : List α} (distinct : (entries.map field).Nodup)
    (perm : entries.Perm others) (changed : changeAll change s entries = .ok t) :
    changeAll change s others = .ok t := by
  classical
  have fine : ∀ e ∈ others, ∃ f, change e = .ok f := fun e member =>
    changeAccepted.mp ⟨t,changed⟩ e (perm.mem_iff.mpr member)
  have accepted : ∃ u, changeAll change s others = .ok u := changeAccepted.mpr fine
  obtain ⟨u,again⟩ := accepted
  obtain ⟨hold,frame⟩ := changesHold writes distinct changed
  obtain ⟨holds,frames⟩ := changesHold writes ((perm.map field).nodup distinct) again
  have same : u = t := by
    refine extensional _ _ fun other => ?_
    by_cases written : other ∈ others.map field
    · obtain ⟨e,member,rfl⟩ := List.mem_map.mp written
      obtain ⟨f,made,here⟩ := holds e member
      obtain ⟨g,again,there⟩ := hold e (perm.mem_iff.mpr member)
      cases made.symm.trans again
      rw [here s,there s]
    · rw [frames other written,frame other (fun old => written ((perm.map field).mem_iff.mp old))]
  rw [← same]
  exact again

end Chambermaid.Fields
