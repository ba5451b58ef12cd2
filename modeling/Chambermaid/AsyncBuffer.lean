import Chambermaid.AsyncWrite

/-! The buffer under an outstanding write. `write_buffer_size` says both whether a write
is pending and how long it is, so an empty write leaves the port looking free, and
closing makes it look free at any time. -/
namespace Chambermaid.AsyncBuffer
open Runs AsyncImpl AsyncStep AsyncWrite

def starts (s : State) : Nat := s.posted.count .startWrite

def outstanding (s : State) : Nat := starts s + s.writes.length

structure OneWrite (s : State) : Prop where
  single : outstanding s ≤ 1
  owned : ∀ u ∈ s.writes, u.buffer = s.writeBuffer

instance (s : State) : Decidable (OneWrite s) :=
  decidable_of_iff (outstanding s ≤ 1 ∧ ∀ u ∈ s.writes, u.buffer = s.writeBuffer)
    ⟨fun ⟨single,owned⟩ => ⟨single,owned⟩,fun ⟨single,owned⟩ => ⟨single,owned⟩⟩

def Undisturbed (s t : State) : Prop := s.writes ≠ [] → t.writeBuffer = s.writeBuffer

def Proper (s : State) (e : Event) : Prop := ∀ t, step s e = some t → OneWrite t ∧ Undisturbed s t

/-! A new buffer is taken only when nothing is outstanding, and the buffer is given back
only when no write on it is. -/
def Careful (s : State) : Event → Prop
  | .write _ => s.error = none → s.writeBufferSize = 0 → outstanding s = 0
  | .run (.finishWrite none _) => s.writeQueue ≠ [] → outstanding s = 0
  | .close _ => s.isOpen = true → ∀ u ∈ s.writes, u.buffer = none
  | .openImpl _ _ => s.isOpen = true → ∀ u ∈ s.writes, u.buffer = none
  | _ => True

theorem quietly {s t : State} (one : OneWrite s) (writes : t.writes = s.writes)
    (buffer : t.writeBuffer = s.writeBuffer) (posted : starts t ≤ starts s) :
    OneWrite t ∧ Undisturbed s t := by
  refine ⟨⟨?_,?_⟩,fun _ => buffer⟩
  · have single := one.single
    unfold outstanding at single ⊢
    rw [writes]
    omega
  · rw [writes,buffer]
    exact one.owned

theorem startsPost (s : State) {h : Handler} (other : h ≠ .startWrite) : starts (post s h) = starts s := by
  unfold starts post
  rw [List.count_append,List.count_singleton]
  simp [other]

theorem renewing {s t : State} (writes : t.writes = s.writes) (posted : starts t = starts s + 1) :
    outstanding s = 0 ↔ OneWrite t ∧ Undisturbed s t := by
  unfold outstanding
  constructor
  · intro none
    have idle : s.writes = [] := List.length_eq_zero_iff.mp (by omega)
    refine ⟨⟨?_,?_⟩,fun some => absurd idle some⟩
    · unfold outstanding
      rw [writes]
      omega
    · intro u inside
      rw [writes,idle] at inside
      contradiction
  · rintro ⟨⟨single,_⟩,_⟩
    unfold outstanding at single
    rw [writes] at single
    omega

theorem closedWrites {s : State} (closes : Bool) (wasOpen : s.isOpen = true) :
    (close s closes).state.writeBuffer = none ∧ starts (close s closes).state = starts s ∧
    ((close s closes).state.writes = [] ∨ (close s closes).state.writes = s.writes) := by
  unfold close closePort
  rw [if_pos wasOpen]
  cases closes with
  | false => exact ⟨rfl,rfl,.inr rfl⟩
  | true =>
    refine ⟨rfl,?_,.inl rfl⟩
    have aborted : (s.writes.map (fun _ => Handler.finishWrite (some .operationAborted) [])).count
        .startWrite = 0 := by
      rw [List.count_eq_zero]
      intro inside
      obtain ⟨_,_,same⟩ := List.mem_map.mp inside
      contradiction
    simp only [starts,if_true,List.count_append,List.count_replicate,aborted]
    rfl

theorem openedWrites (s : State) (closes : Bool) (outcome : Configure) :
    (openImpl s closes outcome).state.writeBuffer = (close s closes).state.writeBuffer ∧
    starts (openImpl s closes outcome).state = starts (close s closes).state ∧
    (openImpl s closes outcome).state.writes = (close s closes).state.writes := by
  rw [openCases]
  split
  · exact ⟨rfl,rfl,rfl⟩
  · split
    · exact ⟨rfl,rfl,rfl⟩
    · split
      · exact ⟨rfl,rfl,rfl⟩
      · refine ⟨rfl,?_,rfl⟩
        unfold started
        exact startsPost {(close s closes).state with
          portOpen := true, isOpen := true, running := true} (by simp)

theorem releasing {s t : State} (one : OneWrite s) (wasOpen : s.isOpen = true)
    (buffer : t.writeBuffer = none) (posted : starts t = starts s)
    (writes : t.writes = [] ∨ t.writes = s.writes) :
    (s.isOpen = true → ∀ u ∈ s.writes, u.buffer = none) ↔ OneWrite t ∧ Undisturbed s t := by
  have single := one.single
  unfold outstanding at single
  constructor
  · intro careful
    have unowned := careful wasOpen
    refine ⟨⟨?_,?_⟩,?_⟩
    · unfold outstanding
      rcases writes with none | same
      · rw [posted,none,List.length_nil]
        omega
      · rw [posted,same]
        exact single
    · intro u inside
      rcases writes with none | same
      · rw [none] at inside
        contradiction
      · rw [same] at inside
        rw [unowned u inside,buffer]
    · intro some
      obtain ⟨u,inside⟩ := List.exists_mem_of_ne_nil _ some
      rw [buffer,← one.owned u inside,unowned u inside]
  · rintro ⟨_,undisturbed⟩ _ u inside
    rw [one.owned u inside,← undisturbed (List.ne_nil_of_mem inside),buffer]

theorem closeExactly {s : State} (one : OneWrite s) (closes : Bool) :
    (s.isOpen = true → ∀ u ∈ s.writes, u.buffer = none) ↔
      OneWrite (close s closes).state ∧ Undisturbed s (close s closes).state := by
  by_cases wasOpen : s.isOpen = true
  · obtain ⟨buffer,posted,writes⟩ := closedWrites closes wasOpen
    exact releasing one wasOpen buffer posted writes
  · have shut : s.isOpen = false := Bool.not_eq_true _ ▸ wasOpen
    rw [closeClosed shut]
    exact iff_of_true (fun opens => absurd opens wasOpen) (quietly one rfl rfl (Nat.le_refl _))

theorem openExactly {s : State} (one : OneWrite s) (closes : Bool) (outcome : Configure) :
    (s.isOpen = true → ∀ u ∈ s.writes, u.buffer = none) ↔
      OneWrite (openImpl s closes outcome).state ∧ Undisturbed s (openImpl s closes outcome).state := by
  obtain ⟨buffer,posted,writes⟩ := openedWrites s closes outcome
  have same : OneWrite (openImpl s closes outcome).state ↔ OneWrite (close s closes).state := by
    constructor
    · rintro ⟨single,owned⟩
      unfold outstanding at single
      rw [posted,writes] at single
      rw [buffer,writes] at owned
      exact ⟨single,owned⟩
    · rintro ⟨single,owned⟩
      unfold outstanding at single
      rw [← posted,← writes] at single
      rw [← buffer,← writes] at owned
      exact ⟨single,owned⟩
  rw [closeExactly one closes,same]
  unfold Undisturbed
  rw [buffer]

theorem finishing {s t : State} {u : Transfer} (one : OneWrite s) (inside : u ∈ s.writes)
    (writes : t.writes = s.writes.erase u) (buffer : t.writeBuffer = s.writeBuffer)
    (posted : starts t = starts s) : OneWrite t ∧ Undisturbed s t := by
  refine ⟨⟨?_,?_⟩,fun _ => buffer⟩
  · have single := one.single
    unfold outstanding at single ⊢
    rw [posted,writes,List.length_erase_of_mem inside]
    omega
  · intro v remains
    rw [writes] at remains
    rw [buffer]
    exact one.owned v (List.mem_of_mem_erase remains)

theorem handledExactly {s t : State} {h : Handler} (one : OneWrite s) (posted : h ∈ s.posted)
    (handled : Handled {s with posted := s.posted.erase h} h t) :
    Careful s (.run h) ↔ OneWrite t ∧ Undisturbed s t := by
  have dropped : (s.posted.erase h).count .startWrite ≤ s.posted.count .startWrite :=
    List.erase_sublist.count_le _
  cases handled with
  | readStarts _ => exact iff_of_true trivial (quietly one rfl rfl dropped)
  | readFailed ec arrived => exact iff_of_true trivial (quietly one rfl rfl dropped)
  | writeFailed ec moved => exact iff_of_true trivial (quietly one rfl rfl dropped)
  | readRefused _ =>
    refine iff_of_true trivial (quietly one rfl rfl ?_)
    rw [startsPost _ (by simp)]
    exact dropped
  | appends arrived =>
    refine iff_of_true trivial (quietly one rfl rfl ?_)
    unfold appending
    rw [startsPost _ (by simp)]
    exact dropped
  | writeRefused _ =>
    refine iff_of_true trivial (quietly one rfl rfl ?_)
    rw [startsPost _ (by simp)]
    exact dropped
  | writeStarts _ =>
    have single := one.single
    have positive : 0 < s.posted.count .startWrite := List.count_pos_iff.mpr posted
    unfold outstanding starts at single
    have idle : s.writes = [] := List.length_eq_zero_iff.mp (by omega)
    refine iff_of_true trivial ⟨⟨?_,?_⟩,fun some => absurd idle some⟩
    · simp only [outstanding,starts,List.count_erase_self,idle,List.nil_append,List.length_singleton]
      omega
    · intro u inside
      simp only [idle,List.nil_append,List.mem_singleton] at inside
      rw [inside]
  | empties moved empty =>
    exact iff_of_true (fun more => absurd empty more) (quietly one rfl rfl dropped)
  | refills moved more =>
    have other : (s.posted.erase (.finishWrite none moved)).count .startWrite =
        s.posted.count .startWrite := List.count_erase_of_ne (by simp)
    refine Iff.trans ?_ (renewing rfl ?_)
    · exact ⟨fun careful => careful more,fun none _ => none⟩
    · simp [starts,refilling,post,other]

theorem stepExactly {s t : State} {e : Event} (one : OneWrite s) (moved : step s e = some t) :
    Careful s e ↔ OneWrite t ∧ Undisturbed s t := by
  have still : OneWrite s ∧ Undisturbed s s := quietly one rfl rfl (Nat.le_refl _)
  cases stepped moved with
  | refuses range stored =>
    exact iff_of_true (fun clear => absurd clear stored) still
  | buffers range clear free =>
    refine Iff.trans ?_ (renewing rfl ?_)
    · exact ⟨fun careful => careful clear free,fun none _ _ => none⟩
    · simp [starts,buffering,post]
  | queues range _ busy =>
    exact iff_of_true (fun _ free => absurd free busy) (quietly one rfl rfl (Nat.le_refl _))
  | misses delim => exact iff_of_true trivial still
  | takes delim front back _ =>
    exact iff_of_true trivial (quietly one rfl rfl (Nat.le_refl _))
  | closes closes => exact closeExactly one closes
  | opens closes outcome => exact openExactly one closes outcome
  | runs h _ _ posted handled => exact handledExactly one posted handled
  | arrives chunk _ =>
    exact iff_of_true trivial (quietly one rfl rfl (Nat.le_of_eq (startsPost _ (by simp))))
  | readFails ec _ =>
    exact iff_of_true trivial (quietly one rfl rfl (Nat.le_of_eq (startsPost _ (by simp))))
  | transfers u inside =>
    exact iff_of_true trivial (finishing one inside rfl rfl (startsPost _ (by simp)))
  | writeFails u ec inside =>
    exact iff_of_true trivial (finishing one inside rfl rfl (startsPost _ (by simp)))

theorem properExactly {s t : State} {e : Event} (one : OneWrite s) (moved : step s e = some t) :
    Careful s e ↔ Proper s e :=
  (stepExactly one moved).trans
    (afterStep (Q := fun u => OneWrite u ∧ Undisturbed s u) moved)

theorem constructedOne : OneWrite constructed := by decide

theorem stableBuffer (events : List Event) (s : State) :
    (Run step Careful constructed events s ↔ Run step Proper constructed events s) ∧
    (Run step Careful constructed events s → OneWrite s) := by
  have kept : ∀ s e t, OneWrite s → Careful s e → step s e = some t → OneWrite t :=
    fun _ _ _ one careful moved => ((stepExactly one moved).mp careful).1
  refine ⟨?_,fun run => runInvariant kept run constructedOne⟩
  exact runRelabel (P := OneWrite) (fun _ _ _ one moved => properExactly one moved) kept constructedOne

/- An empty write leaves the port looking free, so the next one starts beside it; and
closing gives back the buffer of a write that is outstanding. -/
theorem bufferDisturbed :
    (∃ s, Run step Anything constructed [.write [],.write [116]] s ∧ outstanding s = 2) ∧
    ∃ s t, Run step Anything constructed [.openImpl true .succeeds,.write [116],.run .startWrite] s ∧
      step s (.close true) = some t ∧ ¬ Undisturbed s t :=
  ⟨⟨_,.next trivial rfl (.next trivial rfl (.done _)),rfl⟩,
    ⟨_,_,.next trivial rfl (.next trivial rfl (.next trivial rfl (.done _))),rfl,fun undisturbed =>
      absurd (undisturbed (List.cons_ne_nil _ _)) (by decide)⟩⟩

theorem startsFiltered (s : State) : starts s = (s.posted.filter isWrite).count .startWrite :=
  (List.count_filter rfl).symm

theorem phaseOne {failures : Prop} {s : State} (phase : Phase failures (writeSide s)) : OneWrite s := by
  have sided : ∀ w, Phase failures w → w.handlers.count .startWrite + w.transfers.length ≤ 1 ∧
      ∀ u ∈ w.transfers, u.buffer = w.buffer := by
    intro w phase
    cases phase <;> simp
  obtain ⟨single,owned⟩ := sided _ phase
  refine ⟨?_,owned⟩
  unfold outstanding
  rw [startsFiltered]
  exact single

theorem callersOne {s : State} (reachable : Reachable step InSession constructed s) : OneWrite s := by
  have flowing : Flowing True s := by
    refine reachableInvariant ?_ (constructedFlowing True) reachable
    exact fun _ _ _ flowing during moved => flowingKept during (fun _ _ _ => trivial) moved flowing
  exact phaseOne flowing.1

end Chambermaid.AsyncBuffer
