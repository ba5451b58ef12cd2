import Chambermaid.AsyncSession

/-! The bytes on their way through the port. What the device has put into the line is
received, or with the one read that has just ended; what a caller has written is sent from
the front. -/
namespace Chambermaid.AsyncDelivered
open AsyncImpl AsyncStep AsyncWrite AsyncSession

def chunkOf : Event → Bytes
  | .readCompletes chunk => chunk.bytes
  | _ => []

def arrivals : Handler → Bytes
  | .finishRead none arrived => arrived
  | _ => []

def delivered (s : State) : Bytes := s.history.received ++ (s.posted.filter isRead).flatMap arrivals

theorem deliveredPost (s : State) (h : Handler) : delivered (post s h) = delivered s ++ arrivals h := by
  have alone : ([h].filter isRead).flatMap arrivals = arrivals h := by
    cases h with
    | finishRead ec arrived => simp [isRead,isWrite]
    | _ => rfl
  simp only [delivered,post,List.filter_append,List.flatMap_append,alone,List.append_assoc]

theorem loneHandler {s : State} {h : Handler} (reading : Reading s) (posted : h ∈ s.posted)
    (reads : isRead h = true) : s.posted.filter isRead = [h] ∧ (s.posted.erase h).filter isRead = [] := by
  have inside : h ∈ s.posted.filter isRead := List.mem_filter.mpr ⟨posted,reads⟩
  have one : (s.posted.filter isRead).length + s.reads ≤ 1 := stageOne reading.1.stage
  have alone : s.posted.filter isRead = [h] := by
    cases handlers : s.posted.filter isRead with
    | nil =>
      rw [handlers] at inside
      contradiction
    | cons other others =>
      rw [handlers,List.length_cons] at one
      cases List.eq_nil_of_length_eq_zero (by omega : others.length = 0)
      rw [handlers] at inside
      rw [List.mem_singleton.mp inside]
  refine ⟨alone,?_⟩
  rw [filterErase,alone,List.erase_cons_head]

theorem deliveredHandled {s t : State} {h : Handler} (reading : Reading s) (posted : h ∈ s.posted)
    (handled : Handled {s with posted := s.posted.erase h} h t) : delivered t = delivered s := by
  have lone := loneHandler reading posted
  have other : isRead h = false → delivered {s with posted := s.posted.erase h} = delivered s := by
    intro writes
    unfold delivered
    rw [filterEraseOther writes]
  cases handled with
  | readStarts _ =>
    obtain ⟨alone,none⟩ := lone rfl
    simp [delivered,alone,none,arrivals]
  | readRefused _ =>
    obtain ⟨alone,none⟩ := lone rfl
    rw [deliveredPost]
    simp [delivered,alone,none,arrivals]
  | readFailed ec arrived =>
    obtain ⟨alone,none⟩ := lone rfl
    simp [delivered,alone,none,arrivals]
  | appends arrived =>
    obtain ⟨alone,none⟩ := lone rfl
    unfold appending
    rw [deliveredPost]
    simp [delivered,alone,none,arrivals]
  | writeStarts _ => exact other rfl
  | writeRefused _ =>
    rw [deliveredPost,other rfl]
    exact List.append_nil _
  | writeFailed ec moved => exact other rfl
  | empties moved _ => exact other rfl
  | refills moved _ =>
    unfold refilling
    rw [deliveredPost]
    exact (List.append_nil _).trans (other rfl)

theorem deliveredStep {s t : State} {e : Event} (reading : Reading s) (stays : ¬ Opens e)
    (moved : step s e = some t) : delivered t = delivered s ++ chunkOf e := by
  cases stepped moved with
  | buffers range _ _ => exact deliveredPost _ _
  | closes closes => exact absurd trivial stays
  | opens closes outcome => exact absurd trivial stays
  | runs h _ _ posted handled =>
    rw [deliveredHandled reading posted handled]
    exact (List.append_nil _).symm
  | arrives chunk _ => exact deliveredPost _ _
  | readFails ec _ => exact deliveredPost _ _
  | transfers u _ => exact deliveredPost _ _
  | writeFails u ec _ => exact deliveredPost _ _
  | _ => exact (List.append_nil _).symm

theorem writeOk {s t : State} {range : Bytes} (written : write s range = .ok t) :
    step s (.write range) = some t ∧ t.history.written = s.history.written ++ range := by
  refine ⟨by simp only [step,written],?_⟩
  by_cases clear : s.error = none
  · by_cases free : s.writeBufferSize = 0
    · rw [writeBuffers range clear free] at written
      cases written
      rfl
    · rw [writeQueues range clear free] at written
      cases written
      rfl
  · obtain ⟨ec,refused⟩ := writeRefuses range clear
    rw [refused] at written
    contradiction

theorem handledOutput {s t : State} {h : Handler} (handled : Handled s h t) :
    t.history.written = s.history.written ∧ t.history.sent = s.history.sent := by
  cases handled <;> exact ⟨rfl,rfl⟩

theorem writtenKept {s t : State} {e : Event} (stays : ¬ Opens e) (other : ∀ range, e ≠ .write range)
    (moved : step s e = some t) : t.history.written = s.history.written := by
  cases stepped moved with
  | buffers range _ _ => exact absurd rfl (other range)
  | queues range _ _ => exact absurd rfl (other range)
  | closes closes => exact absurd trivial stays
  | opens closes outcome => exact absurd trivial stays
  | runs h _ _ _ handled =>
    have kept := (handledOutput handled).1
    exact kept
  | _ => rfl

theorem sentGrows {s t : State} {e : Event} (stays : ¬ Opens e) (moved : step s e = some t) :
    s.history.sent <+: t.history.sent := by
  cases stepped moved with
  | closes closes => exact absurd trivial stays
  | opens closes outcome => exact absurd trivial stays
  | runs h _ _ _ handled =>
    exact ⟨[],by rw [List.append_nil,(handledOutput handled).2]⟩
  | transfers u _ => exact List.prefix_append _ _
  | _ => exact List.prefix_refl _

end Chambermaid.AsyncDelivered
