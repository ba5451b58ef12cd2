import Chambermaid.AsyncDelivered

/-! How far output has to go. Once nobody writes any more, what is left of the output is one
buffer on its way and one queue behind it, so the steps that move it are counted. -/
namespace Chambermaid.AsyncDrain
open Runs AsyncImpl AsyncStep AsyncWrite AsyncDelivered

def pumps : Event → Bool
  | .run h => isWrite h
  | .writeCompletes _ => true
  | _ => false

def Quiet (s : State) (e : Event) : Prop := Writing s e ∧ ∀ range, e ≠ .write range

/- A start has its transfer and its end before it, and a queue the whole way of a second buffer. -/
def toGo : Handler → Nat
  | .startWrite => 3
  | .finishWrite _ _ => 1
  | _ => 0

def remainingSide (w : WriteSide) : Nat :=
  (w.handlers.map toGo).foldr (fun more n => more + n) 0 + 2 * w.transfers.length +
    if w.queue.isEmpty then 0 else 3

def remaining (s : State) : Nat := remainingSide (writeSide s)

theorem remainingBound {w : WriteSide} (phase : Phase False w) : remainingSide w ≤ 6 := by
  unfold remainingSide
  cases phase with
  | idle buffer done => simp
  | starting queue b done some =>
    simp only [List.map_cons,List.map_nil,toGo]
    split <;> simp
  | writing queue b done some => split <;> simp
  | finished queue b done some =>
    simp only [List.map_cons,List.map_nil,toGo]
    split <;> simp
  | failed may => exact may.elim
  | stopped may => exact may.elim

theorem phaseAlone {w : WriteSide} (phase : Phase False w) {h : Handler} (posted : h ∈ w.handlers) :
    w.handlers = [h] ∧ w.transfers = [] ∧ ∀ ec moved, h ≠ .finishWrite (some ec) moved := by
  cases phase with
  | starting queue b done some =>
    cases List.mem_singleton.mp posted
    exact ⟨rfl,rfl,fun ec moved same => by contradiction⟩
  | finished queue b done some =>
    cases List.mem_singleton.mp posted
    exact ⟨rfl,rfl,fun ec moved same => by cases same⟩
  | failed may => exact may.elim
  | _ => simp at posted

theorem phaseTransfer {w : WriteSide} (phase : Phase False w) {u : Transfer}
    (outstanding : u ∈ w.transfers) : w.handlers = [] ∧ w.transfers = [u] := by
  cases phase with
  | writing queue b done some =>
    cases List.mem_singleton.mp outstanding
    exact ⟨rfl,rfl⟩
  | _ => simp at outstanding

theorem pumpHandled {s t : State} {h : Handler} (flowing : Flowing False s)
    (running : s.running = true) (posted : h ∈ s.posted) (writes : isWrite h = true)
    (handled : Handled {s with posted := s.posted.erase h} h t) : remaining t + 1 = remaining s := by
  have inside : h ∈ (writeSide s).handlers := List.mem_filter.mpr ⟨posted,writes⟩
  obtain ⟨alone,free,succeeds⟩ := phaseAlone flowing.1 inside
  have side := filterErase isWrite h s.posted
  simp only [writeSide] at alone free
  rw [alone,List.erase_cons_head] at side
  have open' := flowing.2 running
  cases handled with
  | writeStarts _ => simp [remaining,remainingSide,writeSide,alone,free,side,toGo]; omega
  | writeRefused shut => exact absurd open' (Bool.eq_false_iff.mp shut)
  | writeFailed ec moved => exact absurd rfl (succeeds ec moved)
  | empties moved empty =>
    simp only at empty
    simp [remaining,remainingSide,writeSide,emptying,alone,free,side,empty,toGo]
  | refills moved more =>
    simp only at more
    unfold refilling remaining
    rw [writeSidePost]
    simp [remainingSide,writeSide,alone,free,side,more,toGo]
    rfl
  | readStarts _ => cases writes
  | readRefused _ => cases writes
  | readFailed ec arrived => cases writes
  | appends arrived => cases writes

theorem quietSide {s t : State} {e : Event} (quiet : Quiet s e) (still : pumps e = false)
    (moved : step s e = some t) : writeSide t = writeSide s := by
  obtain ⟨⟨during,never⟩,silent⟩ := quiet
  cases stepped moved with
  | refuses range _ => exact absurd rfl (silent range)
  | buffers range _ _ => exact absurd rfl (silent range)
  | queues range _ _ => exact absurd rfl (silent range)
  | misses delim => rfl
  | takes delim front back _ => rfl
  | closes closes => exact absurd during id
  | opens closes outcome =>
    rcases openClosed during closes outcome with same | ⟨_,same⟩ | ⟨_,same⟩
    · rw [same]
    · rw [same]
      rfl
    · rw [same]
      exact writeSideOther _ rfl
  | runs h _ _ posted handled =>
    have reads : isWrite h = false := still
    have erased := writeSideErase s reads
    cases handled with
    | readStarts _ => exact erased
    | readRefused _ => exact (writeSideOther _ rfl).trans erased
    | readFailed ec arrived => exact erased
    | appends arrived => exact (writeSideOther _ rfl).trans erased
    | writeStarts _ => cases reads
    | writeRefused _ => cases reads
    | writeFailed ec moved => cases reads
    | empties moved _ => cases reads
    | refills moved _ => cases reads
  | arrives chunk _ => exact writeSideOther _ rfl
  | readFails ec _ => exact writeSideOther _ rfl
  | transfers u _ => cases still
  | writeFails u ec _ => exact absurd rfl (never u ec)

theorem drainStep {s t : State} {e : Event} (flowing : Flowing False s) (quiet : Quiet s e)
    (moved : step s e = some t) : remaining t + (if pumps e then 1 else 0) = remaining s := by
  cases pump : pumps e with
  | false =>
    unfold remaining
    rw [quietSide quiet pump moved]
    rfl
  | true =>
    rw [if_pos rfl]
    cases stepped moved with
    | runs h _ running posted handled => exact pumpHandled flowing running posted pump handled
    | transfers u outstanding =>
      obtain ⟨idle,alone⟩ := phaseTransfer flowing.1 outstanding
      simp only [writeSide] at idle alone
      have ends : [Handler.finishWrite none u.bytes].filter isWrite = [.finishWrite none u.bytes] := rfl
      unfold remaining
      rw [writeSidePost,ends]
      simp only [remainingSide,writeSide,idle,alone,List.erase_cons_head,List.nil_append,
        List.map_cons,List.map_nil,toGo,List.foldr_cons,List.foldr_nil,List.length_cons,List.length_nil]
      omega
    | _ => cases pump

theorem writtenQuiet {s t : State} {e : Event} (quiet : Quiet s e) (moved : step s e = some t) :
    t.history.written = s.history.written := by
  cases pump : pumps e with
  | false => exact congrArg WriteSide.written (quietSide quiet pump moved)
  | true =>
    refine writtenKept ?_ quiet.2 moved
    cases e <;> first | exact id | cases pump

theorem stillSent {t : State} (flowing : Flowing False t) (running : t.running = true)
    (still : ∀ e, pumps e = true → step t e = none) : t.history.sent = t.history.written := by
  refine (phaseOrderly flowing.1).all ?_
  have handlers : (writeSide t).handlers = [] := by
    refine List.eq_nil_iff_forall_not_mem.mpr fun h inside => ?_
    obtain ⟨posted,writes⟩ := List.mem_filter.mp inside
    have moves := runStep running posted
    rw [still (.run h) writes] at moves
    contradiction
  have transfers : (writeSide t).transfers = [] := by
    refine List.eq_nil_iff_forall_not_mem.mpr fun u outstanding => ?_
    have outstanding : u ∈ t.writes := outstanding
    have waits := still (.writeCompletes u) rfl
    simp only [step,if_pos outstanding] at waits
    contradiction
  rw [handlers,transfers]
  rfl

/- After the last write six steps of the runner and the device are enough, whatever else
goes on between them. -/
theorem drains {s t : State} {events : List Event} (reachable : Reachable step Writing constructed s)
    (run : Run step Quiet s events t) :
    events.countP pumps ≤ 6 ∧ t.history.written = s.history.written ∧
    (t.running = true → (∀ e, pumps e = true → step t e = none) →
      t.history.sent = s.history.written) := by
  have flowing := writingFlowing reachable
  have keeps : ∀ u e v, Flowing False u ∧ u.history.written = s.history.written → Quiet u e →
      step u e = some v → (Flowing False v ∧ v.history.written = s.history.written) ∧
        (remaining v + if pumps e then 1 else 0) = remaining u := by
    rintro u e v ⟨flowing,same⟩ quiet moved
    exact ⟨⟨flowingKept quiet.1.1 (fun w ec other => quiet.1.2 w ec other) moved flowing,
      (writtenQuiet quiet moved).trans same⟩,drainStep flowing quiet moved⟩
  obtain ⟨⟨later,same⟩,counted⟩ := runCounts keeps run ⟨flowing,rfl⟩
  have bound := remainingBound flowing.1
  refine ⟨by unfold remaining at counted; omega,same,?_⟩
  intro running still
  exact (stillSent later running still).trans same

def pressed : List Event :=
  [.openImpl true .succeeds,.write [116],.run .startWrite,.write [115]]

def drained : List Event :=
  [.writeCompletes ⟨some ⟨0,[116]⟩,1⟩,.run (.finishWrite none [116]),.run .startRead,.run .startWrite,
    .writeCompletes ⟨some ⟨1,[115]⟩,1⟩,.run (.finishWrite none [115])]

theorem drainsPressed : ∃ s t, Reachable step Writing constructed s ∧ Run step Quiet s drained t ∧
    t.history.sent = [116,115] ∧ drained.countP pumps ≤ 6 ∧
    t.history.written = s.history.written ∧
    (t.running = true → (∀ e, pumps e = true → step t e = none) →
      t.history.sent = s.history.written) := by
  have first : ∃ s, Run step Writing constructed pressed s ∧
      ∃ t, drained.foldlM step s = some t ∧ t.history.sent = [116,115] :=
    ⟨_,.next ⟨rfl,fun u ec same => by contradiction⟩ rfl
      (.next ⟨List.cons_ne_nil _ _,fun u ec same => by contradiction⟩ rfl
        (.next ⟨trivial,fun u ec same => by contradiction⟩ rfl
          (.next ⟨List.cons_ne_nil _ _,fun u ec same => by contradiction⟩ rfl (.done _)))),_,rfl,rfl⟩
  have quiet : ∀ u, ∀ e ∈ drained, Quiet u e := by
    intro u e inside
    simp only [drained,List.mem_cons,List.not_mem_nil,or_false] at inside
    rcases inside with rfl | rfl | rfl | rfl | rfl | rfl <;>
      exact ⟨⟨trivial,fun w ec same => by contradiction⟩,fun range same => by contradiction⟩
  obtain ⟨s,begun,t,later,sent⟩ := first
  have run := runPermitted quiet (foldRun later)
  exact ⟨s,t,⟨_,begun⟩,run,sent,drains ⟨_,begun⟩ run⟩

end Chambermaid.AsyncDrain
