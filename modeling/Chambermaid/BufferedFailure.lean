import Chambermaid.AsyncReopen
import Chambermaid.BufferedIo

/-! After the first error. Both calls of the port look at the stored error first and nothing
ever clears it, closing and opening the port included, so from then on the object accepts
no output and gives nobody a line, whatever it has received. -/
namespace Chambermaid.BufferedFailure
open Runs AsyncImpl AsyncRead AsyncStep AsyncReopen
open BufferedIo (Pool Caller answered answeredTo resumed)

theorem closeHistory (s : State) (closes : Bool) : (close s closes).state.history = s.history := by
  unfold close closePort
  split
  · split <;> rfl
  · rfl

theorem openHistory (s : State) (closes : Bool) (outcome : Configure) :
    (openImpl s closes outcome).state.history = s.history := by
  rw [openCases]
  split
  · exact closeHistory s closes
  · split
    · exact closeHistory s closes
    · split
      · exact closeHistory s closes
      · exact closeHistory s closes

theorem handledCalls {s t : State} {h : Handler} (handled : Handled s h t) :
    t.history.written = s.history.written ∧ t.history.taken = s.history.taken := by
  cases handled <;> exact ⟨rfl,rfl⟩

theorem stepRefused {s t : State} {e : AsyncImpl.Event} (stored : s.error ≠ none)
    (moved : AsyncImpl.step s e = some t) :
    t.history.written = s.history.written ∧ t.history.taken = s.history.taken := by
  by_cases reads : ∃ delim, e = .readStringUntil delim
  · obtain ⟨delim,rfl⟩ := reads
    obtain ⟨ec,is⟩ := Option.ne_none_iff_exists'.mp stored
    simp only [AsyncImpl.step,readRefuses is] at moved
    cases moved
    exact ⟨rfl,rfl⟩
  · cases stepped moved with
    | buffers range clear _ => exact absurd clear stored
    | queues range clear _ => exact absurd clear stored
    | misses delim => exact ⟨rfl,rfl⟩
    | takes delim front back _ => exact absurd ⟨delim,rfl⟩ reads
    | closes closes =>
      rw [closeHistory]
      exact ⟨rfl,rfl⟩
    | opens closes outcome =>
      rw [openHistory]
      exact ⟨rfl,rfl⟩
    | runs h _ _ _ handled =>
      have kept := handledCalls handled
      exact kept
    | _ => exact ⟨rfl,rfl⟩

theorem answeredRefused {s : State} (stored : s.error ≠ none) (e : AsyncImpl.Event) :
    answeredTo s e = [] := by
  cases e with
  | readStringUntil delim =>
    obtain ⟨ec,is⟩ := Option.ne_none_iff_exists'.mp stored
    simp only [answeredTo,answered,readRefuses is]
  | _ => rfl

structure Refused (p q : Pool) : Prop where
  stored : q.impl.error ≠ none
  written : q.impl.history.written = p.impl.history.written
  taken : q.impl.history.taken = p.impl.history.taken
  answers : q.answers = p.answers
  returned : ∀ d ∈ q.callers, ∀ line, d.progress = .returned line → d ∈ p.callers

theorem refusedSelf {p : Pool} (stored : p.impl.error ≠ none) : Refused p p :=
  ⟨stored,rfl,rfl,rfl,fun _ inside _ _ => inside⟩

theorem refusedThen {p q r : Pool} (first : Refused p q) (second : Refused q r) : Refused p r :=
  ⟨second.stored,second.written.trans first.written,second.taken.trans first.taken,
    second.answers.trans first.answers,fun d inside line returned =>
      first.returned d (second.returned d inside line returned) line returned⟩

theorem refusedCaller {p q : Pool} (stored : p.impl.error ≠ none) {i : Nat} {c : Caller}
    {progress : BufferedIo.Progress} (other : ∀ line, progress ≠ .returned line)
    (same : q = {p with callers := p.callers.set i {c with progress := progress}}) : Refused p q := by
  rw [same]
  refine ⟨stored,rfl,rfl,rfl,fun d inside line returned => ?_⟩
  rcases List.mem_or_eq_of_mem_set inside with before | now
  · exact before
  · rw [now] at returned
    exact absurd returned (other line)

theorem poolRefused {p q : Pool} {e : BufferedIo.Event} (stored : p.impl.error ≠ none)
    (moved : BufferedIo.step p e = some q) : Refused p q := by
  cases e with
  | inner e =>
    obtain ⟨t,inside,same⟩ := Option.map_eq_some_iff.mp moved
    cases same
    obtain ⟨written,taken⟩ := stepRefused stored inside
    refine ⟨stepError stored inside,written,taken,?_,fun d inside line _ => inside⟩
    rw [answeredRefused stored,List.append_nil]
  | readStringUntil timeout delim now =>
    cases moved
    refine ⟨stored,rfl,rfl,rfl,fun d inside line returned => ?_⟩
    rcases List.mem_append.mp inside with before | last
    · exact before
    · rw [List.mem_singleton.mp last] at returned
      contradiction
  | resume i now =>
    obtain ⟨c,_,moved⟩ := Option.bind_eq_some_iff.mp moved
    obtain ⟨ec,is⟩ := Option.ne_none_iff_exists'.mp stored
    have refuses := @readRefuses p.impl c.delim ec is
    cases resumed moved with
    | looks checking =>
      refine refusedCaller stored (fun line same => ?_) rfl
      split at same <;> contradiction
    | returns trying returned =>
      rw [refuses] at returned
      contradiction
    | misses trying returned =>
      rw [refuses] at returned
      contradiction
    | fails trying thrown => exact refusedCaller stored (fun line same => by contradiction) rfl
    | wakes sleeping => exact refusedCaller stored (fun line same => by contradiction) rfl

theorem failedForever {p q : Pool} {events : List BufferedIo.Event} (stored : p.impl.error ≠ none)
    (run : Run BufferedIo.step Anything p events q) : Refused p q := by
  refine runInvariant ?_ run (refusedSelf stored)
  exact fun _ _ _ before _ moved => refusedThen before (poolRefused before.stored moved)

def failing : List BufferedIo.Event :=
  [.inner (.run .startRead),.inner (.readCompletes BufferedIo.arrival),
    .inner (.run (.finishRead none [97,10,98])),.inner (.run .startRead),
    .inner (.readFails (.device 9)),.inner (.run (.finishRead (some (.device 9)) []))]

def reopened : List BufferedIo.Event :=
  [.inner (.close true),.inner (.openImpl true .succeeds),.readStringUntil 1000000 [10] 0,
    .resume 0 1,.resume 0 2]

theorem failedForeverReopened : ∃ p q, Run BufferedIo.step Anything BufferedIo.fresh failing p ∧
    Run BufferedIo.step Anything p reopened q ∧ q.impl.isOpen = true ∧
    q.impl.readQueue = [97,10,98] ∧ Refused p q := by
  have run : ∃ p q, failing.foldlM BufferedIo.step BufferedIo.fresh = some p ∧
      reopened.foldlM BufferedIo.step p = some q ∧ q.impl.isOpen = true ∧
      q.impl.readQueue = [97,10,98] ∧ p.impl.error = some (.device 9) := ⟨_,_,rfl,rfl,rfl,rfl,rfl⟩
  obtain ⟨p,q,first,second,isOpen,queue,stored⟩ := run
  exact ⟨p,q,foldRun first,foldRun second,isOpen,queue,
    failedForever (by rw [stored]; exact Option.some_ne_none _) (foldRun second)⟩

end Chambermaid.BufferedFailure
