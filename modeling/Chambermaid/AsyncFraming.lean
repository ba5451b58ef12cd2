import Chambermaid.AsyncSession
import Chambermaid.Framing

/-! Lines do not depend on how their bytes arrive. Along a session in which every call
uses one delimiter, what the calls returned are the first frames of the stream read so
far and the queue is what is left of it; a call that returns nothing leaves no frame
that can be cut, and there is only one way to cut a stream until then. -/
namespace Chambermaid.AsyncFraming
open Occurrence Framing Runs AsyncImpl AsyncRead AsyncStep AsyncSession

def Polling (delim : Bytes) (_ : State) (e : Event) : Prop :=
  ¬ Opens e ∧ ∀ other, e = .readStringUntil other → other = delim

def lines (s : State) : List Bytes := s.history.taken.map Prod.fst

structure Framed (delim : Bytes) (s : State) : Prop where
  reading : Reading s
  cuts : Cuts delim s.history.received (lines s) s.readQueue

theorem pollFramed {delim : Bytes} {s t : State} (moved : step s (.readStringUntil delim) = some t)
    (cuts : Cuts delim s.history.received (lines s) s.readQueue) :
    Cuts delim t.history.received (lines t) t.readQueue := by
  simp only [step] at moved
  cases stored : s.error with
  | some ec =>
    rw [readRefuses stored] at moved
    cases moved
    exact cuts
  | none =>
    rcases readCases delim stored with ⟨_,nothing⟩ | ⟨front,back,split,more,first,taken⟩
    · rw [nothing] at moved
      cases moved
      exact cuts
    · rw [taken] at moved
      cases moved
      rw [split] at cuts first
      have again := cutsAgain cuts first more
      simpa [taking,lines] using again

theorem handledFramed {delim : Bytes} {s t : State} {h : Handler} (posted : h ∈ s.posted)
    (framed : Framed delim s) (handled : Handled {s with posted := s.posted.erase h} h t) :
    Cuts delim t.history.received (lines t) t.readQueue := by
  obtain ⟨reading,cuts⟩ := framed
  cases handled with
  | appends arrived =>
    have inHandlers : .finishRead none arrived ∈ (readSide s).handlers :=
      List.mem_filter.mpr ⟨posted,rfl⟩
    have holds : s.readBuffer.bytes.take arrived.length = arrived :=
      stageHolds reading.1.stage inHandlers
    have extended := cutsExtend cuts arrived
    simpa [appending,post,holds,lines] using extended
  | _ => exact cuts

theorem stepFramed {delim : Bytes} {s t : State} {e : Event} (framed : Framed delim s)
    (allowed : Polling delim s e) (moved : step s e = some t) : Framed delim t := by
  refine ⟨readingKept framed.reading allowed.1 moved,?_⟩
  by_cases polls : ∃ other, e = .readStringUntil other
  · obtain ⟨other,same⟩ := polls
    rw [same,allowed.2 other same] at moved
    exact pollFramed moved framed.cuts
  · cases stepped moved with
    | misses other => exact absurd ⟨other,rfl⟩ polls
    | takes other front back _ => exact absurd ⟨other,rfl⟩ polls
    | closes closes => exact absurd trivial allowed.1
    | opens closes outcome => exact absurd trivial allowed.1
    | runs h _ _ posted handled => exact handledFramed posted framed handled
    | _ => exact framed.cuts

theorem reachableFramed {delim : Bytes} {s : State}
    (reachable : Reachable step (Polling delim) opened s) : Framed delim s :=
  reachableInvariant (fun _ _ _ framed allowed moved => stepFramed framed allowed moved)
    ⟨openedReading,.done []⟩ reachable

theorem nothingLeft {delim : Bytes} {s t : State} (ends : readStringUntil s delim = .ok (none,t)) :
    NoCut delim s.readQueue ∧ t = s := by
  cases stored : s.error with
  | some ec =>
    rw [readRefuses stored] at ends
    cases ends
  | none =>
    rcases readCases delim stored with ⟨missing,nothing⟩ | ⟨front,back,_,_,_,taken⟩
    · rw [nothing] at ends
      cases ends
      exact ⟨missing,rfl⟩
    · rw [taken] at ends
      cases ends

theorem framingIndependent {delim : Bytes} {s t u v : State}
    (first : Reachable step (Polling delim) opened s)
    (second : Reachable step (Polling delim) opened t)
    (stream : s.history.received = t.history.received)
    (firstEnds : readStringUntil s delim = .ok (none,u))
    (secondEnds : readStringUntil t delim = .ok (none,v)) :
    lines u = lines v ∧ u.readQueue = v.readQueue := by
  obtain ⟨ends,rfl⟩ := nothingLeft firstEnds
  obtain ⟨stops,rfl⟩ := nothingLeft secondEnds
  have cuts := (reachableFramed first).cuts
  rw [stream] at cuts
  exact cutsUnique cuts (reachableFramed second).cuts ends stops

def received (chunk : Chunk) : List Event :=
  [.run .startRead,.readCompletes chunk,.run (.finishRead none chunk.bytes)]

def half : Chunk := ⟨[97,13],by decide⟩
def otherHalf : Chunk := ⟨[10,98],by decide⟩
def together : Chunk := ⟨[97,13,10,98],by decide⟩

theorem framingIndependentHalves : ∃ u v, lines u = [[97]] ∧ lines u = lines v ∧
    u.readQueue = v.readQueue := by
  have poll : ∀ s, Polling [13,10] s (.readStringUntil [13,10]) := fun _ =>
    ⟨id,fun other same => by cases same; rfl⟩
  have arrives : ∀ s, ∀ e ∈ received half ++ received otherHalf ++ received together,
      Polling [13,10] s e := by
    intro s e inside
    simp only [received,List.cons_append,List.nil_append,List.mem_cons,List.not_mem_nil] at inside
    rcases inside with rfl | rfl | rfl | rfl | rfl | rfl | rfl | rfl | rfl | no
    any_goals exact ⟨id,fun other same => by contradiction⟩
    exact no.elim
  have halves : ∃ s, Run step (Polling [13,10]) opened (received half ++
      .readStringUntil [13,10]::received otherHalf ++ [.readStringUntil [13,10]]) s ∧
      s.history.received = [97,13,10,98] ∧ lines s = [[97]] ∧
      readStringUntil s [13,10] = .ok (none,s) :=
    ⟨_,.next (arrives _ _ (by decide)) rfl (.next (arrives _ _ (by decide)) rfl
      (.next (arrives _ _ (by decide)) rfl (.next (poll _) rfl (.next (arrives _ _ (by decide)) rfl
        (.next (arrives _ _ (by decide)) rfl (.next (arrives _ _ (by decide)) rfl
          (.next (poll _) rfl (.done _)))))))),rfl,rfl,rfl⟩
  have whole : ∃ s, Run step (Polling [13,10]) opened
      (received together ++ [.readStringUntil [13,10]]) s ∧
      s.history.received = [97,13,10,98] ∧ readStringUntil s [13,10] = .ok (none,s) :=
    ⟨_,.next (arrives _ _ (by decide)) rfl (.next (arrives _ _ (by decide)) rfl
      (.next (arrives _ _ (by decide)) rfl (.next (poll _) rfl (.done _)))),rfl,rfl⟩
  obtain ⟨s,run,stream,line,ends⟩ := halves
  obtain ⟨t,again,same,stops⟩ := whole
  exact ⟨s,t,line,framingIndependent ⟨_,run⟩ ⟨_,again⟩ (stream.trans same.symm) ends stops⟩

end Chambermaid.AsyncFraming
