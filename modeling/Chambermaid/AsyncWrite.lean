import Chambermaid.AsyncStep
import Chambermaid.Runs

/-! Output from the callers' ranges to the device. The write side of a state is what
output depends on; a step changes it in one of few ways, and while the port stays
open exactly one of the posted handlers and outstanding transfers carries the
buffer. -/
namespace Chambermaid.AsyncWrite
open Runs AsyncImpl AsyncStep

def isWrite : Handler → Bool
  | .startWrite => true
  | .finishWrite _ _ => true
  | .startRead => false
  | .finishRead _ _ => false

structure WriteSide where
  queue : Bytes
  buffer : Option Buffer
  size : Nat
  handlers : List Handler
  transfers : List Transfer
  written : Bytes
  completed : Bytes
  sent : Bytes

def writeSide (s : State) : WriteSide :=
  ⟨s.writeQueue,s.writeBuffer,s.writeBufferSize,s.posted.filter isWrite,s.writes,
    s.history.written,s.history.completed,s.history.sent⟩

inductive Writes (failures : Prop) (w : WriteSide) : WriteSide → Prop where
  | keeps : Writes failures w w
  | buffers (n : Nat) (range : Bytes) (some : range ≠ []) (free : w.size = 0) :
      Writes failures w {w with
        buffer := .some ⟨n,range⟩
        size := range.length
        handlers := w.handlers ++ [.startWrite]
        written := w.written ++ range}
  | queues (range : Bytes) (busy : w.size ≠ 0) :
      Writes failures w {w with queue := w.queue ++ range,written := w.written ++ range}
  | starts (posted : .startWrite ∈ w.handlers) :
      Writes failures w {w with
        handlers := w.handlers.erase .startWrite
        transfers := w.transfers ++ [⟨w.buffer,w.size⟩]}
  | transfers (t : Transfer) (outstanding : t ∈ w.transfers) :
      Writes failures w {w with
        handlers := w.handlers ++ [.finishWrite none t.bytes]
        transfers := w.transfers.erase t
        sent := w.sent ++ t.bytes}
  | fails (may : failures) (t : Transfer) (ec : ErrorCode)
      (outstanding : t ∈ w.transfers) :
      Writes failures w {w with
        handlers := w.handlers ++ [.finishWrite (.some ec) []]
        transfers := w.transfers.erase t}
  | stores (ec : ErrorCode) (moved : Bytes)
      (posted : .finishWrite (.some ec) moved ∈ w.handlers) :
      Writes failures w {w with handlers := w.handlers.erase (.finishWrite (.some ec) moved)}
  | empties (moved : Bytes) (posted : .finishWrite none moved ∈ w.handlers)
      (empty : w.queue = []) :
      Writes failures w {w with
        size := 0
        handlers := w.handlers.erase (.finishWrite none moved)
        completed := w.completed ++ moved}
  | refills (n : Nat) (moved : Bytes)
      (posted : .finishWrite none moved ∈ w.handlers) (more : w.queue ≠ []) :
      Writes failures w {w with
        queue := []
        buffer := .some ⟨n,w.queue⟩
        size := w.queue.length
        handlers := w.handlers.erase (.finishWrite none moved) ++ [.startWrite]
        completed := w.completed ++ moved}

def InSession (s : State) : Event → Prop
  | .write range => range ≠ []
  | .close _ => False
  | .openImpl _ _ => s.isOpen = false
  | _ => True

instance (s : State) (e : Event) : Decidable (InSession s e) := by
  cases e <;> unfold InSession <;> infer_instance

theorem filterErase (p : Handler → Bool) (h : Handler) (posted : List Handler) :
    (posted.erase h).filter p = (posted.filter p).erase h := List.erase_filter.symm

theorem filterEraseOther {p : Handler → Bool} {h : Handler} (other : p h = false)
    (posted : List Handler) : (posted.erase h).filter p = posted.filter p := by
  rw [filterErase,List.erase_of_not_mem]
  intro inside
  have holds := (List.mem_filter.mp inside).2
  rw [other] at holds
  contradiction

theorem writeSidePost (s : State) (h : Handler) :
    writeSide (post s h) =
      {writeSide s with handlers := (writeSide s).handlers ++ [h].filter isWrite} := by
  unfold writeSide post
  rw [List.filter_append]

theorem writeSideOther (s : State) {h : Handler} (other : isWrite h = false) :
    writeSide (post s h) = writeSide s := by
  rw [writeSidePost,List.filter_singleton,other]
  simp

theorem writeSideErase (s : State) {h : Handler} (other : isWrite h = false) :
    writeSide {s with posted := s.posted.erase h} = writeSide s := by
  unfold writeSide
  simp only
  rw [filterEraseOther other]

theorem sameWrites {failures : Prop} {w v : WriteSide} (same : v = w) : Writes failures w v := by
  rw [same]
  exact .keeps

theorem handledWrites {failures : Prop} {s t : State} {h : Handler} (open' : s.portOpen = true)
    (posted : h ∈ s.posted) (handled : Handled {s with posted := s.posted.erase h} h t) :
    Writes failures (writeSide s) (writeSide t) := by
  have inHandlers : isWrite h = true → h ∈ (writeSide s).handlers := fun holds =>
    List.mem_filter.mpr ⟨posted,holds⟩
  have side := filterErase isWrite h s.posted
  cases handled with
  | readStarts _ => exact sameWrites (writeSideErase s rfl)
  | readFailed ec arrived => exact sameWrites (writeSideErase s rfl)
  | appends arrived =>
    refine sameWrites ?_
    unfold appending
    rw [writeSideOther _ rfl]
    exact writeSideErase s rfl
  | readRefused shut => exact absurd open' (Bool.eq_false_iff.mp shut)
  | writeRefused shut => exact absurd open' (Bool.eq_false_iff.mp shut)
  | writeStarts _ =>
    simp only [writeSide]
    rw [side]
    exact .starts (inHandlers rfl)
  | writeFailed ec moved =>
    simp only [writeSide]
    rw [side]
    exact .stores ec moved (inHandlers rfl)
  | empties moved empty =>
    simp only [emptying,writeSide]
    rw [side]
    exact .empties moved (inHandlers rfl) empty
  | refills moved more =>
    unfold refilling
    rw [writeSidePost]
    simp only [writeSide]
    rw [side]
    exact .refills s.allocated moved (inHandlers rfl) more

theorem stepWrites {failures : Prop} {s t : State} {e : Event} (during : InSession s e)
    (may : ∀ u ec, e = .writeFails u ec → failures)
    (connected : s.running = true → s.portOpen = true) (moved : step s e = some t) :
    Writes failures (writeSide s) (writeSide t) := by
  cases stepped moved with
  | refuses range _ => exact .keeps
  | misses delim => exact .keeps
  | takes delim front back _ => exact .keeps
  | buffers range _ free =>
    unfold buffering
    rw [writeSidePost]
    exact .buffers s.allocated range during free
  | queues range _ busy => exact .queues range busy
  | closes closes => exact absurd during id
  | opens closes outcome =>
    refine sameWrites ?_
    rcases openClosed during closes outcome with same | ⟨_,same⟩ | ⟨_,same⟩
    · rw [same]
    · rw [same]
      rfl
    · rw [same]
      exact writeSideOther _ rfl
  | runs h _ running posted handled => exact handledWrites (connected running) posted handled
  | arrives chunk _ => exact sameWrites (writeSideOther _ rfl)
  | readFails ec _ => exact sameWrites (writeSideOther _ rfl)
  | transfers u outstanding =>
    rw [writeSidePost]
    exact .transfers u outstanding
  | writeFails u ec outstanding =>
    rw [writeSidePost]
    exact .fails (may u ec rfl) u ec outstanding

theorem stepConnected {s t : State} {e : Event} (during : InSession s e)
    (connected : s.running = true → s.portOpen = true) (moved : step s e = some t) :
    t.running = true → t.portOpen = true := by
  by_cases opens : Opens e
  · cases stepped moved with
    | opens closes outcome =>
      rcases openClosed during closes outcome with same | ⟨_,same⟩ | ⟨_,same⟩
      · rwa [same]
      · rw [same]
        exact fun _ => rfl
      · rw [same]
        exact fun _ => rfl
    | closes closes => exact absurd during id
    | _ => exact absurd opens id
  · obtain ⟨running,portOpen,_⟩ := Port.mk.inj (stepPort opens moved)
    rwa [running,portOpen]

/-! Who carries the buffer: nobody, the posted start, the transfer, or its posted
end. A failed transfer leaves the buffer with nobody, for good. -/
inductive Phase (failures : Prop) : WriteSide → Prop where
  | idle (buffer : Option Buffer) (done : Bytes) : Phase failures ⟨[],buffer,0,[],[],done,done,done⟩
  | starting (queue : Bytes) (b : Buffer) (done : Bytes) (some : b.bytes ≠ []) :
      Phase failures
        ⟨queue,b,b.bytes.length,[.startWrite],[],done ++ b.bytes ++ queue,done,done⟩
  | writing (queue : Bytes) (b : Buffer) (done : Bytes) (some : b.bytes ≠ []) :
      Phase failures
        ⟨queue,b,b.bytes.length,[],[⟨b,b.bytes.length⟩],done ++ b.bytes ++ queue,done,done⟩
  | finished (queue : Bytes) (b : Buffer) (done : Bytes) (some : b.bytes ≠ []) :
      Phase failures ⟨queue,b,b.bytes.length,[.finishWrite none b.bytes],[],
        done ++ b.bytes ++ queue,done,done ++ b.bytes⟩
  | failed (may : failures) (queue : Bytes) (b : Buffer) (done : Bytes) (ec : ErrorCode)
      (some : b.bytes ≠ []) :
      Phase failures ⟨queue,b,b.bytes.length,[.finishWrite (.some ec) []],[],
        done ++ b.bytes ++ queue,done,done⟩
  | stopped (may : failures) (queue : Bytes) (b : Buffer) (done : Bytes) (some : b.bytes ≠ []) :
      Phase failures ⟨queue,b,b.bytes.length,[],[],done ++ b.bytes ++ queue,done,done⟩

theorem phaseKept {failures : Prop} {w v : WriteSide} (phase : Phase failures w)
    (moves : Writes failures w v) : Phase failures v := by
  cases phase with
  | idle buffer done =>
    cases moves with
    | keeps => exact .idle buffer done
    | buffers n range some free =>
      have next : Phase failures _ := .starting [] ⟨n,range⟩ done some
      simpa using next
    | queues range busy => exact absurd rfl busy
    | _ => simp_all
  | starting queue b done some =>
    cases moves with
    | keeps => exact .starting queue b done some
    | queues range busy =>
      have next : Phase failures _ := .starting (queue ++ range) b done some
      simpa using next
    | starts posted =>
      have next : Phase failures _ := .writing queue b done some
      simpa using next
    | _ => simp_all
  | writing queue b done some =>
    cases moves with
    | keeps => exact .writing queue b done some
    | queues range busy =>
      have next : Phase failures _ := .writing (queue ++ range) b done some
      simpa using next
    | transfers t outstanding =>
      cases List.mem_singleton.mp outstanding
      have next : Phase failures _ := .finished queue b done some
      simpa [Transfer.bytes] using next
    | fails may t ec outstanding =>
      cases List.mem_singleton.mp outstanding
      have next : Phase failures _ := .failed may queue b done ec some
      simpa using next
    | _ => simp_all
  | finished queue b done some =>
    cases moves with
    | keeps => exact .finished queue b done some
    | queues range busy =>
      have next : Phase failures _ := .finished (queue ++ range) b done some
      simpa using next
    | empties moved posted empty =>
      cases List.mem_singleton.mp posted
      simp only at empty
      have next : Phase failures _ := .idle b (done ++ b.bytes)
      simpa [empty] using next
    | refills n moved posted more =>
      cases List.mem_singleton.mp posted
      have next : Phase failures _ := .starting [] ⟨n,queue⟩ (done ++ b.bytes) more
      simpa using next
    | _ => simp_all
  | failed may queue b done ec some =>
    cases moves with
    | keeps => exact .failed may queue b done ec some
    | queues range busy =>
      have next : Phase failures _ := .failed may (queue ++ range) b done ec some
      simpa using next
    | stores other moved posted =>
      cases List.mem_singleton.mp posted
      have next : Phase failures _ := .stopped may queue b done some
      simpa using next
    | _ => simp_all
  | stopped may queue b done some =>
    cases moves with
    | keeps => exact .stopped may queue b done some
    | queues range busy =>
      have next : Phase failures _ := .stopped may (queue ++ range) b done some
      simpa using next
    | _ => simp_all

def Flowing (failures : Prop) (s : State) : Prop :=
  Phase failures (writeSide s) ∧ (s.running = true → s.portOpen = true)

theorem flowingKept {failures : Prop} {s t : State} {e : Event} (during : InSession s e)
    (may : ∀ u ec, e = .writeFails u ec → failures) (moved : step s e = some t)
    (flowing : Flowing failures s) : Flowing failures t :=
  ⟨phaseKept flowing.1 (stepWrites during may flowing.2 moved),
    stepConnected during flowing.2 moved⟩

def Writing (s : State) (e : Event) : Prop :=
  InSession s e ∧ ∀ u ec, e ≠ .writeFails u ec

theorem constructedFlowing (failures : Prop) : Flowing failures constructed :=
  ⟨.idle none [],fun runs => absurd runs Bool.false_ne_true⟩

theorem writingFlowing {s : State} (reachable : Reachable step Writing constructed s) :
    Flowing False s := by
  refine reachableInvariant ?_ (constructedFlowing False) reachable
  intro s e t flowing allowed moved
  exact flowingKept allowed.1 (fun u ec same => allowed.2 u ec same) moved flowing

-- Posted starts, outstanding transfers and completed ones whose handler has not run.
def pending (s : State) : Nat := (s.posted.filter isWrite).length + s.writes.length

def carried (size : Nat) : Option Buffer → Bytes
  | some buffer => if size = 0 then [] else buffer.bytes.take size
  | none => []

def inFlight (s : State) : Bytes := carried s.writeBufferSize s.writeBuffer

theorem carriedWhole (b : Buffer) : carried b.bytes.length b = b.bytes := by
  simp only [carried]
  split
  · rename_i empty
    exact (List.length_eq_zero_iff.mp empty).symm
  · exact List.take_length

structure Orderly (w : WriteSide) : Prop where
  kept : w.completed ++ carried w.size w.buffer ++ w.queue = w.written
  one : w.size ≠ 0 ↔ w.handlers.length + w.transfers.length = 1
  none : w.size = 0 → w.handlers.length + w.transfers.length = 0 ∧ w.queue = []
  all : w.handlers.length + w.transfers.length = 0 → w.sent = w.written

theorem phaseOrderly {w : WriteSide} (phase : Phase False w) : Orderly w := by
  cases phase with
  | idle buffer done =>
    refine ⟨?_,by simp,by simp,by simp⟩
    cases buffer <;> simp [carried]
  | starting queue b done some =>
    exact ⟨by rw [carriedWhole],by simpa using some,by simpa using some,by simp⟩
  | writing queue b done some =>
    exact ⟨by rw [carriedWhole],by simpa using some,by simpa using some,by simp⟩
  | finished queue b done some =>
    exact ⟨by rw [carriedWhole],by simpa using some,by simpa using some,by simp⟩
  | failed may => exact may.elim
  | stopped may => exact may.elim

theorem outputFifo {s : State} (reachable : Reachable step Writing constructed s) :
    s.history.completed ++ inFlight s ++ s.writeQueue = s.history.written ∧
    (s.writeBufferSize ≠ 0 ↔ pending s = 1) ∧
    (s.writeBufferSize = 0 → pending s = 0 ∧ s.writeQueue = []) ∧
    (pending s = 0 → s.history.sent = s.history.written) := by
  obtain ⟨kept,one,none,all⟩ := phaseOrderly (writingFlowing reachable).1
  exact ⟨kept,one,none,all⟩

def overlapping : List Event :=
  [.openImpl true .succeeds,.write [116],.run .startWrite,.write [117,118],
    .writeCompletes ⟨some ⟨0,[116]⟩,1⟩,.run (.finishWrite none [116]),.write [119]]

theorem outputFifoStarted : ∃ s, Reachable step Writing constructed s ∧
    s.history.completed = [116] ∧ inFlight s = [117,118] ∧ s.writeQueue = [119] ∧ pending s = 1 ∧
    s.history.completed ++ inFlight s ++ s.writeQueue = s.history.written ∧
    (s.writeBufferSize ≠ 0 ↔ pending s = 1) ∧
    (s.writeBufferSize = 0 → pending s = 0 ∧ s.writeQueue = []) ∧
    (pending s = 0 → s.history.sent = s.history.written) := by
  have run : ∃ s, Run step Writing constructed overlapping s ∧ s.history.completed = [116] ∧
      inFlight s = [117,118] ∧ s.writeQueue = [119] ∧ pending s = 1 :=
    ⟨_,.next ⟨rfl,fun u ec same => by contradiction⟩ rfl
      (.next ⟨List.cons_ne_nil _ _,fun u ec same => by contradiction⟩ rfl
        (.next ⟨trivial,fun u ec same => by contradiction⟩ rfl
          (.next ⟨List.cons_ne_nil _ _,fun u ec same => by contradiction⟩ rfl
            (.next ⟨trivial,fun u ec same => by contradiction⟩ rfl
              (.next ⟨trivial,fun u ec same => by contradiction⟩ rfl
                (.next ⟨List.cons_ne_nil _ _,fun u ec same => by contradiction⟩ rfl (.done _))))))),
      rfl,rfl,rfl,rfl⟩
  obtain ⟨s,run,completed,flight,queued,one⟩ := run
  exact ⟨s,⟨_,run⟩,completed,flight,queued,one,outputFifo ⟨_,run⟩⟩

theorem liveBuffer {s : State} (reachable : Reachable step Writing constructed s) {t : Transfer}
    (outstanding : t ∈ s.writes) : t = ⟨s.writeBuffer,s.writeBufferSize⟩ := by
  have owned : ∀ w, Phase False w → t ∈ w.transfers → t = ⟨w.buffer,w.size⟩ := by
    intro w phase inside
    cases phase with
    | writing queue b done some => exact List.mem_singleton.mp inside
    | _ => simp at inside
  exact owned _ (writingFlowing reachable).1 outstanding

end Chambermaid.AsyncWrite
