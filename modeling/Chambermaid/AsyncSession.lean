import Chambermaid.AsyncWrite

/-! Input from the device to the callers, inside one open session: one chain of
reads on the shared buffer, whose bytes pass through the queue once and in order. -/
namespace Chambermaid.AsyncSession
open Runs AsyncImpl AsyncStep AsyncWrite

def isRead (h : Handler) : Bool := !isWrite h

structure ReadSide where
  queue : Bytes
  buffer : ReadBuffer
  handlers : List Handler
  reads : Nat
  received : Bytes
  taken : List (Bytes × Bytes)

def readSide (s : State) : ReadSide :=
  ⟨s.readQueue,s.readBuffer,s.posted.filter isRead,s.reads,s.history.received,s.history.taken⟩

def joined (taken : List (Bytes × Bytes)) : Bytes := taken.flatMap (fun call => call.1 ++ call.2)

/-! What a step may do to the read side; the chain ends only where it may fail. -/
inductive Reads (failing : Prop) (r : ReadSide) : ReadSide → Prop where
  | keeps : Reads failing r r
  | takes (front delim back : Bytes) (split : r.queue = front ++ delim ++ back) :
      Reads failing r {r with queue := back,taken := r.taken ++ [(front,delim)]}
  | starts (posted : .startRead ∈ r.handlers) :
      Reads failing r {r with
        buffer := wiped
        handlers := r.handlers.erase .startRead
        reads := r.reads + 1}
  | arrives (chunk : Chunk) (outstanding : 0 < r.reads) :
      Reads failing r {r with
        buffer := fill r.buffer chunk
        handlers := r.handlers ++ [.finishRead none chunk.bytes]
        reads := r.reads - 1}
  | fails (ec : ErrorCode) (outstanding : 0 < r.reads) :
      Reads failing r {r with
        handlers := r.handlers ++ [.finishRead (some ec) []]
        reads := r.reads - 1}
  | appends (arrived : Bytes) (posted : .finishRead none arrived ∈ r.handlers) :
      Reads failing r {r with
        queue := r.queue ++ r.buffer.bytes.take arrived.length
        handlers := r.handlers.erase (.finishRead none arrived) ++ [.startRead]
        received := r.received ++ arrived}
  | stores (may : failing) (ec : ErrorCode) (arrived : Bytes)
      (posted : .finishRead (some ec) arrived ∈ r.handlers) :
      Reads failing r {r with handlers := r.handlers.erase (.finishRead (some ec) arrived)}

theorem readSidePost (s : State) (h : Handler) :
    readSide (post s h) =
      {readSide s with handlers := (readSide s).handlers ++ [h].filter isRead} := by
  unfold readSide post
  rw [List.filter_append]

theorem readSideOther (s : State) {h : Handler} (other : isRead h = false) :
    readSide (post s h) = readSide s := by
  rw [readSidePost,List.filter_singleton,other]
  simp

theorem readSideErase (s : State) {h : Handler} (other : isRead h = false) :
    readSide {s with posted := s.posted.erase h} = readSide s := by
  unfold readSide
  simp only
  rw [filterEraseOther other]

theorem sameReads {failing : Prop} {r v : ReadSide} (same : v = r) : Reads failing r v := by
  rw [same]
  exact .keeps

theorem handledReads {failing : Prop} {s t : State} {h : Handler} (open' : s.portOpen = true)
    (may : ∀ ec arrived, h = .finishRead (some ec) arrived → failing) (posted : h ∈ s.posted)
    (handled : Handled {s with posted := s.posted.erase h} h t) :
    Reads failing (readSide s) (readSide t) := by
  have inHandlers : isRead h = true → h ∈ (readSide s).handlers := fun holds =>
    List.mem_filter.mpr ⟨posted,holds⟩
  have side := filterErase isRead h s.posted
  cases handled with
  | writeStarts _ => exact sameReads (readSideErase s rfl)
  | writeFailed ec moved => exact sameReads (readSideErase s rfl)
  | empties moved _ => exact sameReads (readSideErase s rfl)
  | refills moved _ =>
    refine sameReads ?_
    unfold refilling
    rw [readSideOther _ rfl]
    exact readSideErase s rfl
  | readRefused shut => exact absurd open' (Bool.eq_false_iff.mp shut)
  | writeRefused shut => exact absurd open' (Bool.eq_false_iff.mp shut)
  | readStarts _ =>
    simp only [readSide]
    rw [side]
    exact .starts (inHandlers rfl)
  | readFailed ec arrived =>
    simp only [readSide]
    rw [side]
    exact .stores (may ec arrived rfl) ec arrived (inHandlers rfl)
  | appends arrived =>
    unfold appending
    rw [readSidePost]
    simp only [readSide]
    rw [side]
    exact .appends arrived (inHandlers rfl)

theorem stepReads {failing : Prop} {s t : State} {e : Event} (stays : ¬ Opens e)
    (may : ∀ ec arrived, e = .run (.finishRead (some ec) arrived) → failing)
    (connected : s.running = true → s.portOpen = true) (moved : step s e = some t) :
    Reads failing (readSide s) (readSide t) := by
  cases stepped moved with
  | refuses range _ => exact .keeps
  | buffers range _ _ => exact sameReads (readSideOther _ rfl)
  | queues range _ _ => exact .keeps
  | misses delim => exact .keeps
  | takes delim front back split => exact .takes front delim back split
  | closes closes => exact absurd trivial stays
  | opens closes outcome => exact absurd trivial stays
  | runs h _ running posted handled =>
    have fails : ∀ ec arrived, h = .finishRead (some ec) arrived → failing := fun ec arrived same =>
      may ec arrived (by rw [same])
    exact handledReads (connected running) fails posted handled
  | arrives chunk outstanding =>
    rw [readSidePost]
    exact .arrives chunk outstanding
  | readFails ec outstanding =>
    rw [readSidePost]
    exact .fails ec outstanding
  | transfers u _ => exact sameReads (readSideOther _ rfl)
  | writeFails u ec _ => exact sameReads (readSideOther _ rfl)

/-! Where the one chain of reads stands: about to start, outstanding, ended with a
chunk that still is in the buffer, or ended by an error. -/
inductive Stage : ReadBuffer → List Handler → Nat → Prop where
  | starting (buffer : ReadBuffer) : Stage buffer [.startRead] 0
  | reading (buffer : ReadBuffer) : Stage buffer [] 1
  | finished (buffer : ReadBuffer) (arrived : Bytes)
      (holds : buffer.bytes.take arrived.length = arrived) :
      Stage buffer [.finishRead none arrived] 0
  | failed (buffer : ReadBuffer) (ec : ErrorCode) : Stage buffer [.finishRead (some ec) []] 0
  | stopped (buffer : ReadBuffer) : Stage buffer [] 0

structure Chain (r : ReadSide) : Prop where
  whole : joined r.taken ++ r.queue = r.received
  stage : Stage r.buffer r.handlers r.reads

theorem stageKept {failing : Prop} {r v : ReadSide} (stage : Stage r.buffer r.handlers r.reads)
    (moves : Reads failing r v) : Stage v.buffer v.handlers v.reads := by
  obtain ⟨queue,buffer,handlers,reads,received,taken⟩ := r
  cases stage with
  | starting =>
    cases moves with
    | starts posted =>
      have next : Stage wiped [] 1 := .reading wiped
      simpa using next
    | keeps => exact .starting buffer
    | takes front delim back split => exact .starting buffer
    | _ => simp_all
  | reading =>
    cases moves with
    | arrives chunk outstanding => exact .finished _ chunk.bytes (fillTake buffer chunk)
    | fails ec outstanding => exact .failed buffer ec
    | keeps => exact .reading buffer
    | takes front delim back split => exact .reading buffer
    | _ => simp_all
  | finished arrived holds =>
    cases moves with
    | appends other posted =>
      cases List.mem_singleton.mp posted
      have next : Stage buffer [.startRead] 0 := .starting buffer
      simpa using next
    | keeps => exact .finished buffer arrived holds
    | takes front delim back split => exact .finished buffer arrived holds
    | _ => simp_all
  | failed ec =>
    cases moves with
    | stores may other arrived posted =>
      cases List.mem_singleton.mp posted
      have next : Stage buffer [] 0 := .stopped buffer
      simpa using next
    | keeps => exact .failed buffer ec
    | takes front delim back split => exact .failed buffer ec
    | _ => simp_all
  | stopped =>
    cases moves with
    | keeps => exact .stopped buffer
    | takes front delim back split => exact .stopped buffer
    | _ => simp_all

theorem stageHolds {buffer : ReadBuffer} {handlers : List Handler} {reads : Nat} {arrived : Bytes}
    (stage : Stage buffer handlers reads) (posted : .finishRead none arrived ∈ handlers) :
    buffer.bytes.take arrived.length = arrived := by
  cases stage with
  | finished other holds =>
    cases List.mem_singleton.mp posted
    exact holds
  | _ => simp at posted

theorem chainKept {failing : Prop} {r v : ReadSide} (chain : Chain r) (moves : Reads failing r v) :
    Chain v := by
  refine ⟨?_,stageKept chain.stage moves⟩
  cases moves with
  | takes front delim back split =>
    have whole := chain.whole
    rw [split] at whole
    simpa [joined] using whole
  | appends arrived posted =>
    have whole := chain.whole
    have holds := stageHolds chain.stage posted
    simp only [holds]
    rw [← List.append_assoc,whole]
  | _ => exact chain.whole

theorem stageOne {buffer : ReadBuffer} {handlers : List Handler} {reads : Nat}
    (stage : Stage buffer handlers reads) : handlers.length + reads ≤ 1 := by
  cases stage <;> simp

def Session (_ : State) (e : Event) : Prop := ¬ Opens e

def Reading (s : State) : Prop := Chain (readSide s) ∧ s.portOpen = true

theorem readingKept {s t : State} {e : Event} (reading : Reading s) (allowed : Session s e)
    (moved : step s e = some t) : Reading t := by
  have moves : Reads True (readSide s) (readSide t) :=
    stepReads allowed (fun _ _ _ => trivial) (fun _ => reading.2) moved
  refine ⟨chainKept reading.1 moves,?_⟩
  obtain ⟨_,portOpen,_⟩ := Port.mk.inj (stepPort allowed moved)
  rw [portOpen]
  exact reading.2

theorem openedReading : Reading opened := ⟨⟨rfl,.starting wiped⟩,rfl⟩

end Chambermaid.AsyncSession
