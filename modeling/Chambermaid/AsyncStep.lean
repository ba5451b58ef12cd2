import Chambermaid.AsyncRead

/-! What a step can do, said once: one case for each way in which a call, a handler
or the device changes the state, with its guards. Invariants are derived from these
cases and not from the definitions. -/
namespace Chambermaid.AsyncStep
open AsyncImpl AsyncRead

def buffering (s : State) (range : Bytes) : State :=
  post {s with
    writeBufferSize := range.length
    writeBuffer := some ⟨s.allocated,range⟩
    allocated := s.allocated + 1
    history := {s.history with written := s.history.written ++ range}} .startWrite

def queueing (s : State) (range : Bytes) : State :=
  {s with
    writeQueue := s.writeQueue ++ range
    history := {s.history with written := s.history.written ++ range}}

def emptying (s : State) (moved : Bytes) : State :=
  {s with
    writeBufferSize := 0
    history := {s.history with completed := s.history.completed ++ moved}}

def refilling (s : State) (moved : Bytes) : State :=
  post {s with
    writeBufferSize := s.writeQueue.length
    writeBuffer := some ⟨s.allocated,s.writeQueue⟩
    allocated := s.allocated + 1
    writeQueue := []
    history := {s.history with completed := s.history.completed ++ moved}} .startWrite

def appending (s : State) (arrived : Bytes) : State :=
  post {s with
    readQueue := s.readQueue ++ s.readBuffer.bytes.take arrived.length
    history := {s.history with received := s.history.received ++ arrived}} .startRead

inductive Handled (s : State) : Handler → State → Prop where
  | readStarts (open' : s.portOpen = true) :
      Handled s .startRead {s with readBuffer := wiped,reads := s.reads + 1}
  | readRefused (shut : s.portOpen = false) :
      Handled s .startRead (post {s with readBuffer := wiped} (.finishRead (some .badDescriptor) []))
  | writeStarts (open' : s.portOpen = true) :
      Handled s .startWrite {s with writes := s.writes ++ [⟨s.writeBuffer,s.writeBufferSize⟩]}
  | writeRefused (shut : s.portOpen = false) :
      Handled s .startWrite (post s (.finishWrite (some .badDescriptor) []))
  | readFailed (ec : ErrorCode) (arrived : Bytes) :
      Handled s (.finishRead (some ec) arrived) {s with error := some ec}
  | appends (arrived : Bytes) : Handled s (.finishRead none arrived) (appending s arrived)
  | writeFailed (ec : ErrorCode) (moved : Bytes) :
      Handled s (.finishWrite (some ec) moved) {s with error := some ec}
  | empties (moved : Bytes) (empty : s.writeQueue = []) :
      Handled s (.finishWrite none moved) (emptying s moved)
  | refills (moved : Bytes) (more : s.writeQueue ≠ []) :
      Handled s (.finishWrite none moved) (refilling s moved)

inductive Stepped (s : State) : Event → State → Prop where
  | refuses (range : Bytes) (stored : s.error ≠ none) : Stepped s (.write range) s
  | buffers (range : Bytes) (clear : s.error = none) (free : s.writeBufferSize = 0) :
      Stepped s (.write range) (buffering s range)
  | queues (range : Bytes) (clear : s.error = none) (busy : s.writeBufferSize ≠ 0) :
      Stepped s (.write range) (queueing s range)
  | misses (delim : Bytes) : Stepped s (.readStringUntil delim) s
  | takes (delim front back : Bytes) (split : s.readQueue = front ++ delim ++ back) :
      Stepped s (.readStringUntil delim) (taking s delim front back)
  | closes (closes : Bool) : Stepped s (.close closes) (close s closes).state
  | opens (closes : Bool) (outcome : Configure) :
      Stepped s (.openImpl closes outcome) (openImpl s closes outcome).state
  | runs (h : Handler) (t : State) (running : s.running = true) (posted : h ∈ s.posted)
      (handled : Handled {s with posted := s.posted.erase h} h t) : Stepped s (.run h) t
  | arrives (chunk : Chunk) (outstanding : 0 < s.reads) :
      Stepped s (.readCompletes chunk) (post {s with
        reads := s.reads - 1
        readBuffer := fill s.readBuffer chunk} (.finishRead none chunk.bytes))
  | readFails (ec : ErrorCode) (outstanding : 0 < s.reads) :
      Stepped s (.readFails ec) (post {s with reads := s.reads - 1} (.finishRead (some ec) []))
  | transfers (u : Transfer) (outstanding : u ∈ s.writes) :
      Stepped s (.writeCompletes u) (post {s with
        writes := s.writes.erase u
        history := {s.history with sent := s.history.sent ++ u.bytes}} (.finishWrite none u.bytes))
  | writeFails (u : Transfer) (ec : ErrorCode) (outstanding : u ∈ s.writes) :
      Stepped s (.writeFails u ec)
        (post {s with writes := s.writes.erase u} (.finishWrite (some ec) []))

theorem writeRefuses {s : State} (range : Bytes) (stored : s.error ≠ none) :
    ∃ ec, write s range = .error ec := by
  unfold write
  split
  · exact ⟨_,rfl⟩
  · rename_i clear
    exact absurd clear stored

theorem writeBuffers {s : State} (range : Bytes) (clear : s.error = none)
    (free : s.writeBufferSize = 0) : write s range = .ok (buffering s range) := by
  unfold write
  split
  · rename_i stored
    rw [clear] at stored
    contradiction
  · exact if_pos free

theorem writeQueues {s : State} (range : Bytes) (clear : s.error = none)
    (busy : s.writeBufferSize ≠ 0) : write s range = .ok (queueing s range) := by
  unfold write
  split
  · rename_i stored
    rw [clear] at stored
    contradiction
  · exact if_neg busy

theorem writeStepped {s t : State} {range : Bytes} (moved : step s (.write range) = some t) :
    Stepped s (.write range) t := by
  simp only [step] at moved
  by_cases clear : s.error = none
  · by_cases free : s.writeBufferSize = 0
    · rw [writeBuffers range clear free] at moved
      cases moved
      exact .buffers range clear free
    · rw [writeQueues range clear free] at moved
      cases moved
      exact .queues range clear free
  · obtain ⟨ec,refused⟩ := writeRefuses range clear
    rw [refused] at moved
    cases moved
    exact .refuses range clear

theorem readStepped {s t : State} {delim : Bytes} (moved : step s (.readStringUntil delim) = some t) :
    Stepped s (.readStringUntil delim) t := by
  simp only [step] at moved
  cases stored : s.error with
  | some ec =>
    rw [readRefuses stored] at moved
    cases moved
    exact .misses delim
  | none =>
    rcases readCases delim stored with ⟨_,nothing⟩ | ⟨front,back,split,_,_,taken⟩
    · rw [nothing] at moved
      cases moved
      exact .misses delim
    · rw [taken] at moved
      cases moved
      exact .takes delim front back split

theorem handled (s : State) (h : Handler) : Handled s h (handle s h) := by
  cases h with
  | startRead =>
    simp only [handle,startRead,asyncRead]
    split
    · rename_i open'
      exact .readStarts open'
    · rename_i shut
      exact .readRefused (Bool.eq_false_iff.mpr shut)
  | startWrite =>
    simp only [handle,startWrite,asyncWrite]
    split
    · rename_i open'
      exact .writeStarts open'
    · rename_i shut
      exact .writeRefused (Bool.eq_false_iff.mpr shut)
  | finishRead ec arrived =>
    cases ec with
    | some ec => exact .readFailed ec arrived
    | none => exact .appends arrived
  | finishWrite ec moved =>
    cases ec with
    | some ec => exact .writeFailed ec moved
    | none =>
      simp only [handle,finishWrite]
      split
      · rename_i empty
        exact .empties moved empty
      · rename_i more
        exact .refills moved more

theorem stepped {s t : State} {e : Event} (moved : step s e = some t) : Stepped s e t := by
  cases e with
  | write range => exact writeStepped moved
  | readStringUntil delim => exact readStepped moved
  | close closes =>
    cases moved
    exact .closes closes
  | openImpl closes outcome =>
    cases moved
    exact .opens closes outcome
  | run h =>
    obtain ⟨takes,same⟩ := Option.ite_none_right_eq_some.mp moved
    cases same
    exact .runs h _ takes.1 takes.2 (handled _ h)
  | readCompletes chunk =>
    obtain ⟨outstanding,same⟩ := Option.ite_none_right_eq_some.mp moved
    cases same
    exact .arrives chunk outstanding
  | readFails ec =>
    obtain ⟨outstanding,same⟩ := Option.ite_none_right_eq_some.mp moved
    cases same
    exact .readFails ec outstanding
  | writeCompletes u =>
    obtain ⟨outstanding,same⟩ := Option.ite_none_right_eq_some.mp moved
    cases same
    exact .transfers u outstanding
  | writeFails u ec =>
    obtain ⟨outstanding,same⟩ := Option.ite_none_right_eq_some.mp moved
    cases same
    exact .writeFails u ec outstanding

structure Port where
  running : Bool
  portOpen : Bool
  isOpen : Bool
  deriving DecidableEq, Repr

def port (s : State) : Port := ⟨s.running,s.portOpen,s.isOpen⟩

def Opens : Event → Prop
  | .close _ => True
  | .openImpl _ _ => True
  | _ => False

theorem handledPort {s t : State} {h : Handler} (handled : Handled s h t) : port t = port s := by
  cases handled <;> rfl

theorem stepPort {s t : State} {e : Event} (stays : ¬ Opens e) (moved : step s e = some t) :
    port t = port s := by
  cases stepped moved with
  | closes closes => exact absurd trivial stays
  | opens closes outcome => exact absurd trivial stays
  | runs h _ _ _ handled =>
    have kept := handledPort handled
    exact kept
  | _ => rfl

theorem runStep {s : State} {h : Handler} (runs : s.running = true) (posted : h ∈ s.posted) :
    step s (.run h) = some (handle {s with posted := s.posted.erase h} h) :=
  if_pos ⟨runs,posted⟩

theorem runStartWrite {s : State} (runs : s.running = true) (open' : s.portOpen = true)
    (posted : .startWrite ∈ s.posted) : step s (.run .startWrite) = some {s with
      posted := s.posted.erase .startWrite
      writes := s.writes ++ [⟨s.writeBuffer,s.writeBufferSize⟩]} := by
  rw [runStep runs posted]
  exact congrArg some (if_pos open')

theorem runRefill {s : State} {moved : Bytes} (runs : s.running = true)
    (posted : .finishWrite none moved ∈ s.posted) (more : s.writeQueue ≠ []) :
    step s (.run (.finishWrite none moved)) =
      some (refilling {s with posted := s.posted.erase (.finishWrite none moved)} moved) := by
  rw [runStep runs posted]
  exact congrArg some (if_neg more)

theorem writeFirst {s : State} (range : Bytes) (clear : s.error = none)
    (free : s.writeBufferSize = 0) : step s (.write range) = some (buffering s range) := by
  simp only [step,writeBuffers range clear free]

theorem writeNext {s : State} (range : Bytes) (clear : s.error = none)
    (busy : s.writeBufferSize ≠ 0) : step s (.write range) = some (queueing s range) := by
  simp only [step,writeQueues range clear busy]

end Chambermaid.AsyncStep
