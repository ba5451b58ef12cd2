/-! The asynchronous port: `AsyncImpl` with the serial port under it. Calls and
handlers are steps on one state (the two mutexes make each of them atomic); the
device and the order in which posted handlers run are events. Boost completes
outstanding operations with `operation_aborted` when the port is closed and keeps
posted handlers across stop and reset. The history records what the device and
the callers saw; no operation reads it. -/
namespace Chambermaid.AsyncImpl

abbrev Bytes := List UInt8

def readBufferSize : Nat := 512

structure Chunk where
  bytes : Bytes
  fits : bytes.length ≤ readBufferSize
  deriving DecidableEq, Repr

structure ReadBuffer where
  bytes : Bytes
  size : bytes.length = readBufferSize
  deriving DecidableEq, Repr

def wiped : ReadBuffer := ⟨List.replicate readBufferSize 0,List.length_replicate ..⟩

def fill (buffer : ReadBuffer) (chunk : Chunk) : ReadBuffer :=
  ⟨chunk.bytes ++ buffer.bytes.drop chunk.bytes.length,by
    have fits := chunk.fits
    simp only [List.length_append,List.length_drop,buffer.size]
    omega⟩

theorem fillTake (buffer : ReadBuffer) (chunk : Chunk) :
    (fill buffer chunk).bytes.take chunk.bytes.length = chunk.bytes := by
  simp [fill]

inductive ErrorCode where
  | couldNotOpen | operationAborted | badDescriptor | device (number : Nat)
  deriving DecidableEq, Repr

-- One new char[]: the number tells allocations apart.
structure Buffer where
  allocation : Nat
  bytes : Bytes
  deriving DecidableEq, Repr

/-! A finished read tells its handler how many bytes are in the shared buffer. The
handler here carries the bytes the device put there; only their number is used by
the handler itself. -/
inductive Handler where
  | startRead | startWrite
  | finishRead (ec : Option ErrorCode) (arrived : Bytes)
  | finishWrite (ec : Option ErrorCode) (transferred : Bytes)
  deriving DecidableEq, Repr

structure Transfer where
  buffer : Option Buffer
  size : Nat
  deriving DecidableEq, Repr

def Transfer.bytes (t : Transfer) : Bytes :=
  match t.buffer with
  | some buffer => buffer.bytes.take t.size
  | none => []

structure History where
  received : Bytes
  taken : List (Bytes × Bytes)
  written : Bytes
  completed : Bytes
  sent : Bytes
  deriving DecidableEq, Repr

def History.empty : History := ⟨[],[],[],[],[]⟩

structure State where
  error : Option ErrorCode
  isOpen : Bool
  readQueue : Bytes
  readBuffer : ReadBuffer
  writeQueue : Bytes
  writeBuffer : Option Buffer
  writeBufferSize : Nat
  allocated : Nat
  posted : List Handler
  running : Bool
  portOpen : Bool
  reads : Nat
  writes : List Transfer
  history : History
  deriving DecidableEq, Repr

def constructed : State :=
  ⟨none,false,[],wiped,[],none,0,0,[],false,false,0,[],History.empty⟩

def post (s : State) (h : Handler) : State := {s with posted := s.posted ++ [h]}

def write (s : State) (range : Bytes) : Except ErrorCode State :=
  match s.error with
  | some ec => .error ec
  | none =>
    let s := {s with history := {s.history with written := s.history.written ++ range}}
    if s.writeBufferSize = 0 then
      .ok (post {s with
        writeBufferSize := range.length
        writeBuffer := some ⟨s.allocated,range⟩
        allocated := s.allocated + 1} .startWrite)
    else .ok {s with writeQueue := s.writeQueue ++ range}

-- The inner loop of the search: every byte of delim against the queue from here on.
def matchesHere : Bytes → Bytes → Bool
  | [],_ => true
  | d::delim,x::queue => if x ≠ d then false else matchesHere delim queue
  | _::_,[] => false

/- The outer loop; `room` is `end - found`, and the result counts the steps taken. -/
def searchLoop (delim : Bytes) : Nat → Bytes → Nat
  | 0,_ => 0
  | room+1,queue => if matchesHere delim queue then 0 else searchLoop delim room queue.tail + 1

def readStringUntil (s : State) (delim : Bytes) : Except ErrorCode (Option Bytes × State) :=
  match s.error with
  | some ec => .error ec
  | none =>
    if s.readQueue.length < delim.length then .ok (none,s) else
      let stop := s.readQueue.length - delim.length
      let found := searchLoop delim stop s.readQueue
      if found = stop then .ok (none,s) else
        let result := s.readQueue.take found
        .ok (some result,{s with
          readQueue := s.readQueue.drop (found + delim.length),
          history := {s.history with taken := s.history.taken ++ [(result,delim)]}})

def asyncWrite (s : State) : State :=
  if s.portOpen then {s with writes := s.writes ++ [⟨s.writeBuffer,s.writeBufferSize⟩]}
  else post s (.finishWrite (some .badDescriptor) [])

def asyncRead (s : State) : State :=
  if s.portOpen then {s with reads := s.reads+1} else post s (.finishRead (some .badDescriptor) [])

def startWrite (s : State) : State := asyncWrite s

def startRead (s : State) : State := asyncRead {s with readBuffer := wiped}

def finishWrite (s : State) (ec : Option ErrorCode) (transferred : Bytes) : State :=
  match ec with
  | some ec => {s with error := some ec}
  | none =>
    let s := {s with history := {s.history with completed := s.history.completed ++ transferred}}
    if s.writeQueue = [] then {s with writeBufferSize := 0}
    else post {s with
      writeBufferSize := s.writeQueue.length
      writeBuffer := some ⟨s.allocated,s.writeQueue⟩
      allocated := s.allocated + 1
      writeQueue := []} .startWrite

def finishRead (s : State) (ec : Option ErrorCode) (arrived : Bytes) : State :=
  match ec with
  | some ec => {s with error := some ec}
  | none => post {s with
      readQueue := s.readQueue ++ s.readBuffer.bytes.take arrived.length,
      history := {s.history with received := s.history.received ++ arrived}} .startRead

def handle (s : State) : Handler → State
  | .startRead => startRead s
  | .startWrite => startWrite s
  | .finishRead ec arrived => finishRead s ec arrived
  | .finishWrite ec transferred => finishWrite s ec transferred

structure Result where
  state : State
  thrown : Option ErrorCode
  deriving DecidableEq, Repr

-- SerialImpl::_close; the argument says whether serial.close() succeeds.
def closePort (s : State) (closes : Bool) : Result :=
  if closes then
    ⟨{s with
      posted := s.posted ++ List.replicate s.reads (.finishRead (some .operationAborted) []) ++
        s.writes.map (fun _ => .finishWrite (some .operationAborted) []),
      reads := 0, writes := [], portOpen := false, isOpen := false},none⟩
  else ⟨s,some (.device 0)⟩

def close (s : State) (closes : Bool) : Result :=
  if s.isOpen then
    closePort {s with running := false, writeBuffer := none, writeBufferSize := 0} closes
  else ⟨s,none⟩

inductive Configure where
  | succeeds | openFails | optionFails
  deriving DecidableEq, Repr

-- SerialImpl::_configure; serial.open() fails on a port that is already open.
def configure (s : State) (outcome : Configure) : Result :=
  if s.portOpen ∨ outcome = .openFails then ⟨s,some (.device 1)⟩ else
    let s := {s with portOpen := true}
    if outcome = .optionFails then ⟨s,some (.device 2)⟩
    else if s.portOpen then ⟨{s with isOpen := true},none⟩
    else ⟨{s with isOpen := false, error := some .couldNotOpen},some .couldNotOpen⟩

def openImpl (s : State) (closes : Bool) (outcome : Configure) : Result :=
  let closed := close s closes
  if closed.thrown ≠ none then closed else
    let configured := configure closed.state outcome
    if configured.thrown ≠ none then configured else
      let s := configured.state
      if s.isOpen then ⟨post {s with running := true} .startRead,none⟩
      else ⟨{s with error := some .couldNotOpen},some .couldNotOpen⟩

inductive Event where
  | write (range : Bytes)
  | readStringUntil (delim : Bytes)
  | close (closes : Bool)
  | openImpl (closes : Bool) (outcome : Configure)
  | run (h : Handler)
  | readCompletes (chunk : Chunk)
  | readFails (ec : ErrorCode)
  | writeCompletes (t : Transfer)
  | writeFails (t : Transfer) (ec : ErrorCode)
  deriving DecidableEq, Repr

def step (s : State) : Event → Option State
  | .write range => match write s range with
    | .ok t => some t
    | .error _ => some s
  | .readStringUntil delim => match readStringUntil s delim with
    | .ok (_,t) => some t
    | .error _ => some s
  | .close closes => some (close s closes).state
  | .openImpl closes outcome => some (openImpl s closes outcome).state
  | .run h =>
    if s.running ∧ h ∈ s.posted then some (handle {s with posted := s.posted.erase h} h) else none
  | .readCompletes chunk =>
    if 0 < s.reads then
      some (post {s with reads := s.reads-1, readBuffer := fill s.readBuffer chunk}
        (.finishRead none chunk.bytes))
    else none
  | .readFails ec =>
    if 0 < s.reads then some (post {s with reads := s.reads-1} (.finishRead (some ec) [])) else none
  | .writeCompletes t =>
    if t ∈ s.writes then
      some (post {s with
        writes := s.writes.erase t,
        history := {s.history with sent := s.history.sent ++ t.bytes}} (.finishWrite none t.bytes))
    else none
  | .writeFails t ec =>
    if t ∈ s.writes then
      some (post {s with writes := s.writes.erase t} (.finishWrite (some ec) []))
    else none

def opened : State := (openImpl constructed true .succeeds).state

def started (s : State) : State :=
  post {s with portOpen := true, isOpen := true, running := true} .startRead

theorem openCases (s : State) (closes : Bool) (outcome : Configure) :
    openImpl s closes outcome =
      if (close s closes).thrown ≠ none then close s closes
      else if (close s closes).state.portOpen = true ∨ outcome = .openFails then
        ⟨(close s closes).state,some (.device 1)⟩
      else if outcome = .optionFails then
        ⟨{(close s closes).state with portOpen := true},some (.device 2)⟩
      else ⟨started (close s closes).state,none⟩ := by
  unfold openImpl configure
  by_cases threw : (close s closes).thrown ≠ none
  · simp [threw]
  · by_cases blocked : (close s closes).state.portOpen = true ∨ outcome = .openFails
    · simp [threw,blocked]
    · obtain ⟨free,opens⟩ := not_or.mp blocked
      by_cases options : outcome = .optionFails
      · simp [threw,free,options]
      · simp [threw,free,opens,options,started]

theorem closeClosed {s : State} (closed : s.isOpen = false) (closes : Bool) :
    close s closes = ⟨s,none⟩ := by
  unfold close
  rw [closed]
  rfl

theorem openClosed {s : State} (closed : s.isOpen = false) (closes : Bool) (outcome : Configure) :
    (openImpl s closes outcome).state = s ∨
    (s.portOpen = false ∧ (openImpl s closes outcome).state = {s with portOpen := true}) ∨
    (s.portOpen = false ∧ (openImpl s closes outcome).state = started s) := by
  rw [openCases,closeClosed closed]
  by_cases blocked : s.portOpen = true ∨ outcome = .openFails
  · simp [blocked]
  · obtain ⟨free,opens⟩ := not_or.mp blocked
    rw [Bool.not_eq_true] at free
    by_cases options : outcome = .optionFails
    · simp [free,options]
    · simp [free,opens,options]

end Chambermaid.AsyncImpl
