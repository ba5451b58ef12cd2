import Chambermaid.AsyncSession
import Mathlib.Data.List.Perm.Subperm

/-! Closing and opening again. Neither call clears the stored error, empties the
queues or drops what is still posted, and in no session, the first one included, is
what follows an empty write sent once. -/
namespace Chambermaid.AsyncReopen
open Runs AsyncImpl AsyncStep AsyncWrite AsyncSession

def readers (s : State) : Nat := (readSide s).handlers.length + (readSide s).reads

def Busy (n : Nat) (s : State) : Prop := s.error ≠ none ∨ n ≤ readers s

def Connected (s : State) : Prop := s.running = true → s.isOpen = true ∧ s.portOpen = true

theorem closeError (s : State) (closes : Bool) : (close s closes).state.error = s.error := by
  unfold close closePort
  split
  · split <;> rfl
  · rfl

theorem openError (s : State) (closes : Bool) (outcome : Configure) :
    (openImpl s closes outcome).state.error = s.error := by
  rw [openCases]
  split
  · exact closeError s closes
  · split
    · exact closeError s closes
    · split
      · exact closeError s closes
      · exact closeError s closes

theorem handledError {s t : State} {h : Handler} (kept : s.error ≠ none)
    (handled : Handled s h t) : t.error ≠ none := by
  cases handled with
  | readFailed ec arrived => exact Option.some_ne_none ec
  | writeFailed ec moved => exact Option.some_ne_none ec
  | _ => exact kept

theorem stepError {s t : State} {e : Event} (kept : s.error ≠ none) (moved : step s e = some t) :
    t.error ≠ none := by
  cases stepped moved with
  | closes closes =>
    rw [closeError]
    exact kept
  | opens closes outcome =>
    rw [openError]
    exact kept
  | runs h _ _ _ handled => exact @handledError {s with posted := s.posted.erase h} _ _ kept handled
  | _ => exact kept

theorem closeStops (s : State) (closes : Bool) :
    (close s closes).state.running = false ∨ (close s closes).state = s := by
  unfold close closePort
  split
  · left
    split <;> rfl
  · exact .inr rfl

theorem closeConnected {s : State} (connected : Connected s) (closes : Bool) :
    Connected (close s closes).state := by
  rcases closeStops s closes with stopped | same
  · intro runs
    rw [stopped] at runs
    contradiction
  · rwa [same]

theorem openConnected {s : State} (connected : Connected s) (closes : Bool) (outcome : Configure) :
    Connected (openImpl s closes outcome).state := by
  have closed := closeConnected connected closes
  rw [openCases]
  split
  · exact closed
  · split
    · exact closed
    · split
      · exact fun runs => ⟨(closed runs).1,rfl⟩
      · exact fun _ => ⟨rfl,rfl⟩

theorem connectedKept {s t : State} {e : Event} (connected : Connected s)
    (moved : step s e = some t) : Connected t := by
  by_cases opens : Opens e
  · cases stepped moved with
    | closes closes => exact closeConnected connected closes
    | opens closes outcome => exact openConnected connected closes outcome
    | _ => exact absurd opens id
  · obtain ⟨running,portOpen,isOpen⟩ := Port.mk.inj (stepPort opens moved)
    unfold Connected
    rw [running,portOpen,isOpen]
    exact connected

/-! Chains of reads are never lost: a step keeps their number, unless one of them
ends by storing an error. -/
theorem readsKept {r v : ReadSide} (moves : Reads False r v) :
    r.handlers.length + r.reads ≤ v.handlers.length + v.reads := by
  cases moves with
  | keeps => exact Nat.le_refl _
  | takes front delim back split => exact Nat.le_refl _
  | starts posted =>
    have positive := List.length_pos_of_mem posted
    simp only [List.length_erase_of_mem posted]
    omega
  | arrives chunk outstanding =>
    simp only [List.length_append,List.length_singleton]
    omega
  | fails ec outstanding =>
    simp only [List.length_append,List.length_singleton]
    omega
  | appends arrived posted =>
    have positive := List.length_pos_of_mem posted
    simp only [List.length_append,List.length_erase_of_mem posted,List.length_singleton]
    omega
  | stores may => exact may.elim

theorem closeReaders (s : State) (closes : Bool) : readers (close s closes).state = readers s := by
  unfold close closePort
  split
  · split
    · have none : ∀ transfers : List Transfer, (transfers.map
          (fun _ => Handler.finishWrite (some .operationAborted) [])).filter isRead = [] := by
        intro transfers
        rw [List.filter_eq_nil_iff]
        intro h inside
        obtain ⟨_,_,same⟩ := List.mem_map.mp inside
        rw [← same]
        exact Bool.false_ne_true
      have all : (List.replicate s.reads (Handler.finishRead (some .operationAborted) [])).filter
          isRead = List.replicate s.reads (Handler.finishRead (some .operationAborted) []) := by
        rw [List.filter_eq_self]
        intro h inside
        rw [List.eq_of_mem_replicate inside]
        rfl
      simp only [readers,readSide,List.filter_append,none,all,List.length_append,
        List.length_replicate,List.length_nil,Nat.add_zero]
    · rfl
  · rfl

theorem startedReaders (s : State) : readers (started s) = readers s + 1 := by
  unfold readers started
  rw [readSidePost]
  simp only [List.length_append]
  exact Nat.add_right_comm _ _ _

theorem openReaders (s : State) (closes : Bool) (outcome : Configure) :
    readers s ≤ readers (openImpl s closes outcome).state := by
  rw [openCases,← closeReaders s closes]
  split
  · exact Nat.le_refl _
  · split
    · exact Nat.le_refl _
    · split
      · exact Nat.le_refl _
      · rw [startedReaders]
        exact Nat.le_succ _

theorem busyKept {n : Nat} {s t : State} {e : Event} (connected : Connected s) (busy : Busy n s)
    (moved : step s e = some t) : Busy n t := by
  rcases busy with kept | enough
  · exact .inl (stepError kept moved)
  · by_cases opens : Opens e
    · right
      cases stepped moved with
      | closes closes => rwa [closeReaders]
      | opens closes outcome => exact Nat.le_trans enough (openReaders s closes outcome)
      | _ => exact absurd opens id
    · by_cases fails : ∃ ec arrived, e = .run (.finishRead (some ec) arrived)
      · obtain ⟨ec,arrived,same⟩ := fails
        rw [same] at moved
        left
        cases stepped moved with
        | runs h _ _ _ handled =>
          cases handled
          exact Option.some_ne_none ec
      · right
        have moves : Reads False (readSide s) (readSide t) :=
          stepReads opens (fun ec arrived same => fails ⟨ec,arrived,same⟩)
            (fun runs => (connected runs).2) moved
        exact Nat.le_trans enough (readsKept moves)

structure NeverOpened (s : State) : Prop where
  clear : s.error = none
  shut : s.isOpen = false
  idle : s.running = false
  noReads : s.reads = 0
  noWrites : s.writes = []
  noBytes : s.readQueue = []
  starts : ∀ h ∈ s.posted, h = .startWrite
  buffered : s.writeBufferSize ≠ 0 → ∃ b, s.writeBuffer = some b ∧ b.bytes.length = s.writeBufferSize
  unqueued : s.writeBufferSize = 0 → s.writeQueue = []
  unwritten : s.posted = [] → s.writeBufferSize = 0

theorem constructedNever : NeverOpened constructed := by
  refine ⟨rfl,rfl,rfl,rfl,rfl,rfl,?_,?_,fun _ => rfl,fun _ => rfl⟩
  · intro h inside
    contradiction
  · intro some
    exact absurd rfl some

theorem bufferingNever {s : State} (range : Bytes) (never : NeverOpened s)
    (free : s.writeBufferSize = 0) : NeverOpened (buffering s range) := by
  refine ⟨never.clear,never.shut,never.idle,never.noReads,never.noWrites,never.noBytes,?_,?_,?_,?_⟩
  · intro h inside
    rcases List.mem_append.mp inside with earlier | last
    · exact never.starts h earlier
    · exact List.mem_singleton.mp last
  · intro _
    exact ⟨_,rfl,rfl⟩
  · intro _
    exact never.unqueued free
  · intro none
    simp [buffering,post] at none

theorem queueingNever {s : State} (range : Bytes) (never : NeverOpened s)
    (busy : s.writeBufferSize ≠ 0) : NeverOpened (queueing s range) :=
  ⟨never.clear,never.shut,never.idle,never.noReads,never.noWrites,never.noBytes,never.starts,
    never.buffered,fun zero => absurd zero busy,never.unwritten⟩

theorem neverKept {s t : State} {e : Event} (never : NeverOpened s) (moved : step s e = some t) :
    NeverOpened t ∨ Busy 1 t := by
  cases stepped moved with
  | refuses range _ => exact .inl never
  | buffers range _ free => exact .inl (bufferingNever range never free)
  | queues range _ busy => exact .inl (queueingNever range never busy)
  | misses delim => exact .inl never
  | takes delim front back split =>
    rw [never.noBytes] at split
    have none : back = [] := (List.append_eq_nil_iff.mp split.symm).2
    exact .inl ⟨never.clear,never.shut,never.idle,never.noReads,never.noWrites,none,never.starts,
      never.buffered,never.unqueued,never.unwritten⟩
  | closes closes =>
    rw [closeClosed never.shut]
    exact .inl never
  | opens closes outcome =>
    rcases openClosed never.shut closes outcome with same | ⟨_,same⟩ | ⟨_,same⟩
    · rw [same]
      exact .inl never
    · rw [same]
      exact .inl ⟨never.clear,never.shut,never.idle,never.noReads,never.noWrites,never.noBytes,
        never.starts,never.buffered,never.unqueued,never.unwritten⟩
    · rw [same]
      refine .inr (.inr ?_)
      rw [startedReaders]
      exact Nat.le_add_left _ _
  | runs h _ running _ _ =>
    rw [never.idle] at running
    contradiction
  | arrives chunk outstanding => exact absurd never.noReads (Nat.ne_of_gt outstanding)
  | readFails ec outstanding => exact absurd never.noReads (Nat.ne_of_gt outstanding)
  | transfers u outstanding =>
    rw [never.noWrites] at outstanding
    contradiction
  | writeFails u ec outstanding =>
    rw [never.noWrites] at outstanding
    contradiction

def Used (s : State) : Prop := Connected s ∧ (NeverOpened s ∨ Busy 1 s)

theorem usedKept {s t : State} {e : Event} (used : Used s) (moved : step s e = some t) : Used t := by
  obtain ⟨connected,used⟩ := used
  refine ⟨connectedKept connected moved,?_⟩
  rcases used with never | busy
  · exact neverKept never moved
  · exact .inr (busyKept connected busy moved)

theorem reachableUsed {s : State} (reachable : Reachable step Anything constructed s) : Used s := by
  have first : Used constructed :=
    ⟨fun runs => absurd runs Bool.false_ne_true,.inl constructedNever⟩
  exact reachableInvariant (fun _ _ _ used _ moved => usedKept used moved) first reachable

/-! What a fresh session would be. The history is cleared to tell this session's
bytes from earlier ones: in every continuation that is allowed, what calls return was
received since, and what is sent was written since, each byte once at most. -/
def forget (s : State) : State := {s with history := History.empty}

structure Fresh (allowed : State → Event → Prop) (t : State) : Prop where
  clear : t.error = none
  single : readers t = 1
  own : ∀ u, Reachable step allowed (forget t) u →
    joined u.history.taken <+: u.history.received ∧ u.history.sent.Subperm u.history.written

def Filled (s : State) (e : Event) : Prop := Session s e ∧ ∀ range, e = .write range → range ≠ []

def Untouched (s : State) : Prop :=
  s.error = none ∧ s.posted = [] ∧ s.reads = 0 ∧ s.writes = []

instance (s : State) : Decidable (Untouched s) := by unfold Untouched; infer_instance

theorem busyTouched {s : State} (busy : Busy 1 s) : ¬ Untouched s := by
  rintro ⟨clear,none,noReads,_⟩
  rcases busy with stored | enough
  · exact stored clear
  · simp [readers,readSide,none,noReads] at enough

theorem busyStale {allowed : State → Event → Prop} {t : State} (busy : Busy 2 t) :
    ¬ Fresh allowed t := by
  intro fresh
  rcases busy with stored | enough
  · exact stored fresh.clear
  · rw [fresh.single] at enough
    contradiction

theorem phasePrefix {failures : Prop} {w : WriteSide} (phase : Phase failures w) :
    w.sent <+: w.written := by
  cases phase with
  | idle buffer done => exact List.prefix_refl _
  | finished queue b done some => exact List.prefix_append _ _
  | starting queue b done some =>
    simp only [List.append_assoc]
    exact List.prefix_append _ _
  | writing queue b done some =>
    simp only [List.append_assoc]
    exact List.prefix_append _ _
  | failed may queue b done ec some =>
    simp only [List.append_assoc]
    exact List.prefix_append _ _
  | stopped may queue b done some =>
    simp only [List.append_assoc]
    exact List.prefix_append _ _

theorem filledSession {s : State} {e : Event} (allowed : Filled s e) :
    InSession s e := by
  obtain ⟨stays,some⟩ := allowed
  cases e with
  | write range => exact some range rfl
  | close closes => exact absurd trivial stays
  | openImpl closes outcome => exact absurd trivial stays
  | _ => exact trivial

def Sound (s : State) : Prop := Reading s ∧ Flowing True s

theorem soundKept {s t : State} {e : Event} (sound : Sound s) (allowed : Filled s e)
    (moved : step s e = some t) : Sound t :=
  ⟨readingKept sound.1 allowed.1 moved,
    flowingKept (filledSession allowed) (fun _ _ _ => trivial) moved sound.2⟩

theorem firstFresh {s : State} (never : NeverOpened s) (none : s.posted = []) :
    Fresh Filled (started s) := by
  have reading : Reading (forget (started s)) := by
    refine ⟨⟨?_,?_⟩,rfl⟩
    · exact never.noBytes
    · have stage : Stage s.readBuffer [.startRead] 0 := .starting _
      simpa [readSide,forget,started,post,none,isRead,isWrite,never.noReads] using stage
  have flowing : Flowing True (forget (started s)) := by
    refine ⟨?_,fun _ => rfl⟩
    have phase : Phase True ⟨[],s.writeBuffer,0,[],[],[],[],[]⟩ := .idle s.writeBuffer []
    have free := never.unwritten none
    simpa [writeSide,forget,started,post,none,isWrite,never.noWrites,free,never.unqueued free,
      History.empty] using phase
  refine ⟨never.clear,?_,?_⟩
  · rw [startedReaders]
    simp [readers,readSide,none,never.noReads]
  · intro u reachable
    have sound : Sound u := reachableInvariant (fun _ _ _ => soundKept) ⟨reading,flowing⟩ reachable
    refine ⟨⟨u.readQueue,sound.1.1.whole⟩,?_⟩
    exact (phasePrefix sound.2.1).sublist.subperm

def startedWrites (s : State) (k : Nat) : State :=
  {started s with
    posted := [.startRead]
    writes := List.replicate k ⟨s.writeBuffer,s.writeBufferSize⟩}

theorem startsRun (k : Nat) : ∀ u : State, u.running = true → u.portOpen = true →
    u.posted = List.replicate k .startWrite ++ [.startRead] →
    Run step Anything u ((List.replicate k .startWrite).map .run) {u with
      posted := [.startRead]
      writes := u.writes ++ List.replicate k ⟨u.writeBuffer,u.writeBufferSize⟩} := by
  induction k with
  | zero =>
    intro u runs open' posted
    have same : {u with posted := [.startRead],writes := u.writes ++ []} = u := by
      rw [List.append_nil]
      rw [List.replicate_zero,List.nil_append] at posted
      rw [← posted]
    simp only [List.replicate_zero,List.map_nil]
    rw [same]
    exact .done u
  | succ k ih =>
    intro u runs open' posted
    have first : Handler.startWrite ∈ u.posted := by simp [posted]
    have later := ih {u with
      posted := u.posted.erase .startWrite
      writes := u.writes ++ [⟨u.writeBuffer,u.writeBufferSize⟩]} runs open'
      (by simp [posted,List.replicate_succ])
    refine .next trivial (runStartWrite runs open' first) ?_
    simpa [List.replicate_succ] using later

theorem staleSent {s : State} {k : Nat} (never : NeverOpened s) (some : s.writeBufferSize ≠ 0) :
    ¬ Fresh Filled (startedWrites s (k+1)) := by
  intro fresh
  obtain ⟨b,buffer,length⟩ := never.buffered some
  have outstanding : (⟨s.writeBuffer,s.writeBufferSize⟩ : Transfer) ∈
      (forget (startedWrites s (k+1))).writes := by
    simp [forget,startedWrites]
  have moved : step (forget (startedWrites s (k+1)))
      (.writeCompletes ⟨s.writeBuffer,s.writeBufferSize⟩) = _ := if_pos outstanding
  have allowed : Filled (forget (startedWrites s (k+1)))
      (.writeCompletes ⟨s.writeBuffer,s.writeBufferSize⟩) :=
    ⟨id,fun range same => by contradiction⟩
  have own := (fresh.own _ ⟨_,.next allowed moved (.done _)⟩).2
  have stale : b.bytes = [] := by
    simpa [post,forget,History.empty,Transfer.bytes,buffer,← length] using own
  rw [stale] at length
  exact some length.symm

theorem filledQuiet {s : State} {e : Event} (stays : ¬ Opens e)
    (other : ∀ range, e ≠ .write range) : Filled s e :=
  ⟨stays,fun range same => absurd same (other range)⟩

theorem filledWrite {s : State} {range : Bytes} (some : range ≠ []) :
    Filled s (.write range) := by
  refine ⟨id,?_⟩
  intro other same
  cases same
  exact some

theorem bufferTwice {u : State} {sent : Bytes} (runs : u.running = true)
    (open' : u.portOpen = true) (starts : 2 ≤ u.posted.count .startWrite)
    (twice : u.history.sent ++ Transfer.bytes ⟨u.writeBuffer,u.writeBufferSize⟩ ++
      Transfer.bytes ⟨u.writeBuffer,u.writeBufferSize⟩ = sent) :
    ∃ v, Reachable step Filled u v ∧
      v.history.written = u.history.written ∧ v.history.sent = sent := by
  have first : Handler.startWrite ∈ u.posted := List.count_pos_iff.mp (by omega)
  have second : Handler.startWrite ∈ u.posted.erase .startWrite := by
    rw [← List.count_pos_iff,List.count_erase_self]
    omega
  refine eventuallyNext (filledQuiet id (by simp)) (runStartWrite runs open' first) ?_
  refine eventuallyNext (filledQuiet id (by simp)) (runStartWrite runs open' second) ?_
  refine eventuallyNext (e := .writeCompletes ⟨u.writeBuffer,u.writeBufferSize⟩)
    (filledQuiet id (by simp)) (if_pos (by simp)) ?_
  refine eventuallyNext (e := .writeCompletes ⟨u.writeBuffer,u.writeBufferSize⟩)
    (filledQuiet id (by simp)) (if_pos ?_) ?_
  · rw [← List.count_pos_iff]
    simp [post]
  · exact ⟨_,⟨[],.done _⟩,rfl,twice⟩

/- An empty write leaves a transfer that finishes in the middle of a later write: the
later write's buffer is dropped and the next one's is sent twice. -/
theorem doubleSend {u : State} {zero : Transfer} (clear : u.error = none) (runs : u.running = true)
    (open' : u.portOpen = true) (free : u.writeBufferSize = 0) (unqueued : u.writeQueue = [])
    (outstanding : zero ∈ u.writes) (empty : zero.bytes = []) :
    ∃ v, Reachable step Filled u v ∧
      v.history.written = u.history.written ++ [1,2] ∧ v.history.sent = u.history.sent ++ [2,2] := by
  refine eventuallyNext (e := .writeCompletes zero) (filledQuiet id (by simp))
    (if_pos outstanding) ?_
  refine eventuallyNext (filledWrite (List.cons_ne_nil 1 [])) (writeFirst [1] clear free) ?_
  refine eventuallyNext (filledWrite (List.cons_ne_nil 2 []))
    (writeNext [2] clear (Nat.succ_ne_zero 0)) ?_
  refine eventuallyNext (e := .run (.finishWrite none zero.bytes)) (filledQuiet id (by simp))
    (runRefill runs ?_ ?_) ?_
  · simp [queueing,buffering,post]
  · simp [queueing,buffering,post]
  · have written : u.history.written ++ [1,2] = u.history.written ++ [1] ++ [2] := by simp
    rw [written]
    refine bufferTwice runs open' ?_ ?_
    · simp [refilling,queueing,buffering,post]
    · simp only [refilling,queueing,buffering,post,empty,unqueued]
      simp [Transfer.bytes]

theorem touchedStale {s : State} {k : Nat} (never : NeverOpened s) :
    ¬ Fresh Filled (startedWrites s (k+1)) := by
  by_cases free : s.writeBufferSize = 0
  · intro fresh
    have empty : (⟨s.writeBuffer,s.writeBufferSize⟩ : Transfer).bytes = [] := by
      cases buffer : s.writeBuffer <;> simp [Transfer.bytes,free]
    have outstanding : (⟨s.writeBuffer,s.writeBufferSize⟩ : Transfer) ∈
        (forget (startedWrites s (k+1))).writes := by
      simp [forget,startedWrites]
    obtain ⟨v,reachable,written,sent⟩ := @doubleSend (forget (startedWrites s (k+1))) _
      never.clear rfl rfl free (never.unqueued free) outstanding empty
    have once : ([2,2] : Bytes).Subperm [1,2] := by
      have own := (fresh.own v reachable).2
      rw [written,sent] at own
      exact own
    have counted := once.count_le 2
    exact absurd counted (by decide)
  · exact staleSent never free

theorem filledStays (s : State) (e : Event) (filled : Filled s e) : Session s e := filled.1

/- After an empty write the size still says that nothing is pending, so the next write posts
a second start. -/
theorem emptyTwice {u : State} (clear : u.error = none) (runs : u.running = true)
    (open' : u.portOpen = true) (free : u.writeBufferSize = 0) :
    ∃ v, Reachable step Session u v ∧
      v.history.written = u.history.written ++ [1] ∧ v.history.sent = u.history.sent ++ [1,1] := by
  refine eventuallyNext (e := .write []) id (writeFirst [] clear free) ?_
  refine eventuallyNext (e := .write [1]) id (writeFirst [1] clear rfl) ?_
  have starts : 2 ≤ (buffering (buffering u []) [1]).posted.count .startWrite := by
    simp [buffering,post]
  obtain ⟨v,reachable,written,sent⟩ := bufferTwice (u := buffering (buffering u []) [1]) runs open'
    starts rfl
  refine ⟨v,reachableWidens filledStays reachable,?_,?_⟩
  · rw [written]
    simp [buffering,post]
  · rw [sent]
    simp [buffering,post,Transfer.bytes]

theorem freshFilled {t : State} (fresh : Fresh Session t) : Fresh Filled t :=
  ⟨fresh.clear,fresh.single,fun u reachable =>
    fresh.own u (reachableWidens filledStays reachable)⟩

theorem startedStale {s : State} (never : NeverOpened s) (none : s.posted = []) :
    ¬ Fresh Session (started s) := by
  intro fresh
  obtain ⟨v,reachable,written,sent⟩ := @emptyTwice (forget (started s)) never.clear rfl rfl
    (never.unwritten none)
  have own := (fresh.own v reachable).2
  rw [written,sent] at own
  have longer : 2 ≤ 1 := own.length_le
  contradiction

theorem handledPosted {s t : State} {h : Handler} (handled : Handled s h t) :
    ∃ more, t.posted = s.posted ++ more := by
  cases handled with
  | readRefused _ => exact ⟨_,rfl⟩
  | writeRefused _ => exact ⟨_,rfl⟩
  | appends _ => exact ⟨_,rfl⟩
  | refills _ _ => exact ⟨_,rfl⟩
  | _ => exact ⟨[],(List.append_nil _).symm⟩

theorem leftoverRuns (order : List Handler) : ∀ s : State, s.running = true →
    order.Subperm s.posted → ∃ t, Run step Anything s (order.map .run) t := by
  induction order with
  | nil => exact fun s _ _ => ⟨s,.done s⟩
  | cons h order ih =>
    intro s runs left
    have posted : h ∈ s.posted := left.subset (List.mem_cons_self ..)
    have ran := handled {s with posted := s.posted.erase h} h
    obtain ⟨more,after⟩ := handledPosted ran
    have kept := (Port.mk.inj (handledPort ran)).1
    have rest : order.Subperm (handle {s with posted := s.posted.erase h} h).posted := by
      have erased := left.erase h
      rw [List.erase_cons_head] at erased
      rw [after]
      exact erased.trans (List.sublist_append_left _ _).subperm
    obtain ⟨t,run⟩ := ih _ (kept.trans runs) rest
    exact ⟨t,.next trivial (runStep runs posted) run⟩

theorem closeShut {s : State} {closes : Bool} (closed : (close s closes).thrown = none) :
    (close s closes).state.isOpen = false := by
  unfold close closePort at closed ⊢
  split
  · rename_i wasOpen
    rw [if_pos wasOpen] at closed
    split
    · rfl
    · rename_i stays
      rw [if_neg stays] at closed
      contradiction
  · rename_i shut
    exact Bool.not_eq_true _ ▸ shut

theorem openSucceeds {s r : State} {closes : Bool} {outcome : Configure} (shut : s.isOpen = false)
    (opens : openImpl s closes outcome = ⟨r,none⟩) : r = started s := by
  rw [openCases,closeClosed shut] at opens
  split at opens
  · rename_i threw
    exact absurd rfl threw
  · split at opens
    · cases opens
    · split at opens
      · cases opens
      · cases opens
        rfl

theorem busyReopened {s t : State} {closes : Bool} {events : List Event} (connected : Connected s)
    (busy : Busy 1 s) (run : Run step Anything (started (close s closes).state) events t) :
    Busy 2 t := by
  have closed : Busy 1 (close s closes).state := @busyKept 1 s _ (.close closes) connected busy rfl
  have first : Connected (started (close s closes).state) ∧ Busy 2 (started (close s closes).state) := by
    refine ⟨fun _ => ⟨rfl,rfl⟩,?_⟩
    rcases closed with stored | enough
    · exact .inl stored
    · right
      rw [startedReaders]
      exact Nat.succ_le_succ enough
  refine (runInvariant (P := fun u => Connected u ∧ Busy 2 u) ?_ run first).2
  rintro u e v ⟨connected,busy⟩ _ moved
  exact ⟨connectedKept connected moved,busyKept connected busy moved⟩

theorem neverReopened {s : State} {order : List Handler} (never : NeverOpened s)
    (leftover : order.Perm s.posted) :
    ∃ t, Run step Anything (started s) (order.map .run) t ∧ ¬ Fresh Session t ∧
      (Fresh Filled t ↔ Untouched s) := by
  have starts := List.eq_replicate_of_mem never.starts
  rw [starts] at leftover
  rw [List.perm_replicate.mp leftover]
  cases posted : s.posted.length with
  | zero =>
    have none := List.length_eq_zero_iff.mp posted
    refine ⟨_,.done _,startedStale never none,?_⟩
    constructor
    · intro _
      exact ⟨never.clear,none,never.noReads,never.noWrites⟩
    · intro _
      exact firstFresh never none
  | succ k =>
    rw [posted] at starts
    have run := startsRun (k+1) (started s) rfl rfl (by rw [← starts]; rfl)
    have same : (started s).writes = [] := never.noWrites
    rw [same,List.nil_append] at run
    refine ⟨_,run,fun fresh => touchedStale never (freshFilled fresh),?_⟩
    constructor
    · intro fresh
      exact absurd fresh (touchedStale never)
    · rintro ⟨_,none,_⟩
      rw [none] at posted
      contradiction

theorem reopenFresh {s r : State} (reachable : Reachable step Anything constructed s)
    {closes closes' : Bool} {outcome : Configure} (closed : (close s closes).thrown = none)
    (opens : openImpl (close s closes).state closes' outcome = ⟨r,none⟩) {order : List Handler}
    (leftover : order.Perm (close s closes).state.posted) :
    ∃ t, (∀ u, Run step Anything r (order.map .run) u ↔ u = t) ∧ ¬ Fresh Session t ∧
      (Fresh Filled t ↔ Untouched s) := by
  obtain ⟨connected,used⟩ := reachableUsed reachable
  cases openSucceeds (closeShut closed) opens
  have finishes : ∃ t, Run step Anything (started (close s closes).state) (order.map .run) t ∧
      ¬ Fresh Session t ∧ (Fresh Filled t ↔ Untouched s) := by
    rcases used with never | busy
    · have same : close s closes = ⟨s,none⟩ := closeClosed never.shut closes
      rw [same] at leftover ⊢
      exact neverReopened never leftover
    · have left : order.Subperm (started (close s closes).state).posted :=
        leftover.subperm.trans (List.sublist_append_left _ _).subperm
      obtain ⟨t,run⟩ := leftoverRuns order _ rfl left
      have stale := busyReopened connected busy run
      refine ⟨t,run,busyStale stale,?_⟩
      constructor
      · intro fresh
        exact absurd fresh (busyStale stale)
      · intro untouched
        exact absurd untouched (busyTouched busy)
  obtain ⟨t,run,exactly⟩ := finishes
  exact ⟨t,fun u => runExactly run u,exactly⟩

def pressing : List Event :=
  [.openImpl true .succeeds,.run .startRead,.write [116],.run .startWrite]

def aborted : List Handler :=
  [.finishWrite (some .operationAborted) [],.finishRead (some .operationAborted) []]

theorem reopenFreshPressed : ∃ s r t, Run step Anything constructed pressing s ∧
    openImpl (close s true).state true .succeeds = ⟨r,none⟩ ∧
    (∀ u, Run step Anything r (aborted.map .run) u ↔ u = t) ∧ ¬ Fresh Session t ∧
    (Fresh Filled t ↔ Untouched s) := by
  have run : ∃ s, pressing.foldlM step constructed = some s ∧ (close s true).thrown = none ∧
      openImpl (close s true).state true .succeeds = ⟨started (close s true).state,none⟩ ∧
      (close s true).state.posted = aborted.reverse := ⟨_,rfl,rfl,rfl,rfl⟩
  obtain ⟨s,run,closed,opens,posted⟩ := run
  have leftover : aborted.Perm (close s true).state.posted := by
    rw [posted]
    exact (List.reverse_perm aborted).symm
  obtain ⟨t,finishes⟩ := reopenFresh ⟨pressing,foldRun run⟩ closed opens leftover
  exact ⟨s,_,t,foldRun run,opens,finishes⟩

/- A read outstanding when the port is closed ends with an error, and the next session
starts with it. -/
def reopening : List Event :=
  [.openImpl true .succeeds,.run .startRead,.close true,.openImpl true .succeeds,
    .run (.finishRead (some .operationAborted) [])]

theorem reopenFails : ∃ t, Run step Anything constructed reopening t ∧
    write t [116] = .error .operationAborted ∧ ¬ Fresh Session t := by
  have run : ∃ t, Run step Anything constructed reopening t ∧ t.error = some .operationAborted ∧
      write t [116] = .error .operationAborted :=
    ⟨_,.next trivial rfl (.next trivial rfl (.next trivial rfl (.next trivial rfl
      (.next trivial rfl (.done _))))),rfl,rfl⟩
  obtain ⟨t,run,stored,thrown⟩ := run
  refine ⟨t,run,thrown,?_⟩
  intro fresh
  rw [fresh.clear] at stored
  contradiction

end Chambermaid.AsyncReopen
