import Chambermaid.SecureReceive
import Chambermaid.Runs
import Mathlib.Data.List.Basic

/-! One direction of a secure connection, from what is put into the sender's `out` to what
the receiver finds in `in`. A send that fails has taken its text from `out` all the same,
and a receive that fails has read what it throws away. -/
namespace Chambermaid.SecureSession
open Runs StringStream SecureReceive

inductive Taken where
  | message (bytes : Bytes) (readTotal : Nat) (atEnd : Bool)
  | lost (bytes : Bytes) (ec : Nat) (expr : String)
  deriving DecidableEq, Repr

def Taken.bytes : Taken → Bytes
  | .message bytes _ _ => bytes
  | .lost bytes _ _ => bytes

def Taken.full : Taken → Bool
  | .message _ _ atEnd => atEnd
  | .lost _ _ _ => true

structure Sent where
  toWrite : Bytes
  written : Nat
  deriving DecidableEq, Repr

def Sent.onWire (s : Sent) : Bytes := s.toWrite.take s.written

/-! A receive in progress has its inReader and readTotal. What was inserted, sent and taken
is read by no step. -/
structure State where
  out : OStringStream UInt8
  wire : Bytes
  reading : Option (OStringStream UInt8 × Nat)
  input : Bytes
  inserted : Bytes
  sent : List Sent
  taken : List Taken
  deriving DecidableEq, Repr

def constructed : State := ⟨.empty,[],none,[],[],[],[]⟩

/-! The socket writes all of a text or fails with some of it written; it gives what is on
the wire in its order, and the end of the data when there is none. -/
inductive Event where
  | insert (text : Bytes)
  | send (failure : Option Nat)
  | receive
  | result (result : Read)
  | extract (count : Nat)
  deriving DecidableEq, Repr

def send (s : State) (failure : Option Nat) : Option State :=
  let toWrite := s.out.str
  let written := failure.getD toWrite.length
  if toWrite.length < written then none else some
    {s with
      out := s.out.setStr []
      wire := s.wire ++ toWrite.take written
      sent := s.sent ++ [⟨toWrite,written⟩]}

def finishReceive (s : State) (inReader : OStringStream UInt8) (readTotal : Nat) (atEnd : Bool) :
    State :=
  {s with
    reading := none
    input := inReader.str
    taken := s.taken ++ [.message inReader.str readTotal atEnd]}

-- One turn of the loop in SecureSession::receive, with what read_some gives.
def receiveResult (s : State) (inReader : OStringStream UInt8) (readTotal : Nat) :
    Read → Option State
  | .data piece =>
    if piece.bytes <+: s.wire then
      let s := {s with wire := s.wire.drop piece.bytes.length}
      let readTotal := readTotal + piece.bytes.length
      let inReader := inReader.write piece.bytes
      some (if piece.bytes.length < maxLength then finishReceive s inReader readTotal false
        else {s with reading := some (inReader,readTotal)})
    else none
  | .eof => if s.wire.isEmpty then some (finishReceive s inReader readTotal true) else none
  | .shortRead => some (finishReceive s inReader readTotal true)
  | .failed ec =>
    some {s with
      reading := none
      taken := s.taken ++ [.lost inReader.str ec "Couldn't read from socket"]}

def step (s : State) : Event → Option State
  | .insert text => some {s with out := s.out.write text, inserted := s.inserted ++ text}
  | .send failure => send s failure
  | .receive => if s.reading.isNone then some {s with reading := some (.empty,0)} else none
  | .result result => do
    let (inReader,readTotal) ← s.reading
    receiveResult s inReader readTotal result
  | .extract count => if s.reading.isNone then some {s with input := s.input.drop count} else none

def begun (s : State) : Bytes := (s.reading.map fun reading => reading.1.str).getD []

def messageOf : Taken → Option Bytes
  | .message bytes _ _ => some bytes
  | .lost _ _ _ => none

def lastMessage (taken : List Taken) : Bytes := ((taken.filterMap messageOf).getLast?).getD []

@[simp] theorem lastMessageNew (taken : List Taken) (bytes : Bytes) (readTotal : Nat)
    (atEnd : Bool) : lastMessage (taken ++ [.message bytes readTotal atEnd]) = bytes := by
  simp [lastMessage,messageOf]

@[simp] theorem lastMessageLost (taken : List Taken) (bytes : Bytes) (ec : Nat)
    (expr : String) : lastMessage (taken ++ [.lost bytes ec expr]) = lastMessage taken := by
  simp [lastMessage,messageOf]

structure Kept (s : State) : Prop where
  out : s.out = .collecting s.out.str
  inReader : ∀ inReader readTotal, s.reading = some (inReader,readTotal) →
    inReader = .collecting inReader.str ∧ readTotal = inReader.str.length ∧
      inReader.str.length % maxLength = 0
  inserted : s.inserted = s.sent.flatMap Sent.toWrite ++ s.out.str
  stream : s.sent.flatMap Sent.onWire = s.taken.flatMap Taken.bytes ++ begun s ++ s.wire
  ends : ∀ t ∈ s.taken, (t.bytes.length % maxLength = 0 ↔ t.full = true)
  input : s.input <:+ lastMessage s.taken

theorem insertKept {s : State} (kept : Kept s) (text : Bytes) :
    Kept {s with out := s.out.write text, inserted := s.inserted ++ text} := by
  have written : s.out.write text = .collecting (s.out.str ++ text) := by
    rw [kept.out,OStringStream.collectingWrite,OStringStream.collectingStr]
  refine ⟨?_,kept.inReader,?_,kept.stream,kept.ends,kept.input⟩
  · rw [written,OStringStream.collectingStr]
  · rw [written,OStringStream.collectingStr,kept.inserted,List.append_assoc]

theorem sendKept {s t : State} (kept : Kept s) {failure : Option Nat}
    (moved : send s failure = some t) : Kept t := by
  obtain ⟨_,moved⟩ := Option.ite_none_left_eq_some.mp moved
  cases moved
  refine ⟨rfl,kept.inReader,?_,?_,kept.ends,kept.input⟩
  · rw [kept.inserted,List.flatMap_append,List.flatMap_singleton]
    exact (List.append_nil _).symm
  · rw [List.flatMap_append,List.flatMap_singleton,kept.stream,List.append_assoc]
    rfl

theorem finishKept {s : State} (kept : Kept s) {inReader : OStringStream UInt8} {wire : Bytes}
    {readTotal : Nat} {atEnd : Bool}
    (stream : s.sent.flatMap Sent.onWire = s.taken.flatMap Taken.bytes ++ inReader.str ++ wire)
    (ends : inReader.str.length % maxLength = 0 ↔ atEnd = true) :
    Kept (finishReceive {s with wire := wire} inReader readTotal atEnd) := by
  refine ⟨kept.out,fun _ _ same => absurd same nofun,kept.inserted,?_,?_,?_⟩
  · simpa [finishReceive,begun,Taken.bytes] using stream
  · intro t member
    rcases List.mem_append.mp member with old | new
    · exact kept.ends t old
    · rw [List.mem_singleton.mp new]
      exact ends
  · simp [finishReceive]

theorem resultKept {s t : State} (kept : Kept s) {inReader : OStringStream UInt8} {readTotal : Nat}
    {result : Read} (reading : s.reading = some (inReader,readTotal))
    (moved : receiveResult s inReader readTotal result = some t) : Kept t := by
  obtain ⟨collects,total,full⟩ := kept.inReader _ _ reading
  have stream : s.sent.flatMap Sent.onWire =
      s.taken.flatMap Taken.bytes ++ inReader.str ++ s.wire := by
    simpa [begun,reading] using kept.stream
  have whole : inReader.str.length % maxLength = 0 ↔ true = true := iff_of_true full rfl
  cases result with
  | data piece =>
    obtain ⟨⟨wire,same⟩,moved⟩ := Option.ite_none_right_eq_some.mp moved
    cases Option.some.inj moved
    have rest : s.wire.drop piece.bytes.length = wire := by rw [← same,List.drop_left]
    have text : (inReader.write piece.bytes).str = inReader.str ++ piece.bytes := by
      rw [collects,OStringStream.collectingWrite]
      rfl
    have further : s.sent.flatMap Sent.onWire =
        s.taken.flatMap Taken.bytes ++ (inReader.write piece.bytes).str ++ wire := by
      rw [stream,text,← same]
      simp
    dsimp only
    rw [rest]
    split
    · rename_i short
      have some := List.length_pos_iff.mpr piece.filled
      refine finishKept kept further (iff_of_false ?_ Bool.false_ne_true)
      rw [text,List.length_append,Nat.add_mod,full,Nat.zero_add,Nat.mod_mod,Nat.mod_eq_of_lt short]
      exact Nat.ne_of_gt some
    · rename_i long
      have fills : piece.bytes.length = maxLength := Nat.le_antisymm piece.fits (Nat.not_lt.mp long)
      refine ⟨kept.out,?_,kept.inserted,further,kept.ends,kept.input⟩
      intro reader count same
      cases same
      refine ⟨?_,?_,?_⟩
      · rw [collects,OStringStream.collectingWrite]
        rfl
      · rw [text,List.length_append,total]
      · rw [text,List.length_append,fills,Nat.add_mod_right,full]
  | eof =>
    obtain ⟨_,moved⟩ := Option.ite_none_right_eq_some.mp moved
    cases moved
    exact finishKept kept stream whole
  | shortRead =>
    cases moved
    exact finishKept kept stream whole
  | failed ec =>
    cases moved
    refine ⟨kept.out,fun _ _ same => absurd same nofun,kept.inserted,?_,?_,?_⟩
    · simpa [begun,Taken.bytes] using stream
    · intro t member
      rcases List.mem_append.mp member with old | new
      · exact kept.ends t old
      · rw [List.mem_singleton.mp new]
        exact whole
    · rw [lastMessageLost]
      exact kept.input

theorem stepKept {s t : State} {e : Event} (kept : Kept s) (moved : step s e = some t) : Kept t := by
  cases e with
  | insert text =>
    cases moved
    exact insertKept kept text
  | send failure => exact sendKept kept moved
  | receive =>
    obtain ⟨idle,moved⟩ := Option.ite_none_right_eq_some.mp moved
    cases moved
    have none : s.reading = none := Option.isNone_iff_eq_none.mp idle
    refine ⟨kept.out,?_,kept.inserted,?_,kept.ends,kept.input⟩
    · intro reader count same
      cases same
      exact ⟨rfl,rfl,rfl⟩
    · have stream := kept.stream
      simp only [begun,none] at stream
      exact stream
  | result result =>
    obtain ⟨⟨inReader,readTotal⟩,reading,moved⟩ := Option.bind_eq_some_iff.mp moved
    exact resultKept kept reading moved
  | extract count =>
    obtain ⟨_,moved⟩ := Option.ite_none_right_eq_some.mp moved
    cases moved
    exact ⟨kept.out,kept.inReader,kept.inserted,kept.stream,kept.ends,
      (List.drop_suffix count s.input).trans kept.input⟩

theorem runKept {s : State} {events : List Event} (run : Run step Anything constructed events s) :
    Kept s :=
  runInvariant (fun _ _ _ kept _ moved => stepKept kept moved) run
    ⟨rfl,fun _ _ same => absurd same nofun,rfl,rfl,fun _ member => absurd member List.not_mem_nil,
      List.nil_suffix⟩

/-! Whatever fails and however the peers take turns, the bytes come in the order they were put
in, each once; a receive that ends inside the data has not read a multiple of the buffer's
length, and every other one has. -/
theorem inOrder {s : State} {events : List Event} (run : Run step Anything constructed events s) :
    s.inserted = s.sent.flatMap Sent.toWrite ++ s.out.str ∧
    s.sent.flatMap Sent.onWire = s.taken.flatMap Taken.bytes ++ begun s ++ s.wire ∧
    (∀ t ∈ s.taken, t.bytes.length % maxLength = 0 ↔ t.full = true) ∧
    s.input <:+ lastMessage s.taken :=
  have kept := runKept run
  ⟨kept.inserted,kept.stream,kept.ends,kept.input⟩

def Smooth (_ : State) : Event → Prop
  | .send (some _) => False
  | .result (.failed _) => False
  | _ => True

def Whole (s : State) : Prop :=
  (∀ x ∈ s.sent, x.onWire = x.toWrite) ∧ ∀ t ∈ s.taken, (messageOf t).isSome = true

theorem finishWhole {s : State} (whole : Whole s) (inReader : OStringStream UInt8) (wire : Bytes)
    (readTotal : Nat) (atEnd : Bool) :
    Whole (finishReceive {s with wire := wire} inReader readTotal atEnd) := by
  refine ⟨whole.1,fun t member => ?_⟩
  rcases List.mem_append.mp member with old | new
  · exact whole.2 t old
  · rw [List.mem_singleton.mp new]
    rfl

theorem stepWhole {s t : State} {e : Event} (whole : Whole s) (smooth : Smooth s e)
    (moved : step s e = some t) : Whole t := by
  cases e with
  | insert text =>
    cases moved
    exact whole
  | send failure =>
    cases failure with
    | some written => contradiction
    | none =>
      obtain ⟨_,moved⟩ := Option.ite_none_left_eq_some.mp moved
      cases moved
      refine ⟨fun x member => ?_,whole.2⟩
      rcases List.mem_append.mp member with old | new
      · exact whole.1 x old
      · rw [List.mem_singleton.mp new]
        exact List.take_length
  | receive =>
    obtain ⟨_,moved⟩ := Option.ite_none_right_eq_some.mp moved
    cases moved
    exact whole
  | result result =>
    obtain ⟨⟨inReader,readTotal⟩,_,moved⟩ := Option.bind_eq_some_iff.mp moved
    cases result with
    | data piece =>
      obtain ⟨_,moved⟩ := Option.ite_none_right_eq_some.mp moved
      cases Option.some.inj moved
      dsimp only
      split
      · exact finishWhole whole _ _ _ _
      · exact whole
    | eof =>
      obtain ⟨_,moved⟩ := Option.ite_none_right_eq_some.mp moved
      cases moved
      exact finishWhole whole inReader s.wire readTotal true
    | shortRead =>
      cases moved
      exact finishWhole whole inReader s.wire readTotal true
    | failed ec => contradiction
  | extract count =>
    obtain ⟨_,moved⟩ := Option.ite_none_right_eq_some.mp moved
    cases moved
    exact whole

theorem messagesBytes {taken : List Taken} (whole : ∀ t ∈ taken, (messageOf t).isSome = true) :
    taken.flatMap Taken.bytes = (taken.filterMap messageOf).flatten := by
  induction taken with
  | nil => rfl
  | cons t taken ih =>
    obtain ⟨first,others⟩ := List.forall_mem_cons.mp whole
    cases t with
    | message bytes readTotal atEnd =>
      rw [List.flatMap_cons,ih others]
      rfl
    | lost bytes ec expr => contradiction

theorem nothingLost {s : State} {events : List Event} (run : Run step Smooth constructed events s) :
    s.inserted = (s.taken.filterMap messageOf).flatten ++ begun s ++ s.wire ++ s.out.str := by
  have whole : Whole s :=
    runInvariant (fun _ _ _ whole smooth moved => stepWhole whole smooth moved) run
      ⟨fun _ member => absurd member List.not_mem_nil,fun _ member => absurd member List.not_mem_nil⟩
  have kept : Kept s := runKept (runPermitted (fun _ _ _ => trivial) run)
  rw [kept.inserted,← List.flatMap_congr whole.1,kept.stream,messagesBytes whole.2]

def twoSends : List Event :=
  [.insert [104],.send none,.insert [105],.send none,.insert [106],.receive,
    .result (.data ⟨[104,105],by decide,by decide⟩)]

theorem nothingLostTwo : ∃ s, Run step Smooth constructed twoSends s ∧
    s.inserted = [104,105,106] ∧ s.taken = [.message [104,105] 2 false] ∧
    s.inserted = (s.taken.filterMap messageOf).flatten ++ begun s ++ s.wire ++ s.out.str := by
  have run : ∃ s, twoSends.foldlM step constructed = some s ∧ s.inserted = [104,105,106] ∧
      s.taken = [.message [104,105] 2 false] := ⟨_,rfl,rfl,rfl⟩
  obtain ⟨s,run,inserted,taken⟩ := run
  have smooth : ∀ u, ∀ e ∈ twoSends, Smooth u e := by
    intro u e member
    simp only [twoSends,List.mem_cons,List.not_mem_nil,or_false] at member
    rcases member with rfl | rfl | rfl | rfl | rfl | rfl | rfl <;> trivial
  have run := runPermitted smooth (foldRun run)
  exact ⟨s,run,inserted,taken,nothingLost run⟩

theorem inOrderTwo : ∃ s, Run step Anything constructed twoSends s ∧
    s.sent.flatMap Sent.onWire = s.taken.flatMap Taken.bytes ++ begun s ++ s.wire := by
  have run : ∃ s, twoSends.foldlM step constructed = some s := ⟨_,rfl⟩
  obtain ⟨s,run⟩ := run
  exact ⟨s,foldRun run,(inOrder (foldRun run)).2.1⟩

def heard : Event → Option Read
  | .result result => some result
  | _ => none

def Ends (s t : State) : Received → Prop
  | .returned text readTotal left =>
    left = [] ∧ ∃ atEnd, t.taken = s.taken ++ [.message text readTotal atEnd]
  | .throws ec expr left => left = [] ∧ ∃ bytes, t.taken = s.taken ++ [.lost bytes ec expr]
  | .waits => False

def Answers (s t : State) (received : Received) : Prop :=
  (t.reading.isSome = true ∧ t.taken = s.taken ∧ received = .waits) ∨
    (t.reading = none ∧ Ends s t received)

def Alike (s t : State) : Prop := t.reading = s.reading ∧ t.taken = s.taken

theorem elseAlike {s t : State} {e : Event} (other : heard e = none) (first : e ≠ .receive)
    (moved : step s e = some t) : Alike s t := by
  cases e with
  | insert text =>
    cases moved
    exact ⟨rfl,rfl⟩
  | send failure =>
    obtain ⟨_,moved⟩ := Option.ite_none_left_eq_some.mp moved
    cases moved
    exact ⟨rfl,rfl⟩
  | receive => contradiction
  | result result => contradiction
  | extract count =>
    obtain ⟨_,moved⟩ := Option.ite_none_right_eq_some.mp moved
    cases moved
    exact ⟨rfl,rfl⟩

theorem resultAgrees {s t : State} {inReader : OStringStream UInt8} {readTotal : Nat} {result : Read}
    (moved : receiveResult s inReader readTotal result = some t) :
    (t.taken = s.taken ∧ ∃ more total, t.reading = some (more,total) ∧ ∀ results,
      receiveLoop (result::results) inReader readTotal = receiveLoop results more total) ∨
    (t.reading = none ∧ Ends s t (receiveLoop [result] inReader readTotal)) := by
  cases result with
  | data piece =>
    obtain ⟨_,moved⟩ := Option.ite_none_right_eq_some.mp moved
    cases Option.some.inj moved
    dsimp only
    split
    · rename_i short
      refine .inr ⟨rfl,?_⟩
      unfold receiveLoop
      rw [if_pos short]
      exact ⟨rfl,false,rfl⟩
    · rename_i long
      refine .inl ⟨rfl,_,_,rfl,fun results => ?_⟩
      rw [receiveLoop]
      exact if_neg long
  | eof =>
    obtain ⟨_,moved⟩ := Option.ite_none_right_eq_some.mp moved
    cases moved
    exact .inr ⟨rfl,rfl,true,rfl⟩
  | shortRead =>
    cases moved
    exact .inr ⟨rfl,rfl,true,rfl⟩
  | failed ec =>
    cases moved
    exact .inr ⟨rfl,rfl,_,rfl⟩

theorem endsAlike {s t u : State} {received : Received} (same : t.taken = u.taken)
    (ends : Ends s u received) : Ends s t received := by
  unfold Ends at ends ⊢
  rw [same]
  exact ends

theorem quietAlike {s t : State} {events : List Event} (run : Run step Anything s events t)
    (once : .receive ∉ events) (idle : s.reading = none) :
    events.filterMap heard = [] ∧ Alike s t := by
  induction run with
  | done s => exact ⟨rfl,rfl,rfl⟩
  | @next s u t e events _ moved _ ih =>
    obtain ⟨first,others⟩ := not_or.mp (mt List.mem_cons.mpr once)
    cases told : heard e with
    | none =>
      obtain ⟨reading,taken⟩ := elseAlike told (Ne.symm first) moved
      obtain ⟨silent,same⟩ := ih others (reading.trans idle)
      rw [List.filterMap_cons_none told]
      exact ⟨silent,same.1.trans reading,same.2.trans taken⟩
    | some result =>
      cases e <;> cases told
      obtain ⟨_,reading,_⟩ := Option.bind_eq_some_iff.mp moved
      rw [idle] at reading
      contradiction

theorem runAgrees {s t : State} {events : List Event} (run : Run step Anything s events t)
    (once : .receive ∉ events) {inReader : OStringStream UInt8} {readTotal : Nat}
    (reading : s.reading = some (inReader,readTotal)) :
    Answers s t (receiveLoop (events.filterMap heard) inReader readTotal) := by
  induction run generalizing inReader readTotal with
  | done s => exact .inl ⟨by rw [reading]; rfl,rfl,rfl⟩
  | @next s u t e events _ moved rest ih =>
    obtain ⟨first,others⟩ := not_or.mp (mt List.mem_cons.mpr once)
    cases told : heard e with
    | none =>
      obtain ⟨still,taken⟩ := elseAlike told (Ne.symm first) moved
      have answers := ih others (still.trans reading)
      rw [List.filterMap_cons_none told]
      unfold Answers Ends at answers ⊢
      rw [← taken]
      exact answers
    | some result =>
      cases e <;> cases told
      obtain ⟨_,here,moved⟩ := Option.bind_eq_some_iff.mp moved
      cases reading.symm.trans here
      have more : (Event.result result::events).filterMap heard = result::events.filterMap heard := rfl
      rw [more]
      rcases resultAgrees moved with ⟨taken,more,total,goes,same⟩ | ⟨idle,ends⟩
      · have answers := ih others goes
        rw [same]
        unfold Answers Ends at answers ⊢
        rw [← taken]
        exact answers
      · obtain ⟨silent,same⟩ := quietAlike rest others idle
        rw [silent]
        exact .inr ⟨same.1.trans idle,endsAlike same.2 ends⟩

theorem receiveAgrees {s t : State} {events : List Event}
    (run : Run step Anything s (.receive::events) t) (once : .receive ∉ events) :
    Answers s t (receive (events.filterMap heard)) := by
  cases run with
  | next _ moved rest =>
    obtain ⟨_,moved⟩ := Option.ite_none_right_eq_some.mp moved
    cases moved
    exact runAgrees rest once rfl

theorem receiveAgreesTwo : ∃ t, Run step Anything {constructed with wire := [104,105]}
    [.receive,.insert [106],.result (.data ⟨[104],by decide,by decide⟩)] t ∧
      t.taken = [.message [104] 1 false] ∧
      Answers {constructed with wire := [104,105]} t
        (receive [.data ⟨[104],by decide,by decide⟩]) := by
  have run : ∃ t, [Event.receive,.insert [106],.result (.data ⟨[104],by decide,by decide⟩)].foldlM step
      {constructed with wire := [104,105]} = some t ∧ t.taken = [.message [104] 1 false] := ⟨_,rfl,rfl⟩
  obtain ⟨t,run,taken⟩ := run
  exact ⟨t,foldRun run,taken,receiveAgrees (foldRun run) (by decide)⟩

end Chambermaid.SecureSession
