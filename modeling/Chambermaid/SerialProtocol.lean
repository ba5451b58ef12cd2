import Chambermaid.SerialReply
import Chambermaid.AsyncRead

/-! Requests and replies on one port. The device answers the request letters in order,
one line each, whenever it likes; a call that times out leaves its reply behind. Only
get_version_info passes over lines of other kinds. -/
namespace Chambermaid.SerialProtocol
open Json Serial SerialReply Runs

structure Reply where
  kind : Kind
  body : Bytes
  returned : Bool

-- T:{...}, with or without the carriage return; the newline is the delimiter.
def Reply.line (r : Reply) : Bytes :=
  replyLetter r.kind::58::(r.body ++ if r.returned then [carriageReturn] else [])

def carriesObject : Option Value → Bool
  | some (.object _) => true
  | _ => false

def WellFormed (lib : Library) (r : Reply) : Prop :=
  r.body ≠ [] ∧ newline ∉ r.body ∧ carriageReturn ∉ r.body ∧ carriesObject (lib.parse r.body) = true

instance (lib : Library) (r : Reply) : Decidable (WellFormed lib r) := by
  unfold WellFormed; infer_instance

/-! The call in progress remembers the kind of the oldest reply nobody had read when it
began, and the replies it read. -/
structure Active where
  kind : Kind
  oldest : Option Kind
  program : Io Record
  reads : List Reply

structure System where
  unread : List Reply
  inFlight : List Kind
  active : Option Active
  calls : List Active

def quiet : System := ⟨[],[],none,[]⟩

def outstanding (s : System) : List Kind := s.unread.map Reply.kind ++ s.inFlight

def requested (letter : UInt8) : Option Kind :=
  [.version,.temperatures,.controlSettings,.controlConstants,.controlVariables].find?
    (fun kind => requestLetter kind = letter)

inductive Event where
  | start (kind : Kind) | write | read | timeOut | fail | finish
  | deliver (r : Reply)

def proceed (a : Active) (e : PortEvent) : Option Active :=
  (a.program.step e).map fun next => {a with program := next}

def step (lib : Library) (s : System) : Event → Option System
  | .start kind => match s.active with
    | none => some {s with active := some ⟨kind,(outstanding s).head?,call lib kind,[]⟩}
    | some _ => none
  | .write => do
    let a ← s.active
    match a.program with
    | .write data next => some {s with
        inFlight := s.inFlight ++ data.filterMap requested
        active := some {a with program := next}}
    | _ => none
  | .read => do
    let a ← s.active
    match s.unread with
    | [] => none
    | r::unread =>
      let next ← proceed a (.line r.line)
      some {s with unread := unread,active := some {next with reads := a.reads ++ [r]}}
  | .timeOut => do
    let next ← proceed (← s.active) .timedOut
    some {s with active := some next}
  | .fail => do
    let next ← proceed (← s.active) .fails
    some {s with active := some next}
  | .finish => do
    let a ← s.active
    if Finished a.program then some {s with active := none,calls := s.calls ++ [a]} else none
  | .deliver r => match s.inFlight with
    | [] => none
    | kind::inFlight =>
      if r.kind = kind ∧ WellFormed lib r then
        some {s with inFlight := inFlight,unread := s.unread ++ [r]}
      else none

theorem rfindNone {c : UInt8} {s : Bytes} (absent : c ∉ s) : rfind c s = none := by
  induction s with
  | nil => rfl
  | cons x s ih =>
    obtain ⟨here,later⟩ := not_or.mp (mt List.mem_cons.mpr absent)
    unfold rfind
    rw [ih later]
    exact if_neg (fun same => here same.symm)

theorem rfindLast (c : UInt8) (s : Bytes) : rfind c (s ++ [c]) = some s.length := by
  induction s with
  | nil => simp [rfind]
  | cons x s ih =>
    rw [List.cons_append]
    unfold rfind
    rw [ih]
    rfl

theorem letterPlain (kind : Kind) : replyLetter kind ≠ carriageReturn := by
  cases kind <;> decide

theorem stripLine {lib : Library} {r : Reply} (formed : WellFormed lib r) :
    stripCarriageReturn r.line = replyLetter r.kind::58::r.body := by
  obtain ⟨_,_,plain,_⟩ := formed
  unfold stripCarriageReturn Reply.line
  cases r.returned with
  | true =>
    have last := rfindLast carriageReturn (replyLetter r.kind::58::r.body)
    simp only [List.cons_append] at last
    simp [last]
  | false =>
    have none : carriageReturn ∉ replyLetter r.kind::58::r.body := by
      rw [List.mem_cons,List.mem_cons,not_or,not_or]
      exact ⟨(letterPlain r.kind).symm,by decide,plain⟩
    simp [rfindNone none]

theorem lineReadable {lib : Library} {r : Reply} (formed : WellFormed lib r) {s : AsyncImpl.State}
    {back : Bytes} (clear : s.error = none) (queue : s.readQueue = r.line ++ newline::back)
    (more : back ≠ []) : AsyncImpl.readStringUntil s [newline] =
      .ok (some r.line,AsyncRead.taking s [newline] r.line back) := by
  obtain ⟨_,absent,_,_⟩ := formed
  have whole : newline ∉ r.line := by
    have letter : newline ≠ replyLetter r.kind := by cases r.kind <;> decide
    unfold Reply.line
    rw [List.mem_cons,List.mem_cons,List.mem_append,not_or,not_or,not_or]
    refine ⟨letter,by decide,absent,?_⟩
    split <;> decide
  obtain ⟨occurs,least⟩ := Occurrence.terminatedFirst whole back
  have rest := List.length_pos_iff.mpr more
  rw [← queue] at occurs least
  have read := AsyncRead.readFirst clear (by simp [queue]; omega) occurs least
  rw [read,queue]
  simp

theorem letterExact {first second : Kind} (same : replyLetter first = replyLetter second) :
    first = second := by
  cases first <;> cases second <;> first | rfl | exact absurd same (by decide)

theorem answeredOwn {lib : Library} {r : Reply} (formed : WellFormed lib r) :
    ∃ root, lib.parse r.body = some root ∧
      answered lib r.kind (stripCarriageReturn r.line) = decoded (decode lib r.kind root) := by
  obtain ⟨some,_,_,carries⟩ := id formed
  cases parsed : lib.parse r.body with
  | none =>
    rw [parsed] at carries
    contradiction
  | some root =>
    refine ⟨root,rfl,?_⟩
    have long : ¬ (r.body.length + 1 + 1 < shortest r.kind) := by
      have := List.length_pos_iff.mpr some
      cases r.kind <;> simp only [shortest] <;> omega
    rw [stripLine formed]
    simp [answered,answer,parsed,long]

theorem answeredOther {lib : Library} {kind : Kind} {r : Reply} (formed : WellFormed lib r)
    (other : r.kind ≠ kind) :
    answered lib kind (stripCarriageReturn r.line) = .ret (defaultRecord kind) := by
  have letter : ¬ replyLetter r.kind = replyLetter kind := fun same => other (letterExact same)
  rw [stripLine formed]
  simp [answered,answer,letter]

/-! What the program of a call in progress can still be. For the calls with one line,
the reply they will read is settled once the request is out. -/
def Latest (lib : Library) (line : Bytes) (reads : List Reply) : Prop :=
  (reads = [] ∧ line = []) ∨ ∃ earlier r, reads = earlier ++ [r] ∧ WellFormed lib r ∧
    line = stripCarriageReturn r.line ∧ ∀ q ∈ earlier, q.kind ≠ .version

inductive Stage (lib : Library) (pending : List Kind) : Active → Prop where
  | asking (kind : Kind) : Stage lib pending ⟨kind,pending.head?,call lib kind,[]⟩
  | waiting (kind : Kind) (oldest : Option Kind) (other : kind ≠ .version)
      (next : pending.head? = some (oldest.getD kind)) :
      Stage lib pending ⟨kind,oldest,.readStringUntil 1 [newline]
        (fun data => answered lib kind (stripCarriageReturn data)) (.raise .timeout),[]⟩
  | answering (kind : Kind) (oldest : Option Kind) (other : kind ≠ .version) (r : Reply)
      (formed : WellFormed lib r) (same : r.kind = oldest.getD kind) :
      Stage lib pending ⟨kind,oldest,answered lib kind (stripCarriageReturn r.line),[r]⟩
  | looping (oldest : Option Kind) (tries : Nat) (line : Bytes) (reads : List Reply)
      (latest : Latest lib line reads) :
      Stage lib pending ⟨.version,oldest,versionCall lib tries line,reads⟩
  | resending (oldest : Option Kind) (tries : Nat) (line : Bytes) (reads : List Reply)
      (latest : Latest lib line reads) :
      Stage lib pending ⟨.version,oldest,.write [110] (versionCall lib tries line),reads⟩
  | raised (kind : Kind) (oldest : Option Kind) (e : Thrown) (reads : List Reply) :
      Stage lib pending ⟨kind,oldest,.raise e,reads⟩

def InStep (lib : Library) (c : Active) (record : Record) : Prop :=
  ∃ r root, c.reads.getLast? = some r ∧ r.kind = c.kind ∧ lib.parse r.body = some root ∧
    decode lib c.kind root = .ok record

def GaveUp (c : Active) : Prop := c.kind = .version ∧ ∀ r ∈ c.reads, r.kind ≠ .version

def Settled (lib : Library) (c : Active) : Prop :=
  ∀ record, c.program = .ret record → (c.kind = .version → GaveUp c ∨ InStep lib c record) ∧
    (c.kind ≠ .version → (InStep lib c record ↔ c.oldest = none ∨ c.oldest = some c.kind)) ∧
    (c.kind ≠ .version → InStep lib c record ∨ record = defaultRecord c.kind)

theorem decodedRet {α : Type} {x : Except JsonException α} {a : α} (same : decoded x = .ret a) :
    x = .ok a := by
  cases x with
  | error e => cases same
  | ok b =>
    cases same
    rfl

theorem answeredInStep {lib : Library} {r : Reply} {record : Record} (formed : WellFormed lib r)
    (same : answered lib r.kind (stripCarriageReturn r.line) = .ret record) :
    ∃ root, lib.parse r.body = some root ∧ decode lib r.kind root = .ok record := by
  obtain ⟨root,parsed,answer⟩ := answeredOwn formed
  rw [answer] at same
  exact ⟨root,parsed,decodedRet same⟩

theorem answeringSettled {lib : Library} {kind : Kind} {oldest : Option Kind} {r : Reply}
    (other : kind ≠ .version) (formed : WellFormed lib r) (same : r.kind = oldest.getD kind) :
    Settled lib ⟨kind,oldest,answered lib kind (stripCarriageReturn r.line),[r]⟩ := by
  intro record result
  have stepped : r.kind = kind →
      InStep lib ⟨kind,oldest,answered lib kind (stripCarriageReturn r.line),[r]⟩ record := by
    intro own
    cases own
    obtain ⟨root,parsed,decodes⟩ := answeredInStep formed result
    exact ⟨r,root,rfl,rfl,parsed,decodes⟩
  refine ⟨fun version => absurd version other,fun _ => ⟨?_,?_⟩,fun _ => ?_⟩
  · rintro ⟨q,root,last,own,_⟩
    cases Option.some.inj last
    have expected : oldest.getD kind = kind := same.symm.trans own
    cases oldest with
    | none => exact .inl rfl
    | some first => exact .inr (congrArg some expected)
  · intro begun
    rcases begun with none | first
    · exact stepped (same.trans (congrArg (fun o => Option.getD o kind) none))
    · exact stepped (same.trans (congrArg (fun o => Option.getD o kind) first))
  · by_cases own : r.kind = kind
    · exact .inl (stepped own)
    · right
      rw [answeredOther formed own] at result
      exact (Io.ret.inj result).symm

theorem versionShape (lib : Library) (tries : Nat) (line : Bytes) :
    versionCall lib tries line = answered lib .version line ∨
    ∃ t, tries = t+1 ∧ line.head? ≠ some 78 := by
  by_cases letter : line.head? = some 78
  · exact .inl (versionEnds lib (.inr letter))
  · cases tries with
    | zero => exact .inl (versionEnds lib (.inl rfl))
    | succ t => exact .inr ⟨t,rfl,letter⟩

theorem latestOther {lib : Library} {line : Bytes} {reads : List Reply} (latest : Latest lib line reads)
    (letter : line.head? ≠ some 78) : ∀ q ∈ reads, q.kind ≠ .version := by
  rcases latest with ⟨none,_⟩ | ⟨earlier,r,split,formed,same,others⟩
  · rw [none]
    intro q inside
    contradiction
  · intro q inside
    rw [split,List.mem_append,List.mem_singleton] at inside
    rcases inside with before | last
    · exact others q before
    · intro version
      rw [same,stripLine formed,← last,version] at letter
      exact letter rfl

theorem loopingSettled {lib : Library} {oldest : Option Kind} {tries : Nat} {line : Bytes}
    {reads : List Reply} (latest : Latest lib line reads)
    (ended : versionCall lib tries line = answered lib .version line) :
    Settled lib ⟨.version,oldest,versionCall lib tries line,reads⟩ := by
  intro record result
  refine ⟨fun _ => ?_,fun other => absurd rfl other,fun other => absurd rfl other⟩
  by_cases letter : line.head? = some 78
  · right
    rcases latest with ⟨_,empty⟩ | ⟨earlier,r,split,formed,same,_⟩
    · rw [empty] at letter
      contradiction
    · have own : r.kind = .version := by
        rw [same,stripLine formed] at letter
        exact letterExact (Option.some.inj letter)
      have result : answered lib r.kind (stripCarriageReturn r.line) = .ret record := by
        rw [own,← same,← ended]
        exact result
      obtain ⟨root,parsed,decodes⟩ := answeredInStep formed result
      rw [own] at decodes
      refine ⟨r,root,?_,own,parsed,decodes⟩
      simp [split]
  · exact .inl ⟨rfl,latestOther latest letter⟩

theorem answeredStays {lib : Library} {kind : Kind} {line : Bytes} {e : PortEvent} {next : Io Record}
    (moved : (answered lib kind line).step e = some next) : False := by
  have finished := answeredFinished lib kind line
  cases result : answered lib kind line with
  | ret a =>
    rw [result] at moved
    cases moved
  | raise ex =>
    rw [result] at moved
    cases moved
  | write data next =>
    rw [result] at finished
    exact finished
  | readStringUntil seconds delim line timedOut =>
    rw [result] at finished
    exact finished

theorem versionProceeds {lib : Library} {tries : Nat} {line : Bytes} {e : PortEvent}
    {next : Io Record} (moved : (versionCall lib tries line).step e = some next) :
    ∃ t, tries = t+1 ∧ line.head? ≠ some 78 := by
  rcases versionShape lib tries line with ended | reading
  · rw [ended] at moved
    exact (answeredStays moved).elim
  · exact reading

theorem callWrites (lib : Library) (kind : Kind) :
    ∃ next, call lib kind = .write [requestLetter kind] next := by
  by_cases version : kind = .version
  · rw [version]
    exact ⟨_,callVersion lib⟩
  · exact ⟨_,callRequest lib version⟩

theorem failRaises {α : Type} {p q : Io α} (moved : p.step .fails = some q) :
    q = .raise .systemError := by
  cases p <;> cases moved <;> rfl

theorem requestedOwn (kind : Kind) : requested (requestLetter kind) = some kind := by
  cases kind <;> rfl

theorem headAppend (pending : List Kind) (kind : Kind) :
    (pending ++ [kind]).head? = some (pending.head?.getD kind) := by
  cases pending <;> rfl

theorem stageWrite {lib : Library} {pending : List Kind} {a : Active} {data : Bytes}
    {next : Io Record} (stage : Stage lib pending a) (writes : a.program = .write data next) :
    Stage lib (pending ++ data.filterMap requested) {a with program := next} := by
  have moved : a.program.step .wrote = some next := by
    rw [writes]
    rfl
  cases stage with
  | asking kind =>
    by_cases version : kind = .version
    · cases version
      cases writes
      exact .looping _ 10 [] [] (.inl ⟨rfl,rfl⟩)
    · have writes : call lib kind = .write data next := writes
      rw [callRequest lib version] at writes
      cases writes
      refine .waiting kind _ version ?_
      rw [List.filterMap_cons,requestedOwn]
      exact headAppend pending kind
  | waiting kind oldest other next => cases writes
  | answering kind oldest other r formed same => exact (answeredStays moved).elim
  | looping oldest tries line reads latest =>
    obtain ⟨t,same,letter⟩ := versionProceeds moved
    have writes : versionCall lib tries line = .write data next := writes
    rw [same,versionReads lib t letter] at writes
    cases writes
  | resending oldest tries line reads latest =>
    cases writes
    exact .looping oldest tries line reads latest
  | raised kind oldest e reads => cases writes

theorem stageRead {lib : Library} {pending : List Kind} {a : Active} {r : Reply} {next : Io Record}
    (stage : Stage lib (r.kind::pending) a) (formed : WellFormed lib r)
    (moved : a.program.step (.line r.line) = some next) :
    Stage lib pending {a with program := next,reads := a.reads ++ [r]} := by
  cases stage with
  | asking kind =>
    obtain ⟨asked,writes⟩ := callWrites lib kind
    simp only [writes] at moved
    cases moved
  | waiting kind oldest other head =>
    cases moved
    exact .answering kind oldest other r formed (Option.some.inj head)
  | answering kind oldest other q formed' same => exact (answeredStays moved).elim
  | looping oldest tries line reads latest =>
    obtain ⟨t,same,letter⟩ := versionProceeds moved
    have moved : (versionCall lib tries line).step (.line r.line) = some next := moved
    rw [same,versionReads lib t letter] at moved
    cases moved
    have some : ¬ r.line = [] := List.cons_ne_nil _ _
    simp only [some,if_false]
    exact .looping oldest t _ _ (.inr ⟨reads,r,rfl,formed,rfl,latestOther latest letter⟩)
  | resending oldest tries line reads latest => cases moved
  | raised kind oldest e reads => cases moved

theorem stageTimeOut {lib : Library} {pending : List Kind} {a : Active} {next : Io Record}
    (stage : Stage lib pending a) (moved : a.program.step .timedOut = some next) :
    Stage lib pending {a with program := next} := by
  cases stage with
  | asking kind =>
    obtain ⟨asked,writes⟩ := callWrites lib kind
    simp only [writes] at moved
    cases moved
  | waiting kind oldest other head =>
    cases moved
    exact .raised kind oldest .timeout []
  | answering kind oldest other q formed same => exact (answeredStays moved).elim
  | looping oldest tries line reads latest =>
    obtain ⟨t,same,letter⟩ := versionProceeds moved
    have moved : (versionCall lib tries line).step .timedOut = some next := moved
    rw [same,versionReads lib t letter] at moved
    cases moved
    exact .resending oldest t line reads latest
  | resending oldest tries line reads latest => cases moved
  | raised kind oldest e reads => cases moved

theorem stageFinish {lib : Library} {pending : List Kind} {a : Active} (stage : Stage lib pending a)
    (finished : Finished a.program) : Settled lib a := by
  cases stage with
  | asking kind =>
    obtain ⟨asked,writes⟩ := callWrites lib kind
    simp only [writes] at finished
    exact finished.elim
  | waiting kind oldest other head => cases finished
  | answering kind oldest other r formed same => exact answeringSettled other formed same
  | looping oldest tries line reads latest =>
    rcases versionShape lib tries line with ended | ⟨t,same,letter⟩
    · exact loopingSettled latest ended
    · have finished : Finished (versionCall lib tries line) := finished
      rw [same,versionReads lib t letter] at finished
      cases finished
  | resending oldest tries line reads latest => cases finished
  | raised kind oldest e reads =>
    intro record result
    cases result

structure Synchronised (lib : Library) (s : System) : Prop where
  formed : ∀ r ∈ s.unread, WellFormed lib r
  stage : ∀ a, s.active = some a → Stage lib (outstanding s) a
  settled : ∀ c ∈ s.calls, Settled lib c

theorem proceeds {a b : Active} {e : PortEvent} (moved : proceed a e = some b) :
    ∃ next, a.program.step e = some next ∧ b = {a with program := next} := by
  obtain ⟨next,inside,same⟩ := Option.map_eq_some_iff.mp moved
  exact ⟨next,inside,same.symm⟩

theorem synchronisedKept {lib : Library} {s t : System} {e : Event} (kept : Synchronised lib s)
    (moved : step lib s e = some t) : Synchronised lib t := by
  obtain ⟨formed,stage,settled⟩ := kept
  cases e with
  | start kind =>
    simp only [step] at moved
    split at moved
    · cases moved
      refine ⟨formed,?_,settled⟩
      intro a active
      cases active
      exact .asking kind
    · contradiction
  | write =>
    simp only [step,Option.bind_eq_bind,Option.bind_eq_some_iff] at moved
    obtain ⟨a,active,moved⟩ := moved
    split at moved
    · rename_i data next writes
      cases moved
      refine ⟨formed,?_,settled⟩
      intro b same
      cases same
      unfold outstanding
      rw [← List.append_assoc]
      exact stageWrite (stage a active) writes
    · contradiction
  | read =>
    simp only [step,Option.bind_eq_bind,Option.bind_eq_some_iff] at moved
    obtain ⟨a,active,moved⟩ := moved
    split at moved
    · contradiction
    · rename_i r unread queue
      obtain ⟨b,moved,same⟩ := Option.bind_eq_some_iff.mp moved
      obtain ⟨next,inside,rfl⟩ := proceeds moved
      cases same
      have first : outstanding s = r.kind::(unread.map Reply.kind ++ s.inFlight) := by
        unfold outstanding
        rw [queue]
        rfl
      have reading := stage a active
      rw [first] at reading
      rw [queue] at formed
      refine ⟨fun q inside => formed q (List.mem_cons_of_mem _ inside),?_,settled⟩
      intro c same
      cases same
      exact @stageRead lib _ a r next reading (formed r (List.mem_cons_self ..)) inside
  | timeOut =>
    simp only [step,Option.bind_eq_bind,Option.bind_eq_some_iff] at moved
    obtain ⟨a,active,b,moved,same⟩ := moved
    obtain ⟨next,inside,rfl⟩ := proceeds moved
    cases same
    refine ⟨formed,?_,settled⟩
    intro c same
    cases same
    exact stageTimeOut (stage a active) inside
  | fail =>
    simp only [step,Option.bind_eq_bind,Option.bind_eq_some_iff] at moved
    obtain ⟨a,active,b,moved,same⟩ := moved
    obtain ⟨next,inside,rfl⟩ := proceeds moved
    cases same
    refine ⟨formed,?_,settled⟩
    intro c same
    cases same
    rw [failRaises inside]
    exact .raised a.kind a.oldest .systemError a.reads
  | finish =>
    simp only [step,Option.bind_eq_bind,Option.bind_eq_some_iff] at moved
    obtain ⟨a,active,moved⟩ := moved
    split at moved
    · rename_i finished
      cases moved
      refine ⟨formed,fun b none => by contradiction,?_⟩
      intro c inside
      rcases List.mem_append.mp inside with before | last
      · exact settled c before
      · rw [List.mem_singleton.mp last]
        exact stageFinish (stage a active) finished
    · contradiction
  | deliver r =>
    simp only [step] at moved
    split at moved
    · contradiction
    · rename_i kind inFlight queue
      split at moved
      · rename_i delivered
        obtain ⟨own,whole⟩ := delivered
        cases moved
        refine ⟨?_,?_,settled⟩
        · intro q inside
          rcases List.mem_append.mp inside with before | last
          · exact formed q before
          · rw [List.mem_singleton.mp last]
            exact whole
        · intro a active
          have same : s.unread.map Reply.kind ++ kind::inFlight =
              (s.unread ++ [r]).map Reply.kind ++ inFlight := by
            simp [own]
          have before := stage a active
          unfold outstanding at before
          rw [queue,same] at before
          exact before
      · contradiction

theorem reachableSettled {lib : Library} {s : System}
    (reachable : Reachable (step lib) Anything quiet s) {c : Active} (done : c ∈ s.calls) :
    Settled lib c := by
  have first : Synchronised lib quiet :=
    ⟨fun r none => by contradiction,fun a none => by contradiction,fun c none => by contradiction⟩
  have kept : Synchronised lib s :=
    reachableInvariant (fun _ _ _ kept _ moved => synchronisedKept kept moved) first reachable
  exact kept.settled c done

theorem outOfStepDefault (lib : Library) {s : System}
    (reachable : Reachable (step lib) Anything quiet s) {c : Active} (done : c ∈ s.calls)
    {record : Record} (returned : c.program = .ret record) (other : c.kind ≠ .version)
    (late : ¬ InStep lib c record) : record = defaultRecord c.kind := by
  obtain ⟨_,_,either⟩ := reachableSettled reachable done record returned
  exact (either other).resolve_left late

def temperaturesReply : Reply := ⟨.temperatures,[123,125],true⟩

def late : List Event :=
  [.start .temperatures,.write,.timeOut,.finish,.start .controlSettings,.write,
    .deliver temperaturesReply,.read,.finish]

end Chambermaid.SerialProtocol
