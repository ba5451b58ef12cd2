import Chambermaid.AsyncDelivered
import Chambermaid.BufferedIo
import Chambermaid.SerialProtocol

/-! The whole stack: the calls of serial.cpp on one `BufferedIO`, the port under it, and the
device on the other end of the line. The device answers each byte it gets, in order, with
one line, and says nothing else; how its bytes are cut into chunks, which handler the runner
takes next and what the clock says is open. -/
namespace Chambermaid.SerialLink
open AsyncImpl AsyncDelivered SerialReply
open Json (Library)
open Serial (Io PortEvent Thrown newline)
open SerialProtocol (Reply WellFormed requested)
open BufferedIo (Pool Caller Progress Time fresh answeredTo)

/-! A call in progress: its program, the place of the caller that waits for it, and the lines
it was given. `asked` counts the bytes written before it began, `wrote` its own. -/
structure Talk where
  kind : Kind
  program : Io Record
  waiting : Option Nat
  heard : List Bytes
  asked : Nat
  wrote : Nat

structure Link where
  pool : Pool
  replies : List Reply
  output : Bytes
  active : Option Talk
  calls : List Talk

def connected : Link := ⟨fresh,[],[],none,[]⟩

inductive Event where
  | start (kind : Kind) | write | wait (now : Time) | resume (now : Time) | finish
  | port (e : AsyncImpl.Event)
  | answer (r : Reply)

-- seconds(1) on a clock that counts microseconds
def microseconds (seconds : Nat) : Time := seconds * 1000000

def outcome : Progress → Option PortEvent
  | .returned line => some (.line line)
  | .timedOut => some .timedOut
  | .failed _ => some .fails
  | _ => none

def Unasked : AsyncImpl.Event → Bool
  | .run _ | .readCompletes _ | .readFails _ | .writeCompletes _ | .writeFails _ _ => true
  | _ => false

def step (lib : Library) (s : Link) : Event → Option Link
  | .start kind => match s.active with
    | none => some {s with
        active := some ⟨kind,call lib kind,none,[],s.pool.impl.history.written.length,0⟩}
    | some _ => none
  | .write => do
    let t ← s.active
    match t.program with
    | .write data next => match AsyncImpl.write s.pool.impl data with
      | .ok impl => some {s with
          pool := {s.pool with impl := impl}
          active := some {t with program := next,wrote := t.wrote + data.length}}
      | .error _ => some {s with active := some {t with program := .raise .systemError}}
    | _ => none
  | .wait now => do
    let t ← s.active
    match t.program,t.waiting with
    | .readStringUntil seconds delim _ _,none => do
      let pool ← BufferedIo.step s.pool (.readStringUntil (microseconds seconds) delim now)
      some {s with pool := pool,active := some {t with waiting := some s.pool.callers.length}}
    | _,_ => none
  | .resume now => do
    let t ← s.active
    let i ← t.waiting
    let pool ← BufferedIo.step s.pool (.resume i now)
    let c ← pool.callers[i]?
    match outcome c.progress with
    | none => some {s with pool := pool}
    | some e => do
      let next ← t.program.step e
      some {s with
        pool := pool
        active := some {t with program := next,waiting := none,heard := t.heard ++ linesOf [e]}}
  | .finish => do
    let t ← s.active
    if Finished t.program then some {s with active := none,calls := s.calls ++ [t]} else none
  | .port e =>
    if Unasked e ∧ chunkOf e <+: s.output then do
      let pool ← BufferedIo.step s.pool (.inner e)
      some {s with pool := pool,output := s.output.drop (chunkOf e).length}
    else none
  | .answer r => do
    let c ← s.pool.impl.history.sent[s.replies.length]?
    if requested c = some r.kind ∧ WellFormed lib r then
      some {s with replies := s.replies ++ [r],output := s.output ++ r.line ++ [newline]}
    else none

inductive Moved (lib : Library) (s : Link) : Event → Link → Prop where
  | starts (kind : Kind) (idle : s.active = none) : Moved lib s (.start kind) {s with
      active := some ⟨kind,call lib kind,none,[],s.pool.impl.history.written.length,0⟩}
  | writes {t : Talk} (active : s.active = some t) {data : Bytes} {next : Io Record}
      (program : t.program = .write data next) {impl : State}
      (written : AsyncImpl.write s.pool.impl data = .ok impl) : Moved lib s .write {s with
        pool := {s.pool with impl := impl}
        active := some {t with program := next,wrote := t.wrote + data.length}}
  | refused {t : Talk} (active : s.active = some t) {data : Bytes} {next : Io Record}
      (program : t.program = .write data next) :
      Moved lib s .write {s with active := some {t with program := .raise .systemError}}
  | waits {t : Talk} (active : s.active = some t) (now : Time) {seconds : Nat} {delim : Bytes}
      {line : Bytes → Io Record} {timedOut : Io Record}
      (program : t.program = .readStringUntil seconds delim line timedOut) :
      Moved lib s (.wait now) {s with
        pool := {s.pool with
          callers := s.pool.callers ++ [⟨delim,now + microseconds seconds,.checking⟩]}
        active := some {t with waiting := some s.pool.callers.length}}
  | looks {t : Talk} (active : s.active = some t) (now : Time) {i : Nat} (at_i : t.waiting = some i)
      {pool : Pool} (resumed : BufferedIo.step s.pool (.resume i now) = some pool) {c : Caller}
      (here : pool.callers[i]? = some c) (on : outcome c.progress = none) :
      Moved lib s (.resume now) {s with pool := pool}
  | returns {t : Talk} (active : s.active = some t) (now : Time) {i : Nat}
      (at_i : t.waiting = some i) {pool : Pool}
      (resumed : BufferedIo.step s.pool (.resume i now) = some pool) {c : Caller}
      (here : pool.callers[i]? = some c) {e : PortEvent} (ended : outcome c.progress = some e)
      {next : Io Record} (proceeds : t.program.step e = some next) :
      Moved lib s (.resume now) {s with
        pool := pool
        active := some {t with program := next,waiting := none,heard := t.heard ++ linesOf [e]}}
  | finishes {t : Talk} (active : s.active = some t) (finished : Finished t.program) :
      Moved lib s .finish {s with active := none,calls := s.calls ++ [t]}
  | moves {e : AsyncImpl.Event} (unasked : Unasked e = true) (said : chunkOf e <+: s.output)
      {impl : State} (moved : AsyncImpl.step s.pool.impl e = some impl) :
      Moved lib s (.port e) {s with
        pool := {s.pool with impl := impl,answers := s.pool.answers ++ answeredTo s.pool.impl e}
        output := s.output.drop (chunkOf e).length}
  | answers {r : Reply} {c : UInt8}
      (sent : s.pool.impl.history.sent[s.replies.length]? = some c)
      (asked : requested c = some r.kind) (formed : WellFormed lib r) :
      Moved lib s (.answer r) {s with
        replies := s.replies ++ [r],output := s.output ++ r.line ++ [newline]}

theorem moved {lib : Library} {s s' : Link} {e : Event} (steps : step lib s e = some s') :
    Moved lib s e s' := by
  cases e with
  | start kind =>
    simp only [step] at steps
    split at steps
    · rename_i idle
      cases steps
      exact .starts kind idle
    · contradiction
  | write =>
    simp only [step,Option.bind_eq_bind,Option.bind_eq_some_iff] at steps
    obtain ⟨t,active,steps⟩ := steps
    split at steps
    · rename_i data next program
      split at steps
      · rename_i impl written
        cases steps
        exact .writes active program written
      · cases steps
        exact .refused active program
    · contradiction
  | wait now =>
    simp only [step,Option.bind_eq_bind,Option.bind_eq_some_iff] at steps
    obtain ⟨t,active,steps⟩ := steps
    split at steps
    · rename_i seconds delim line timedOut program free
      cases steps
      exact .waits active now program
    · contradiction
  | resume now =>
    simp only [step,Option.bind_eq_bind,Option.bind_eq_some_iff] at steps
    obtain ⟨t,active,i,at_i,pool,resumed,c,here,steps⟩ := steps
    split at steps
    · rename_i on
      cases steps
      exact .looks active now at_i resumed here on
    · rename_i e ended
      obtain ⟨next,proceeds,same⟩ := Option.bind_eq_some_iff.mp steps
      cases same
      exact .returns active now at_i resumed here ended proceeds
  | finish =>
    simp only [step,Option.bind_eq_bind,Option.bind_eq_some_iff] at steps
    obtain ⟨t,active,steps⟩ := steps
    obtain ⟨finished,same⟩ := Option.ite_none_right_eq_some.mp steps
    cases same
    exact .finishes active finished
  | port e =>
    obtain ⟨⟨unasked,said⟩,steps⟩ := Option.ite_none_right_eq_some.mp steps
    simp only [Option.bind_eq_bind,Option.bind_eq_some_iff] at steps
    obtain ⟨pool,inside,same⟩ := steps
    obtain ⟨impl,moved,rfl⟩ := Option.map_eq_some_iff.mp inside
    cases same
    exact .moves unasked said moved
  | answer r =>
    simp only [step,Option.bind_eq_bind,Option.bind_eq_some_iff] at steps
    obtain ⟨c,sent,steps⟩ := steps
    obtain ⟨⟨asked,formed⟩,same⟩ := Option.ite_none_right_eq_some.mp steps
    cases same
    exact .answers sent asked formed

/-! Every call writes request letters one at a time and waits for whole lines. -/
def Polite : Io Record → Prop
  | .ret _ => True
  | .raise _ => True
  | .write data next => (∃ kind, data = [requestLetter kind]) ∧ Polite next
  | .readStringUntil _ delim line timedOut =>
    delim = [newline] ∧ (∀ data, Polite (line data)) ∧ Polite timedOut

theorem politeFinished {p : Io Record} (finished : Finished p) : Polite p := by
  cases p with
  | ret a => trivial
  | raise e => trivial
  | write data next => exact finished.elim
  | readStringUntil seconds delim line timedOut => exact finished.elim

theorem politeVersion (lib : Library) (tries : Nat) (line : Bytes) :
    Polite (versionCall lib tries line) := by
  induction tries generalizing line with
  | zero =>
    rw [versionEnds lib (.inl rfl)]
    exact politeFinished (answeredFinished lib .version line)
  | succ tries ih =>
    by_cases letter : line.head? = some 78
    · rw [versionEnds lib (.inr letter)]
      exact politeFinished (answeredFinished lib .version line)
    · have again : Polite (.write [110] (versionCall lib tries line)) := ⟨⟨.version,rfl⟩,ih line⟩
      rw [versionReads lib tries letter]
      refine ⟨rfl,fun data => ?_,again⟩
      dsimp only
      split
      · exact again
      · exact ih _

theorem politeCall (lib : Library) (kind : Kind) : Polite (call lib kind) := by
  by_cases version : kind = .version
  · rw [version,callVersion]
    exact ⟨⟨.version,rfl⟩,politeVersion lib 10 []⟩
  · rw [callRequest lib version]
    exact ⟨⟨kind,rfl⟩,rfl,fun data => politeFinished (answeredFinished lib kind _),trivial⟩

theorem politeStep {p q : Io Record} {e : PortEvent} (polite : Polite p) (proceeds : p.step e = some q) :
    Polite q := by
  cases p with
  | ret a => cases proceeds
  | raise ex => cases proceeds
  | write data next =>
    cases e with
    | wrote =>
      cases proceeds
      exact polite.2
    | fails =>
      cases proceeds
      trivial
    | line data => cases proceeds
    | timedOut => cases proceeds
  | readStringUntil seconds delim line timedOut =>
    cases e with
    | wrote => cases proceeds
    | fails =>
      cases proceeds
      trivial
    | line data =>
      cases proceeds
      exact polite.2.1 data
    | timedOut =>
      cases proceeds
      exact polite.2.2

end Chambermaid.SerialLink
