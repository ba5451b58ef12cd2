import Chambermaid.LinkReplies

/-! The stack speaks the protocol: every run of the calls over bytes, buffers, handlers and
clocks is a run of the same calls over whole replies. Time, chunks and the runner's choices
are no steps of the protocol at all. -/
namespace Chambermaid.LinkProtocol
open Runs AsyncImpl AsyncStep AsyncFraming AsyncDelivered SerialReply SerialLink LinkReplies
open Json (Library)
open Serial (Io PortEvent newline)
open SerialProtocol (Reply WellFormed Active System quiet proceed requested)
open BufferedIo (Pool Caller)

def Same (t : Talk) (a : Active) : Prop :=
  a.kind = t.kind ∧ a.program = t.program ∧ a.reads.map Reply.line = t.heard

def SameActive : Option Talk → Option Active → Prop
  | none,none => True
  | some t,some a => Same t a
  | _,_ => False

/-! What the stack stands for: a reply is unread until its line is taken, and in flight from
the moment its request is written until the device has said it. -/
structure Represents (s : Link) (p : System) : Prop where
  unread : p.unread = s.replies.drop (lines s.pool.impl).length
  inFlight : p.inFlight = (s.pool.impl.history.written.drop s.replies.length).filterMap requested
  active : SameActive s.active p.active
  calls : List.Forall₂ Same s.calls p.calls

def Related (lib : Library) (s : Link) (p : System) : Prop := Linked lib s ∧ Represents s p

theorem activeOf {s : Link} {p : System} (represents : Represents s p) {t : Talk}
    (active : s.active = some t) : ∃ a, p.active = some a ∧ Same t a := by
  have same := represents.active
  rw [active] at same
  cases other : p.active with
  | none =>
    rw [other] at same
    exact same.elim
  | some a =>
    rw [other] at same
    exact ⟨a,rfl,same⟩

theorem idleOf {s : Link} {p : System} (represents : Represents s p) (idle : s.active = none) :
    p.active = none := by
  have same := represents.active
  rw [idle] at same
  cases other : p.active with
  | none => rfl
  | some a =>
    rw [other] at same
    exact same.elim

theorem linesStay {s t : State} {e : AsyncImpl.Event} (stays : ¬ Opens e)
    (reads : ∀ delim, e ≠ .readStringUntil delim) (moved : AsyncImpl.step s e = some t) :
    lines t = lines s := by
  have none : BufferedIo.answeredTo s e = [] := by
    cases e with
    | readStringUntil delim => exact absurd rfl (reads delim)
    | _ => rfl
  unfold lines
  rw [BufferedIo.stepTaken stays moved,none,List.append_nil]

theorem linesWait {lib : Library} {s : Link} (linked : Linked lib s) {t : Talk}
    (active : s.active = some t) {i : Nat} (at_i : t.waiting = some i) {now : BufferedIo.Time}
    {pool : Pool} (resumed : BufferedIo.step s.pool (.resume i now) = some pool) {c : Caller}
    (here : pool.callers[i]? = some c) (other : ∀ line, c.progress ≠ .returned line) :
    lines pool.impl = lines s.pool.impl ∧
      pool.impl.history.written = s.pool.impl.history.written := by
  obtain ⟨b,there,whole⟩ := (linked.active t active).waits i at_i
  obtain ⟨d,after,_,same⟩ := resumedCaller there resumed
  cases here.symm.trans after
  rcases same with ⟨same,_⟩ | ⟨result,read,exactly⟩
  · rw [same]
    exact ⟨rfl,rfl⟩
  · cases result with
    | some line => exact absurd ((exactly line).mpr rfl) (other line)
    | none =>
      rw [(nothingLeft read).2]
      exact ⟨rfl,rfl⟩

def Answered (lib : Library) (s' : Link) (p : System) : Prop :=
  ∃ events q, Run (SerialProtocol.step lib) Anything p events q ∧ Represents s' q

theorem unseen {lib : Library} {s' : Link} {p : System} (represents : Represents s' p) :
    Answered lib s' p := ⟨[],p,.done p,represents⟩

theorem seen {lib : Library} {s' : Link} {p q : System} {e : SerialProtocol.Event}
    (moved : SerialProtocol.step lib p e = some q) (represents : Represents s' q) :
    Answered lib s' p := ⟨[e],q,.next trivial moved (.done q),represents⟩

section
variable {lib : Library} {s : Link} {p : System}

theorem startAnswered (represents : Represents s p) (kind : Kind) (idle : s.active = none) :
    Answered lib {s with
      active := some ⟨kind,call lib kind,none,[],s.pool.impl.history.written.length,0⟩} p := by
  have begun : SerialProtocol.step lib p (.start kind) = some {p with
      active := some ⟨kind,(SerialProtocol.outstanding p).head?,call lib kind,[]⟩} := by
    simp only [SerialProtocol.step,idleOf represents idle]
  exact seen begun ⟨represents.unread,represents.inFlight,⟨rfl,rfl,rfl⟩,represents.calls⟩

theorem writeAnswered (linked : Linked lib s) (represents : Represents s p) {t : Talk}
    (active : s.active = some t) {data : Bytes} {next : Io SerialReply.Record}
    (program : t.program = .write data next) {impl : State}
    (written : AsyncImpl.write s.pool.impl data = .ok impl) :
    Answered lib {s with
      pool := {s.pool with impl := impl}
      active := some {t with program := next,wrote := t.wrote + data.length}} p := by
  obtain ⟨a,other,kind,same,reads⟩ := activeOf represents active
  obtain ⟨moved,more⟩ := writeOk written
  have inside := Nat.le_trans linked.spoken.answered (sentWritten linked.spoken).length_le
  have asked : SerialProtocol.step lib p .write = some {p with
      inFlight := p.inFlight ++ data.filterMap requested
      active := some {a with program := next}} := by
    simp [SerialProtocol.step,other,same.trans program]
  refine seen asked ⟨?_,?_,⟨kind,rfl,reads⟩,represents.calls⟩
  · dsimp only
    rw [linesStay id (fun delim other => by contradiction) moved]
    exact represents.unread
  · dsimp only
    rw [more,List.drop_append_of_le_length inside,List.filterMap_append,represents.inFlight]

theorem refusedAnswered (represents : Represents s p) {t : Talk} (active : s.active = some t)
    {data : Bytes} {next : Io SerialReply.Record} (program : t.program = .write data next) :
    Answered lib {s with active := some {t with program := .raise .systemError}} p := by
  obtain ⟨a,other,kind,same,reads⟩ := activeOf represents active
  have failed : SerialProtocol.step lib p .fail = some {p with
      active := some {a with program := .raise .systemError}} := by
    simp [SerialProtocol.step,other,proceed,same.trans program,Io.step]
  exact seen failed ⟨represents.unread,represents.inFlight,⟨kind,rfl,reads⟩,represents.calls⟩

theorem waitAnswered (represents : Represents s p) {t : Talk} (active : s.active = some t)
    (callers : List Caller) (waiting : Option Nat) :
    Answered lib {s with
      pool := {s.pool with callers := callers}
      active := some {t with waiting := waiting}} p := by
  obtain ⟨a,other,kind,same,reads⟩ := activeOf represents active
  refine unseen ⟨represents.unread,represents.inFlight,?_,represents.calls⟩
  rw [other]
  exact ⟨kind,same,reads⟩

theorem lookAnswered (linked : Linked lib s) (represents : Represents s p) {t : Talk}
    (active : s.active = some t) {i : Nat} (at_i : t.waiting = some i) {now : BufferedIo.Time}
    {pool : Pool} (resumed : BufferedIo.step s.pool (.resume i now) = some pool) {c : Caller}
    (here : pool.callers[i]? = some c) (on : outcome c.progress = none) :
    Answered lib {s with pool := pool} p := by
  have other : ∀ line, c.progress ≠ .returned line := by
    intro line returned
    rw [returned] at on
    contradiction
  obtain ⟨stays,written⟩ := linesWait linked active at_i resumed here other
  refine unseen ⟨?_,?_,represents.active,represents.calls⟩
  · rw [stays]
    exact represents.unread
  · dsimp only
    rw [written]
    exact represents.inFlight

theorem returnAnswered (linked : Linked lib s) (represents : Represents s p) {t : Talk}
    (active : s.active = some t) {i : Nat} (at_i : t.waiting = some i) {now : BufferedIo.Time}
    {pool : Pool} (resumed : BufferedIo.step s.pool (.resume i now) = some pool) {c : Caller}
    (here : pool.callers[i]? = some c) {e : PortEvent} (ended : outcome c.progress = some e)
    {next : Io SerialReply.Record} (proceeds : t.program.step e = some next) :
    Answered lib {s with
      pool := pool
      active := some {t with program := next,waiting := none,heard := t.heard ++ linesOf [e]}} p := by
  obtain ⟨a,other,kind,same,reads⟩ := activeOf represents active
  have went : a.program.step e = some next := by rw [same,proceeds]
  -- A call that ends its wait without a line leaves the replies alone.
  have stayed : (∀ line, c.progress ≠ .returned line) → Represents {s with
      pool := pool
      active := some {t with program := next,waiting := none,heard := t.heard}}
      {p with active := some {a with program := next}} := by
    intro none
    obtain ⟨stays,written⟩ := linesWait linked active at_i resumed here none
    refine ⟨?_,?_,⟨kind,rfl,reads⟩,represents.calls⟩
    · dsimp only
      rw [stays]
      exact represents.unread
    · dsimp only
      rw [written]
      exact represents.inFlight
  cases progress : c.progress with
  | returned line =>
    rw [progress] at ended
    cases ended
    obtain ⟨b,there,whole⟩ := (linked.active t active).waits i at_i
    obtain ⟨d,after,_,taken⟩ := resumedCaller there resumed
    cases here.symm.trans after
    rcases taken with ⟨_,never⟩ | ⟨result,read,exactly⟩
    · exact absurd progress (never line)
    · rw [(exactly line).mp progress,whole] at read
      obtain ⟨r,reply,shown,grown,_⟩ := heardReply linked.spoken read
      obtain ⟨inside,is_r⟩ := List.getElem?_eq_some_iff.mp reply
      have unread : p.unread = r::s.replies.drop ((lines s.pool.impl).length + 1) := by
        rw [represents.unread,List.drop_eq_getElem_cons inside,is_r]
      have heard : SerialProtocol.step lib p .read = some {p with
          unread := s.replies.drop ((lines s.pool.impl).length + 1)
          active := some {a with program := next,reads := a.reads ++ [r]}} := by
        rw [shown] at went
        simp [SerialProtocol.step,other,unread,proceed,went]
      have written := (resumedSpoken linked.spoken there whole resumed).2
      refine seen heard ⟨?_,?_,⟨kind,rfl,?_⟩,represents.calls⟩
      · dsimp only
        rw [grown,List.length_append,List.length_singleton]
      · dsimp only
        rw [written]
        exact represents.inFlight
      · dsimp only
        rw [List.map_append,reads,shown]
        rfl
  | timedOut =>
    rw [progress] at ended
    cases ended
    have late : SerialProtocol.step lib p .timeOut = some {p with
        active := some {a with program := next}} := by
      simp [SerialProtocol.step,other,proceed,went]
    have kept := stayed (fun line returned => by rw [progress] at returned; contradiction)
    exact seen late (by simpa [linesOf] using kept)
  | failed ec =>
    rw [progress] at ended
    cases ended
    have failed : SerialProtocol.step lib p .fail = some {p with
        active := some {a with program := next}} := by
      simp [SerialProtocol.step,other,proceed,went]
    have kept := stayed (fun line returned => by rw [progress] at returned; contradiction)
    exact seen failed (by simpa [linesOf] using kept)
  | _ =>
    rw [progress] at ended
    contradiction

theorem finishAnswered (represents : Represents s p) {t : Talk} (active : s.active = some t)
    (finished : Finished t.program) :
    Answered lib {s with active := none,calls := s.calls ++ [t]} p := by
  obtain ⟨a,other,same⟩ := activeOf represents active
  have ended : SerialProtocol.step lib p .finish = some {p with
      active := none,calls := p.calls ++ [a]} := by
    rw [← same.2.1] at finished
    simp [SerialProtocol.step,other,finished]
  refine seen ended ⟨represents.unread,represents.inFlight,trivial,?_⟩
  exact List.rel_append represents.calls (.cons same .nil)

theorem moveAnswered (represents : Represents s p) {e : AsyncImpl.Event} (unasked : Unasked e = true)
    {impl : State} (moved : AsyncImpl.step s.pool.impl e = some impl) (answers : List (Bytes × Bytes))
    (output : Bytes) :
    Answered lib {s with
      pool := {s.pool with impl := impl,answers := answers}
      output := output} p := by
  have stays : ¬ Opens e := by
    cases e <;> first | exact id | cases unasked
  have writes : ∀ range, e ≠ .write range := by
    rintro range rfl
    cases unasked
  have reads : ∀ delim, e ≠ .readStringUntil delim := by
    rintro delim rfl
    cases unasked
  refine unseen ⟨?_,?_,represents.active,represents.calls⟩
  · dsimp only
    rw [linesStay stays reads moved]
    exact represents.unread
  · dsimp only
    rw [writtenKept stays writes moved]
    exact represents.inFlight

theorem replyAnswered (linked : Linked lib s) (represents : Represents s p) {r : Reply} {c : UInt8}
    (sent : s.pool.impl.history.sent[s.replies.length]? = some c)
    (asked : requested c = some r.kind) (formed : WellFormed lib r) :
    Answered lib {s with replies := s.replies ++ [r],output := s.output ++ r.line ++ [newline]} p := by
  obtain ⟨tail,whole⟩ := sentWritten linked.spoken
  have written : s.pool.impl.history.written[s.replies.length]? = some c := by
    obtain ⟨inside,_⟩ := List.getElem?_eq_some_iff.mp sent
    rw [← whole,List.getElem?_append_left inside,sent]
  obtain ⟨inside,is_c⟩ := List.getElem?_eq_some_iff.mp written
  have inFlight : p.inFlight = r.kind::(s.pool.impl.history.written.drop
      (s.replies.length + 1)).filterMap requested := by
    rw [represents.inFlight,List.drop_eq_getElem_cons inside,is_c,List.filterMap_cons,asked]
  have delivers : SerialProtocol.step lib p (.deliver r) = some {p with
      inFlight := (s.pool.impl.history.written.drop (s.replies.length + 1)).filterMap requested
      unread := p.unread ++ [r]} := by
    simp [SerialProtocol.step,inFlight,formed]
  refine seen delivers ⟨?_,?_,represents.active,represents.calls⟩
  · dsimp only
    rw [represents.unread,List.drop_append_of_le_length (linesReplies linked.spoken).2.1]
  · dsimp only
    rw [List.length_append,List.length_singleton]

end

theorem stackAnswered {lib : Library} {s s' : Link} {p : System} {e : SerialLink.Event}
    (linked : Linked lib s) (represents : Represents s p)
    (steps : SerialLink.step lib s e = some s') : Answered lib s' p := by
  cases moved steps with
  | starts kind idle => exact startAnswered represents kind idle
  | writes active program written => exact writeAnswered linked represents active program written
  | refused active program => exact refusedAnswered represents active program
  | waits active now program => exact waitAnswered represents active _ _
  | looks active now at_i resumed here on => exact lookAnswered linked represents active at_i resumed here on
  | returns active now at_i resumed here ended proceeds =>
    exact returnAnswered linked represents active at_i resumed here ended proceeds
  | finishes active finished => exact finishAnswered represents active finished
  | moves unasked said moved => exact moveAnswered represents unasked moved _ _
  | answers sent asked formed => exact replyAnswered linked represents sent asked formed

theorem stackSimulates (lib : Library) :
    Simulates (SerialLink.step lib) Anything (SerialProtocol.step lib) Anything (Related lib) := by
  intro s e s' p related _ steps
  obtain ⟨linked,represents⟩ := related
  obtain ⟨events,q,run,after⟩ := stackAnswered linked represents steps
  exact ⟨events,q,run,linkedKept linked steps,after⟩

theorem sameSettled {lib : Library} {s : Link} {p : System} (represents : Represents s p)
    (reachable : Reachable (SerialProtocol.step lib) Anything quiet p) {t : Talk} (done : t ∈ s.calls) :
    ∃ a ∈ p.calls, Same t a ∧ SerialProtocol.Settled lib a := by
  obtain ⟨i,inside,here⟩ := List.getElem_of_mem done
  have lengths := represents.calls.length_eq
  have same := represents.calls.get inside (by omega)
  rw [List.get_eq_getElem,here] at same
  exact ⟨_,List.getElem_mem _,same,SerialProtocol.reachableSettled reachable (List.getElem_mem _)⟩

theorem stackRefines (lib : Library) {s : Link}
    (reachable : Reachable (SerialLink.step lib) Anything connected s) :
    ∃ p, Reachable (SerialProtocol.step lib) Anything quiet p ∧ Represents s p ∧
      ∀ t ∈ s.calls, ∃ a ∈ p.calls, Same t a ∧ SerialProtocol.Settled lib a := by
  have first : Related lib connected quiet := ⟨connectedLinked lib,rfl,rfl,trivial,.nil⟩
  obtain ⟨p,answers,_,represents⟩ := simulatesReachable (stackSimulates lib) first reachable
  exact ⟨p,answers,represents,fun t done => sameSettled represents answers done⟩

theorem stackRefinesBehind : ∃ s, Reachable (SerialLink.step small) Anything connected s ∧
    s.calls.length = 2 ∧
    ∃ p, Reachable (SerialProtocol.step small) Anything quiet p ∧ Represents s p ∧
      ∀ t ∈ s.calls, ∃ a ∈ p.calls, Same t a ∧ SerialProtocol.Settled small a := by
  have run : ∃ s, oneBehind.foldlM (SerialLink.step small) connected = some s ∧
      s.calls.length = 2 := ⟨_,rfl,rfl⟩
  obtain ⟨s,run,two⟩ := run
  have reachable : Reachable (SerialLink.step small) Anything connected s := ⟨_,foldRun run⟩
  exact ⟨s,reachable,two,stackRefines small reachable⟩

end Chambermaid.LinkProtocol
