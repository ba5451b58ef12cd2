import Chambermaid.AsyncFraming
import Chambermaid.AsyncReopen
import Chambermaid.SerialLink

/-! Which reply a call is given. A line is taken only once a byte stands behind its newline,
and the device says nothing it was not asked for, so that byte belongs to the answer to a
later request: no call that asks once is ever given its own reply. -/
namespace Chambermaid.LinkReplies
open Occurrence Framing Runs AsyncImpl AsyncRead AsyncStep AsyncWrite AsyncSession AsyncFraming
  AsyncDelivered SerialReply SerialLink
open Json (Library)
open Serial (Io PortEvent newline)
open SerialProtocol (Reply WellFormed)
open BufferedIo (Pool Caller resumedAt)

theorem wholeLine {lib : Library} {r : Reply} (formed : WellFormed lib r) : newline ∉ r.line := by
  obtain ⟨_,absent,_,_⟩ := formed
  have letter : newline ≠ replyLetter r.kind := by cases r.kind <;> decide
  unfold Reply.line
  rw [List.mem_cons,List.mem_cons,List.mem_append,not_or,not_or,not_or]
  refine ⟨letter,by decide,absent,?_⟩
  split <;> decide

structure Spoken (lib : Library) (replies : List Reply) (output : Bytes) (impl : State) : Prop where
  framed : Framed [newline] impl
  flowing : Flowing True impl
  answered : replies.length ≤ impl.history.sent.length
  formed : ∀ r ∈ replies, WellFormed lib r
  stream : delivered impl ++ output = terminated newline (replies.map Reply.line)

theorem spokenKept {lib : Library} {replies : List Reply} {output : Bytes} {s t : State}
    {e : AsyncImpl.Event} (spoken : Spoken lib replies output s) (polls : Polling [newline] s e)
    (filled : ∀ range, e = .write range → range ≠ []) (said : chunkOf e <+: output)
    (moved : AsyncImpl.step s e = some t) :
    Spoken lib replies (output.drop (chunkOf e).length) t := by
  obtain ⟨framed,flowing,answered,formed,stream⟩ := spoken
  obtain ⟨rest,rfl⟩ := said
  refine ⟨stepFramed framed polls moved,?_,?_,formed,?_⟩
  · exact flowingKept (AsyncReopen.filledSession ⟨polls.1,filled⟩) (fun _ _ _ => trivial) moved flowing
  · exact Nat.le_trans answered (sentGrows polls.1 moved).length_le
  · rw [deliveredStep framed.reading polls.1 moved,← stream]
    simp

theorem sentWritten {lib : Library} {replies : List Reply} {output : Bytes} {s : State}
    (spoken : Spoken lib replies output s) : s.history.sent <+: s.history.written :=
  AsyncReopen.phasePrefix spoken.flowing.1

theorem linesReplies {lib : Library} {replies : List Reply} {output : Bytes} {s : State}
    (spoken : Spoken lib replies output s) :
    lines s = (replies.take (lines s).length).map Reply.line ∧ (lines s).length ≤ replies.length ∧
    ∃ tail, s.readQueue ++ tail =
      terminated newline ((replies.drop (lines s).length).map Reply.line) := by
  have plain : ∀ item ∈ replies.map Reply.line, newline ∉ item := by
    intro item inside
    obtain ⟨r,member,rfl⟩ := List.mem_map.mp inside
    exact wholeLine (spoken.formed r member)
  have whole := spoken.stream
  unfold delivered at whole
  rw [List.append_assoc] at whole
  obtain ⟨taken,inside,left⟩ := cutsTerminated spoken.framed.cuts plain whole
  rw [List.length_map] at inside
  rw [← List.map_take] at taken
  rw [← List.map_drop] at left
  exact ⟨taken,inside,_,left⟩

/- A call that is given a line is given the next reply, and the device has begun to say
another one by then. -/
theorem heardReply {lib : Library} {replies : List Reply} {output line : Bytes} {s t : State}
    (spoken : Spoken lib replies output s)
    (returned : AsyncImpl.readStringUntil s [newline] = .ok (some line,t)) :
    ∃ r, replies[(lines s).length]? = some r ∧ line = r.line ∧ lines t = lines s ++ [line] ∧
      (lines s).length + 1 < replies.length := by
  have clear : s.error = none := by
    cases stored : s.error with
    | none => rfl
    | some ec =>
      rw [readRefuses stored] at returned
      contradiction
  have moved : AsyncImpl.step s (.readStringUntil [newline]) = some t := by
    simp only [AsyncImpl.step,returned]
  have polls : Polling [newline] s (.readStringUntil [newline]) := ⟨id,fun other same => by cases same; rfl⟩
  have later := spokenKept spoken polls (fun range other => by contradiction) List.nil_prefix moved
  obtain ⟨same,inside,tail,left⟩ := linesReplies later
  rcases readCases [newline] clear with ⟨_,nothing⟩ | ⟨front,back,_,more,_,taken⟩
  · rw [nothing] at returned
    cases returned
  · rw [taken] at returned
    cases returned
    have grown : lines (taking s [newline] line back) = lines s ++ [line] := by simp [lines,taking]
    rw [grown] at same inside left
    rw [List.length_append,List.length_singleton] at same inside left
    have early : (lines s).length + 1 < replies.length := by
      refine Nat.lt_of_le_of_ne inside fun all => ?_
      rw [all,List.drop_length] at left
      exact more (List.append_eq_nil_iff.mp left).1
    have last : (lines s ++ [line])[(lines s).length]? = some line := by simp
    rw [same,List.getElem?_map,List.getElem?_take_of_lt (Nat.lt_succ_self _)] at last
    obtain ⟨r,here,shown⟩ := Option.map_eq_some_iff.mp last
    exact ⟨r,here,shown.symm,grown,early⟩

theorem resumedCaller {p q : Pool} {i : Nat} {c : Caller} {now : BufferedIo.Time}
    (here : p.callers[i]? = some c) (resumed : BufferedIo.step p (.resume i now) = some q) :
    ∃ d, q.callers[i]? = some d ∧ d.delim = c.delim ∧
      ((q.impl = p.impl ∧ ∀ line, d.progress ≠ .returned line) ∨
        ∃ result, AsyncImpl.readStringUntil p.impl c.delim = .ok (result,q.impl) ∧
          ∀ line, d.progress = .returned line ↔ result = some line) := by
  obtain ⟨inside,_⟩ := List.getElem?_eq_some_iff.mp here
  cases resumedAt here resumed with
  | looks checking =>
    refine ⟨_,List.getElem?_set_self inside,rfl,.inl ⟨rfl,fun line same => ?_⟩⟩
    dsimp only at same
    split at same <;> contradiction
  | returns trying returned =>
    exact ⟨_,List.getElem?_set_self inside,rfl,.inr ⟨_,returned,fun line => by simp⟩⟩
  | misses trying returned =>
    exact ⟨_,List.getElem?_set_self inside,rfl,.inr ⟨_,returned,fun line => by simp⟩⟩
  | fails trying thrown =>
    exact ⟨_,List.getElem?_set_self inside,rfl,.inl ⟨rfl,fun line same => by contradiction⟩⟩
  | wakes sleeping =>
    exact ⟨_,List.getElem?_set_self inside,rfl,.inl ⟨rfl,fun line same => by contradiction⟩⟩

theorem resumedSpoken {lib : Library} {replies : List Reply} {output : Bytes} {p q : Pool} {i : Nat}
    {c : Caller} {now : BufferedIo.Time} (spoken : Spoken lib replies output p.impl)
    (here : p.callers[i]? = some c) (whole : c.delim = [newline])
    (resumed : BufferedIo.step p (.resume i now) = some q) :
    Spoken lib replies output q.impl ∧ q.impl.history.written = p.impl.history.written := by
  obtain ⟨d,_,_,⟨same,_⟩ | ⟨result,returned,_⟩⟩ := resumedCaller here resumed
  · rw [same]
    exact ⟨spoken,rfl⟩
  · rw [whole] at returned
    have moved : AsyncImpl.step p.impl (.readStringUntil [newline]) = some q.impl := by
      simp only [AsyncImpl.step,returned]
    have polls : Polling [newline] p.impl (.readStringUntil [newline]) :=
      ⟨id,fun other same => by cases same; rfl⟩
    refine ⟨spokenKept spoken polls (fun range other => by contradiction) List.nil_prefix moved,?_⟩
    exact writtenKept id (fun range other => by contradiction) moved

/-! The calls. A line a call was given is a reply to one of the requests written until then,
but not to the last of them. -/
def Earlier (replies : List Reply) (t : Talk) (line : Bytes) : Prop :=
  ∃ k r, replies[k]? = some r ∧ line = r.line ∧ k + 1 < t.asked + t.wrote

structure Talking (s : Link) (t : Talk) : Prop where
  polite : Polite t.program
  counted : s.pool.impl.history.written.length = t.asked + t.wrote
  earlier : ∀ line ∈ t.heard, Earlier s.replies t line
  waits : ∀ i, t.waiting = some i → ∃ c, s.pool.callers[i]? = some c ∧ c.delim = [newline]

structure Linked (lib : Library) (s : Link) : Prop where
  spoken : Spoken lib s.replies s.output s.pool.impl
  active : ∀ t, s.active = some t → Talking s t
  calls : ∀ t ∈ s.calls, ∀ line ∈ t.heard, Earlier s.replies t line

theorem earlierMore {replies : List Reply} {t u : Talk} {line : Bytes} (earlier : Earlier replies t line)
    (more : List Reply) (later : t.asked + t.wrote ≤ u.asked + u.wrote) :
    Earlier (replies ++ more) u line := by
  obtain ⟨k,r,here,same,low⟩ := earlier
  obtain ⟨inside,_⟩ := List.getElem?_eq_some_iff.mp here
  exact ⟨k,r,by rw [List.getElem?_append_left inside,here],same,Nat.lt_of_lt_of_le low later⟩

theorem earlierWrote {replies : List Reply} {t u : Talk} {line : Bytes} (earlier : Earlier replies t line)
    (later : t.asked + t.wrote ≤ u.asked + u.wrote) : Earlier replies u line := by
  have more := earlierMore earlier [] later
  rwa [List.append_nil] at more

theorem startsLinked {lib : Library} {s : Link} (linked : Linked lib s) (kind : Kind) :
    Linked lib {s with
      active := some ⟨kind,call lib kind,none,[],s.pool.impl.history.written.length,0⟩} := by
  refine ⟨linked.spoken,?_,linked.calls⟩
  intro t same
  cases same
  exact ⟨politeCall lib kind,rfl,fun line inside => absurd inside List.not_mem_nil,
    fun i none => by contradiction⟩

theorem writesLinked {lib : Library} {s : Link} (linked : Linked lib s) {t : Talk}
    (active : s.active = some t) {data : Bytes} {next : Io SerialReply.Record}
    (program : t.program = .write data next) {impl : State}
    (written : AsyncImpl.write s.pool.impl data = .ok impl) :
    Linked lib {s with
      pool := {s.pool with impl := impl}
      active := some {t with program := next,wrote := t.wrote + data.length}} := by
  have talking := linked.active t active
  have polite := talking.polite
  rw [program] at polite
  obtain ⟨⟨kind,letter⟩,later⟩ := polite
  obtain ⟨moved,more⟩ := writeOk written
  have filled : data ≠ [] := by
    rw [letter]
    exact List.cons_ne_nil _ _
  have polls : Polling [newline] s.pool.impl (.write data) := ⟨id,fun other same => by contradiction⟩
  refine ⟨?_,?_,linked.calls⟩
  · exact spokenKept linked.spoken polls (fun range same => by cases same; exact filled)
      List.nil_prefix moved
  · intro u same
    cases same
    refine ⟨later,?_,?_,talking.waits⟩
    · have counted := talking.counted
      dsimp only
      rw [more,List.length_append]
      omega
    · intro line inside
      exact earlierWrote (talking.earlier line inside) (by dsimp only; omega)

theorem refusedLinked {lib : Library} {s : Link} (linked : Linked lib s) {t : Talk}
    (active : s.active = some t) :
    Linked lib {s with active := some {t with program := .raise .systemError}} := by
  have talking := linked.active t active
  refine ⟨linked.spoken,?_,linked.calls⟩
  intro u same
  cases same
  exact ⟨trivial,talking.counted,talking.earlier,talking.waits⟩

theorem waitsLinked {lib : Library} {s : Link} (linked : Linked lib s) {t : Talk}
    (active : s.active = some t) {seconds : Nat} {delim : Bytes} {line : Bytes → Io SerialReply.Record}
    {timedOut : Io SerialReply.Record} (program : t.program = .readStringUntil seconds delim line timedOut)
    (endTime : BufferedIo.Time) :
    Linked lib {s with
      pool := {s.pool with callers := s.pool.callers ++ [⟨delim,endTime,.checking⟩]}
      active := some {t with waiting := some s.pool.callers.length}} := by
  have talking := linked.active t active
  have polite := talking.polite
  rw [program] at polite
  refine ⟨linked.spoken,?_,linked.calls⟩
  intro u same
  cases same
  refine ⟨talking.polite,talking.counted,talking.earlier,?_⟩
  intro i same
  cases same
  exact ⟨⟨delim,endTime,.checking⟩,by simp,polite.1⟩

theorem looksLinked {lib : Library} {s : Link} (linked : Linked lib s) {t : Talk}
    (active : s.active = some t) {i : Nat} (at_i : t.waiting = some i) {now : BufferedIo.Time}
    {pool : Pool} (resumed : BufferedIo.step s.pool (.resume i now) = some pool) :
    Linked lib {s with pool := pool} := by
  have talking := linked.active t active
  obtain ⟨c,here,whole⟩ := talking.waits i at_i
  obtain ⟨spoken,written⟩ := resumedSpoken linked.spoken here whole resumed
  obtain ⟨d,there,delim,_⟩ := resumedCaller here resumed
  refine ⟨spoken,?_,linked.calls⟩
  intro u same
  cases active.symm.trans same
  refine ⟨talking.polite,(congrArg List.length written).trans talking.counted,talking.earlier,?_⟩
  intro j same
  cases at_i.symm.trans same
  exact ⟨d,there,delim.trans whole⟩

theorem returnsLinked {lib : Library} {s : Link} (linked : Linked lib s) {t : Talk}
    (active : s.active = some t) {i : Nat} (at_i : t.waiting = some i) {now : BufferedIo.Time}
    {pool : Pool} (resumed : BufferedIo.step s.pool (.resume i now) = some pool) {c : Caller}
    (here : pool.callers[i]? = some c) {e : PortEvent} (ended : outcome c.progress = some e)
    {next : Io SerialReply.Record} (proceeds : t.program.step e = some next) :
    Linked lib {s with
      pool := pool
      active := some {t with program := next,waiting := none,heard := t.heard ++ linesOf [e]}} := by
  have talking := linked.active t active
  obtain ⟨before,there,whole⟩ := talking.waits i at_i
  obtain ⟨spoken,written⟩ := resumedSpoken linked.spoken there whole resumed
  refine ⟨spoken,?_,linked.calls⟩
  intro u same
  cases same
  refine ⟨politeStep talking.polite proceeds,(congrArg List.length written).trans talking.counted,?_,
    fun j none => by contradiction⟩
  intro line inside
  rcases List.mem_append.mp inside with before | last
  · exact talking.earlier line before
  · -- Only a returned line says anything, and it was just taken from the port.
    obtain ⟨d,after,_,taken⟩ := resumedCaller there resumed
    cases here.symm.trans after
    have returned : c.progress = .returned line := by
      cases progress : c.progress with
      | returned other =>
        rw [progress] at ended
        cases ended
        rw [List.mem_singleton.mp last]
      | timedOut =>
        rw [progress] at ended
        cases ended
        contradiction
      | failed ec =>
        rw [progress] at ended
        cases ended
        contradiction
      | _ =>
        rw [progress] at ended
        contradiction
    rcases taken with ⟨_,other⟩ | ⟨result,read,line_of⟩
    · exact absurd returned (other line)
    · rw [(line_of line).mp returned,whole] at read
      obtain ⟨r,reply,same,_,early⟩ := heardReply linked.spoken read
      have sent := (sentWritten linked.spoken).length_le
      have answered := linked.spoken.answered
      have counted := talking.counted
      exact ⟨_,r,reply,same,by dsimp only; omega⟩

theorem finishesLinked {lib : Library} {s : Link} (linked : Linked lib s) {t : Talk}
    (active : s.active = some t) : Linked lib {s with active := none,calls := s.calls ++ [t]} := by
  refine ⟨linked.spoken,fun u none => by contradiction,?_⟩
  intro u inside
  rcases List.mem_append.mp inside with before | last
  · exact linked.calls u before
  · rw [List.mem_singleton.mp last]
    exact (linked.active t active).earlier

theorem movesLinked {lib : Library} {s : Link} (linked : Linked lib s) {e : AsyncImpl.Event}
    (unasked : Unasked e = true) (said : chunkOf e <+: s.output) {impl : State}
    (moved : AsyncImpl.step s.pool.impl e = some impl) :
    Linked lib {s with
      pool := {s.pool with
        impl := impl
        answers := s.pool.answers ++ BufferedIo.answeredTo s.pool.impl e}
      output := s.output.drop (chunkOf e).length} := by
  have stays : ¬ Opens e := by
    cases e <;> first | exact id | cases unasked
  have writes : ∀ range, e ≠ .write range := by
    rintro range rfl
    cases unasked
  have reads : ∀ delim, e ≠ .readStringUntil delim := by
    rintro delim rfl
    cases unasked
  refine ⟨?_,?_,linked.calls⟩
  · exact spokenKept linked.spoken ⟨stays,fun other same => absurd same (reads other)⟩
      (fun range same => absurd same (writes range)) said moved
  · intro t active
    have talking := linked.active t active
    refine ⟨talking.polite,?_,talking.earlier,talking.waits⟩
    exact (congrArg List.length (writtenKept stays writes moved)).trans talking.counted

theorem answersLinked {lib : Library} {s : Link} (linked : Linked lib s) {r : Reply} {c : UInt8}
    (sent : s.pool.impl.history.sent[s.replies.length]? = some c) (formed : WellFormed lib r) :
    Linked lib {s with replies := s.replies ++ [r],output := s.output ++ r.line ++ [newline]} := by
  obtain ⟨inside,_⟩ := List.getElem?_eq_some_iff.mp sent
  obtain ⟨framed,flowing,_,all,stream⟩ := linked.spoken
  refine ⟨⟨framed,flowing,?_,?_,?_⟩,?_,?_⟩
  · rw [List.length_append]
    exact inside
  · intro q member
    rcases List.mem_append.mp member with before | last
    · exact all q before
    · rw [List.mem_singleton.mp last]
      exact formed
  · rw [List.append_assoc,← List.append_assoc,stream]
    simp [terminated]
  · intro t active
    have talking := linked.active t active
    exact ⟨talking.polite,talking.counted,
      fun line inside => earlierMore (talking.earlier line inside) [r] (Nat.le_refl _),talking.waits⟩
  · exact fun t inside line heard => earlierMore (linked.calls t inside line heard) [r] (Nat.le_refl _)

theorem linkedKept {lib : Library} {s s' : Link} {e : SerialLink.Event} (linked : Linked lib s)
    (steps : SerialLink.step lib s e = some s') : Linked lib s' := by
  cases moved steps with
  | starts kind idle => exact startsLinked linked kind
  | writes active program written => exact writesLinked linked active program written
  | refused active program => exact refusedLinked linked active
  | waits active now program => exact waitsLinked linked active program _
  | looks active now at_i resumed here on => exact looksLinked linked active at_i resumed
  | returns active now at_i resumed here ended proceeds =>
    exact returnsLinked linked active at_i resumed here ended proceeds
  | finishes active finished => exact finishesLinked linked active
  | moves unasked said moved => exact movesLinked linked unasked said moved
  | answers sent asked formed => exact answersLinked linked sent formed

theorem connectedLinked (lib : Library) : Linked lib connected := by
  have framed : Framed [newline] opened := ⟨openedReading,.done []⟩
  have flowing : Flowing True opened := ⟨.idle none [],fun _ => rfl⟩
  exact ⟨⟨framed,flowing,Nat.le_refl _,fun r none => by contradiction,rfl⟩,fun t none => by contradiction,
    fun t none => by contradiction⟩

theorem reachableLinked {lib : Library} {s : Link}
    (reachable : Reachable (SerialLink.step lib) Anything connected s) : Linked lib s :=
  reachableInvariant (fun _ _ _ linked _ steps => linkedKept linked steps) (connectedLinked lib) reachable

def awaiting (lib : Library) (kind : Kind) : Io SerialReply.Record :=
  .readStringUntil 1 [newline]
    (fun data => SerialReply.answered lib kind (Serial.stripCarriageReturn data)) (.raise .timeout)

inductive AsksOnce (lib : Library) (t : Talk) : Prop where
  | asking (program : t.program = call lib t.kind) (silent : t.heard = []) (wrote : t.wrote = 0)
  | awaiting (program : t.program = awaiting lib t.kind) (silent : t.heard = []) (wrote : t.wrote = 1)
  | answered (line : Bytes) (heard : t.heard = [line]) (wrote : t.wrote = 1)
      (program : t.program = SerialReply.answered lib t.kind (Serial.stripCarriageReturn line))
  | raised (e : Serial.Thrown) (program : t.program = .raise e)

theorem asksOnceWrites {lib : Library} {t : Talk} (other : t.kind ≠ .version) (once : AsksOnce lib t)
    {data : Bytes} {next : Io SerialReply.Record} (program : t.program = .write data next) :
    AsksOnce lib {t with program := next,wrote := t.wrote + data.length} := by
  cases once with
  | asking asking silent wrote =>
    rw [asking,callRequest lib other] at program
    cases program
    exact .awaiting rfl silent (by rw [wrote]; rfl)
  | awaiting waiting silent wrote =>
    rw [waiting] at program
    cases program
  | answered line heard wrote answered =>
    have finished := answeredFinished lib t.kind (Serial.stripCarriageReturn line)
    rw [← answered,program] at finished
    exact finished.elim
  | raised e raised =>
    rw [raised] at program
    cases program

theorem asksOnceReturns {lib : Library} {t : Talk} (other : t.kind ≠ .version) (once : AsksOnce lib t)
    {e : PortEvent} (waited : e ≠ .wrote) {next : Io SerialReply.Record}
    (proceeds : t.program.step e = some next) :
    AsksOnce lib {t with program := next,waiting := none,heard := t.heard ++ linesOf [e]} := by
  by_cases fails : e = .fails
  · rw [fails] at proceeds
    exact .raised .systemError (SerialProtocol.failRaises proceeds)
  cases once with
  | asking asking silent wrote =>
    rw [asking,callRequest lib other] at proceeds
    cases e <;> contradiction
  | awaiting waiting silent wrote =>
    rw [waiting] at proceeds
    cases e with
    | wrote => contradiction
    | fails => contradiction
    | line data =>
      cases proceeds
      exact .answered data (by rw [silent]; rfl) wrote rfl
    | timedOut =>
      cases proceeds
      exact .raised .timeout rfl
  | answered line heard wrote answered =>
    rw [answered] at proceeds
    exact (SerialProtocol.answeredStays proceeds).elim
  | raised ex raised =>
    rw [raised] at proceeds
    cases proceeds

structure OnceEach (lib : Library) (s : Link) : Prop where
  active : ∀ t, s.active = some t → t.kind ≠ .version → AsksOnce lib t
  calls : ∀ t ∈ s.calls, t.kind ≠ .version → AsksOnce lib t

theorem onceEachKept {lib : Library} {s s' : Link} {e : SerialLink.Event} (each : OnceEach lib s)
    (steps : SerialLink.step lib s e = some s') : OnceEach lib s' := by
  cases moved steps with
  | starts kind idle =>
    refine ⟨?_,each.calls⟩
    intro t same other
    cases same
    exact .asking rfl rfl rfl
  | @writes t active data next program impl written =>
    refine ⟨?_,each.calls⟩
    intro u same other
    cases same
    exact asksOnceWrites (t := t) other (each.active t active other) program
  | refused active program =>
    refine ⟨?_,each.calls⟩
    intro t same other
    cases same
    exact .raised .systemError rfl
  | waits active now program =>
    refine ⟨?_,each.calls⟩
    intro t same other
    cases same
    cases each.active _ active other with
    | asking program silent wrote => exact .asking program silent wrote
    | awaiting program silent wrote => exact .awaiting program silent wrote
    | answered line heard wrote program => exact .answered line heard wrote program
    | raised e program => exact .raised e program
  | looks active now at_i resumed here on => exact ⟨each.active,each.calls⟩
  | @returns t active now i at_i pool resumed c here e ended next proceeds =>
    refine ⟨?_,each.calls⟩
    intro u same other
    cases same
    have waited : e ≠ .wrote := by
      rintro rfl
      cases progress : c.progress <;> rw [progress] at ended <;> cases ended
    exact asksOnceReturns (t := t) other (each.active t active other) waited proceeds
  | @finishes t active finished =>
    refine ⟨fun u none => by contradiction,?_⟩
    intro u inside other
    rcases List.mem_append.mp inside with before | last
    · exact each.calls u before other
    · rw [List.mem_singleton.mp last] at other ⊢
      exact each.active t active other
  | moves unasked said moved => exact ⟨each.active,each.calls⟩
  | answers sent asked formed => exact ⟨each.active,each.calls⟩

theorem reachableOnce {lib : Library} {s : Link}
    (reachable : Reachable (SerialLink.step lib) Anything connected s) : OnceEach lib s :=
  reachableInvariant (fun _ _ _ each _ steps => onceEachKept each steps)
    ⟨fun t none => by contradiction,fun t none => by contradiction⟩ reachable

theorem earlierReply (lib : Library) {s : Link}
    (reachable : Reachable (SerialLink.step lib) Anything connected s) {t : Talk} (done : t ∈ s.calls) :
    (∀ line ∈ t.heard, Earlier s.replies t line) ∧
    (t.kind ≠ .version → ∀ record, t.program = .ret record → ∃ k r root, k < t.asked ∧
      s.replies[k]? = some r ∧ t.heard = [r.line] ∧ lib.parse r.body = some root ∧
      (r.kind = t.kind → decode lib t.kind root = .ok record) ∧
      (r.kind ≠ t.kind → record = defaultRecord t.kind)) := by
  have linked := reachableLinked reachable
  have earlier := linked.calls t done
  refine ⟨earlier,?_⟩
  intro other record result
  cases (reachableOnce reachable).calls t done other with
  | asking asking _ _ =>
    rw [asking,callRequest lib other] at result
    cases result
  | awaiting waiting _ _ =>
    rw [waiting] at result
    cases result
  | raised e raised =>
    rw [raised] at result
    cases result
  | answered line heard wrote answered =>
    obtain ⟨k,r,here,same,low⟩ := earlier line (by rw [heard]; exact List.mem_singleton_self line)
    have formed := linked.spoken.formed r (List.mem_of_getElem? here)
    rw [wrote] at low
    rw [answered,same] at result
    have own : ∃ root, lib.parse r.body = some root ∧
        (r.kind = t.kind → decode lib t.kind root = .ok record) := by
      obtain ⟨root,parsed,answer⟩ := SerialProtocol.answeredOwn formed
      refine ⟨root,parsed,fun kind => ?_⟩
      rw [← kind,answer] at result
      rw [← kind]
      exact SerialProtocol.decodedRet result
    obtain ⟨root,parsed,decodes⟩ := own
    refine ⟨k,r,root,by omega,here,by rw [heard,same],parsed,decodes,fun kind => ?_⟩
    rw [SerialProtocol.answeredOther formed kind] at result
    exact (Io.ret.inj result).symm

/- Two requests for the temperatures: the first one times out, the second is answered as soon
as the port has seen the first byte of its own reply, and with the first one's. -/
def requesting (allocation : Nat) : List SerialLink.Event :=
  [.start .temperatures,.write,.port (.run .startWrite),
    .port (.writeCompletes ⟨some ⟨allocation,[116]⟩,1⟩),.port (.run (.finishWrite none [116])),
    .answer SerialProtocol.temperaturesReply]

def oneAndMore : Chunk := ⟨[84,58,123,125,13,10,84],by decide⟩

def oneBehind : List SerialLink.Event :=
  .port (.run .startRead)::(requesting 0 ++ [.wait 0,.resume 2000000,.finish] ++ requesting 1 ++
    [.port (.readCompletes oneAndMore),.port (.run (.finishRead none oneAndMore.bytes)),.wait 0,
      .resume 1,.resume 2,.finish])

theorem earlierReplyBehind : ∃ s t record, Reachable (SerialLink.step small) Anything connected s ∧
    t ∈ s.calls ∧ t.kind ≠ .version ∧ t.program = .ret record ∧ t.asked = 1 ∧
    (∀ line ∈ t.heard, Earlier s.replies t line) ∧
    (t.kind ≠ .version → ∀ record, t.program = .ret record → ∃ k r root, k < t.asked ∧
      s.replies[k]? = some r ∧ t.heard = [r.line] ∧ small.parse r.body = some root ∧
      (r.kind = t.kind → decode small t.kind root = .ok record) ∧
      (r.kind ≠ t.kind → record = defaultRecord t.kind)) := by
  have run : ∃ s t, oneBehind.foldlM (SerialLink.step small) connected = some s ∧
      s.calls[1]? = some t ∧ t.kind = .temperatures ∧ t.program = .ret (.temperatures {}) ∧
      t.asked = 1 := ⟨_,_,rfl,rfl,rfl,rfl,rfl⟩
  obtain ⟨s,t,run,here,kind,result,asked⟩ := run
  have reachable : Reachable (SerialLink.step small) Anything connected s := ⟨_,foldRun run⟩
  have done := List.mem_of_getElem? here
  exact ⟨s,t,_,reachable,done,by rw [kind]; decide,result,asked,earlierReply small reachable done⟩

end Chambermaid.LinkReplies
