import Chambermaid.BufferedIo

/-! When a call on the buffered port times out. The clock is read between the polls, so
the queue may hold a line by the time the last reading ends the loop; but only one that
was not there when the call last looked. -/
namespace Chambermaid.BufferedTimeout
open Runs Occurrence AsyncRead AsyncSession BufferedIo
open AsyncImpl (Bytes State Chunk)

def ended : Progress → Bool
  | .returned _ => true
  | .timedOut => true
  | .failed _ => true
  | _ => false

def Kept (c d : Caller) : Prop :=
  d.delim = c.delim ∧ d.endTime = c.endTime ∧ (ended c.progress = true → d = c)

theorem keptSelf (c : Caller) : Kept c c := ⟨rfl,rfl,fun _ => rfl⟩

theorem keptThen {c d e : Caller} (first : Kept c d) (second : Kept d e) : Kept c e := by
  obtain ⟨delim,endTime,ends⟩ := first
  obtain ⟨delim',endTime',ends'⟩ := second
  refine ⟨delim'.trans delim,endTime'.trans endTime,fun ended => ?_⟩
  cases ends ended
  exact ends' ended

theorem resumeProgress {p q : Pool} {i : Nat} {c : Caller} {now : Time}
    (moved : Resumed p i c now q) : ended c.progress = false ∧
      ∃ progress, q.callers = p.callers.set i {c with progress := progress} := by
  cases moved with
  | looks checking => exact ⟨by rw [checking]; rfl,_,rfl⟩
  | returns trying returned => exact ⟨by rw [trying]; rfl,_,rfl⟩
  | misses trying returned => exact ⟨by rw [trying]; rfl,_,rfl⟩
  | fails trying thrown => exact ⟨by rw [trying]; rfl,_,rfl⟩
  | wakes sleeping => exact ⟨by rw [sleeping]; rfl,_,rfl⟩

theorem stepOther {p q : Pool} {e : Event} {i : Nat} (other : ∀ now, e ≠ .resume i now)
    (moved : step p e = some q) {c : Caller} (here : p.callers[i]? = some c) :
    q.callers[i]? = some c := by
  have inside := (List.getElem?_eq_some_iff.mp here).1
  cases e with
  | inner e =>
    simp only [step,Option.map_eq_some_iff] at moved
    obtain ⟨t,_,same⟩ := moved
    cases same
    exact here
  | readStringUntil timeout delim now =>
    cases moved
    exact (List.getElem?_append_left inside).trans here
  | resume j now =>
    simp only [step,Option.bind_eq_some_iff] at moved
    obtain ⟨d,_,moved⟩ := moved
    obtain ⟨_,progress,callers⟩ := resumeProgress (resumed moved)
    have apart : j ≠ i := fun same => other now (same ▸ rfl)
    rw [callers]
    exact (List.getElem?_set_ne apart).trans here

theorem stepOwn {p q : Pool} {i : Nat} {now : Time} (moved : step p (.resume i now) = some q)
    {c : Caller} (here : p.callers[i]? = some c) : ended c.progress = false ∧
      ∃ progress, q.callers[i]? = some {c with progress := progress} := by
  have inside := (List.getElem?_eq_some_iff.mp here).1
  obtain ⟨going,progress,callers⟩ := resumeProgress (resumedAt here moved)
  refine ⟨going,progress,?_⟩
  rw [callers]
  exact List.getElem?_set_self inside

theorem stepKept {p q : Pool} {e : Event} (moved : step p e = some q) {i : Nat} {c : Caller}
    (here : p.callers[i]? = some c) : ∃ d, q.callers[i]? = some d ∧ Kept c d := by
  by_cases own : ∃ now, e = .resume i now
  · obtain ⟨now,rfl⟩ := own
    obtain ⟨going,progress,there⟩ := stepOwn moved here
    refine ⟨_,there,rfl,rfl,fun ended => ?_⟩
    rw [going] at ended
    contradiction
  · exact ⟨c,stepOther (not_exists.mp own) moved here,keptSelf c⟩

theorem runKept {p q : Pool} {events : List Event} (run : Run step InSession p events q) {i : Nat}
    {c : Caller} (here : p.callers[i]? = some c) : ∃ d, q.callers[i]? = some d ∧ Kept c d := by
  induction run generalizing c with
  | done p => exact ⟨c,here,keptSelf c⟩
  | next permitted moved rest ih =>
    obtain ⟨d,there,first⟩ := stepKept moved here
    obtain ⟨e,last,second⟩ := ih there
    exact ⟨e,last,keptThen first second⟩

def Grows (s t : State) : Prop :=
  s.history.received <+: t.history.received ∧ s.history.taken <+: t.history.taken

theorem readsGrow {failing : Prop} {r v : ReadSide} (moves : Reads failing r v) :
    r.received <+: v.received ∧ r.taken <+: v.taken := by
  cases moves with
  | takes front delim back split => exact ⟨List.prefix_rfl,List.prefix_append _ _⟩
  | appends arrived posted => exact ⟨List.prefix_append _ _,List.prefix_rfl⟩
  | _ => exact ⟨List.prefix_rfl,List.prefix_rfl⟩

theorem stepGrows {p q : Pool} {e : Event} (reading : Reading p.impl) (allowed : InSession p e)
    (moved : step p e = some q) : Grows p.impl q.impl := by
  rcases stepInner allowed moved with ⟨impl,_⟩ | ⟨inner,stays,inside,_⟩
  · rw [impl]
    exact ⟨List.prefix_rfl,List.prefix_rfl⟩
  · have moves : Reads True (readSide p.impl) (readSide q.impl) :=
      stepReads stays (fun _ _ _ => trivial) (fun _ => reading.2) inside
    exact readsGrow moves

theorem runGrows {p q : Pool} {events : List Event} (answering : Answering p)
    (run : Run step InSession p events q) : Grows p.impl q.impl := by
  induction run with
  | done p => exact ⟨List.prefix_rfl,List.prefix_rfl⟩
  | next permitted moved rest ih =>
    obtain ⟨received,taken⟩ := stepGrows answering.1 permitted moved
    obtain ⟨received',taken'⟩ := ih (stepAnswering answering permitted moved)
    exact ⟨received.trans received',taken.trans taken'⟩

theorem pollMisses {r s : Pool} {i : Nat} {d : Caller} {now : Time} (here : r.callers[i]? = some d)
    (trying : d.progress = .trying) (moved : step r (.resume i now) = some s) :
    (Missing d.delim r.impl.readQueue ∧ s.impl = r.impl) ∨
      ∃ e, s.callers[i]? = some e ∧ ended e.progress = true := by
  have inside := (List.getElem?_eq_some_iff.mp here).1
  cases resumedAt here moved with
  | looks checking => exact absurd (trying.symm.trans checking) Progress.noConfusion
  | returns _ returned => exact .inr ⟨_,List.getElem?_set_self inside,rfl⟩
  | misses _ returned =>
    refine .inl ?_
    cases stored : r.impl.error with
    | some ec => cases (readRefuses stored).symm.trans returned
    | none =>
      rcases readCases d.delim stored with ⟨missing,nothing⟩ | ⟨front,back,_,_,_,taken⟩
      · cases nothing.symm.trans returned
        exact ⟨missing,rfl⟩
      · cases taken.symm.trans returned
  | fails _ thrown => exact .inr ⟨_,List.getElem?_set_self inside,rfl⟩
  | wakes sleeping => exact absurd (trying.symm.trans sleeping) Progress.noConfusion

theorem timesOut {p q : Pool} {i : Nat} {c d : Caller} {now : Time} (here : p.callers[i]? = some c)
    (moved : step p (.resume i now) = some q) (there : q.callers[i]? = some d)
    (thrown : d.progress = .timedOut) :
    c.progress = .checking ∧ c.endTime ≤ now ∧ q.impl = p.impl := by
  have inside := (List.getElem?_eq_some_iff.mp here).1
  have own : ∀ {progress callers}, callers = p.callers.set i {c with progress := progress} →
      callers[i]? = some d → progress = .timedOut := by
    rintro progress _ rfl found
    cases Option.some.inj ((List.getElem?_set_self inside).symm.trans found)
    exact thrown
  cases resumedAt here moved with
  | looks checking =>
    refine ⟨checking,?_,rfl⟩
    have shown := own rfl there
    by_contra early
    rw [Int.not_le] at early
    rw [if_pos early] at shown
    contradiction
  | returns trying returned => exact absurd (own rfl there) Progress.noConfusion
  | misses trying returned => exact absurd (own rfl there) Progress.noConfusion
  | fails trying thrown => exact absurd (own rfl there) Progress.noConfusion
  | wakes sleeping => exact absurd (own rfl there) Progress.noConfusion

def endsAt (s : State) (delim : Bytes) (j : Nat) : Nat :=
  s.history.received.length - s.readQueue.length + j + delim.length

theorem joinedPrefix {taken taken' : List (Bytes × Bytes)} (longer : taken <+: taken') :
    joined taken <+: joined taken' := by
  obtain ⟨more,rfl⟩ := longer
  exact ⟨joined more,List.flatMap_append.symm⟩

theorem occursLater {s t : State} {delim : Bytes} (before : Chain (readSide s))
    (after : Chain (readSide t)) (grows : Grows s t) (missing : Missing delim s.readQueue) {j : Nat}
    (occurs : OccursAt delim t.readQueue j) : s.history.received.length ≤ endsAt t delim j := by
  by_contra early
  rw [Nat.not_le] at early
  obtain ⟨⟨rest,received⟩,more⟩ := grows
  obtain ⟨between,taken⟩ := joinedPrefix more
  have wholeBefore : joined s.history.taken ++ s.readQueue = s.history.received := before.whole
  have whole : joined t.history.taken ++ t.readQueue = t.history.received := after.whole
  have sizeBefore := congrArg List.length wholeBefore
  have size := congrArg List.length whole
  have sizeTaken := congrArg List.length taken
  rw [List.length_append] at sizeBefore size sizeTaken
  unfold endsAt at early
  -- The place of the occurrence in all that was received, then in the queue of before.
  have inAll : OccursAt delim t.history.received ((joined t.history.taken).length + j) := by
    rw [← whole]
    exact (occursBehind delim _ _ j).mpr occurs
  rw [← received] at inAll
  have inBefore := (occursWithin (by omega) rest).mp inAll
  rw [← wholeBefore,← sizeTaken,Nat.add_assoc] at inBefore
  exact missing _ (by omega) ((occursBehind delim _ _ _).mp inBefore)

def Polls (r s : Pool) (i : Nat) : Prop := ∃ d now,
  r.callers[i]? = some d ∧ d.progress = .trying ∧ step r (.resume i now) = some s

def PolledBetween (r p : Pool) (i : Nat) : Prop := ∃ s t before after,
  Run step InSession r before s ∧ Polls s t i ∧ Run step InSession t after p

theorem looksAfter {r s : Pool} {i : Nat} {d : Caller} {now : Time} (here : r.callers[i]? = some d)
    (checking : d.progress = .checking) (moved : step r (.resume i now) = some s) :
    ∃ e, s.callers[i]? = some e ∧ (e.progress = .trying ∨ e.progress = .timedOut) := by
  have inside := (List.getElem?_eq_some_iff.mp here).1
  cases resumedAt here moved with
  | looks _ =>
    refine ⟨_,List.getElem?_set_self inside,?_⟩
    by_cases early : now < d.endTime <;> simp [early]
  | returns trying returned => exact absurd (checking.symm.trans trying) Progress.noConfusion
  | misses trying returned => exact absurd (checking.symm.trans trying) Progress.noConfusion
  | fails trying thrown => exact absurd (checking.symm.trans trying) Progress.noConfusion
  | wakes sleeping => exact absurd (checking.symm.trans sleeping) Progress.noConfusion

theorem polledBetween {r p : Pool} {events : List Event} (run : Run step InSession r events p)
    {i : Nat} {c : Caller} (there : p.callers[i]? = some c) (checking : c.progress = .checking)
    {d : Caller} (here : r.callers[i]? = some d)
    (going : d.progress = .checking ∨ d.progress = .trying) :
    (d.progress = .checking ∧ ∀ now, .resume i now ∉ events) ∨ PolledBetween r p i := by
  induction run generalizing d with
  | done p =>
    cases Option.some.inj (here.symm.trans there)
    exact .inl ⟨checking,fun _ => List.not_mem_nil⟩
  | @next r s p e events permitted moved rest ih =>
    have further : PolledBetween s p i → PolledBetween r p i := by
      rintro ⟨t,u,before,after,first,polls,last⟩
      exact ⟨t,u,e::before,after,.next permitted moved first,polls,last⟩
    by_cases own : ∃ now, e = .resume i now
    · obtain ⟨now,rfl⟩ := own
      rcases going with looks | trying
      · obtain ⟨f,next,trying | thrown⟩ := looksAfter here looks moved
        · rcases ih there next (.inr trying) with ⟨looking,_⟩ | polled
          · rw [trying] at looking
            contradiction
          · exact .inr (further polled)
        · -- A call that has timed out does not come back to its check.
          obtain ⟨g,last,_,_,ends⟩ := runKept rest next
          cases Option.some.inj (there.symm.trans last)
          rw [ends (by rw [thrown]; rfl),thrown] at checking
          contradiction
      · exact .inr ⟨r,s,[],events,.done r,⟨d,now,here,trying,moved⟩,rest⟩
    · have other := not_exists.mp own
      rcases ih there (stepOther other moved here) going with ⟨looking,none⟩ | polled
      · refine .inl ⟨looking,fun now => ?_⟩
        rw [List.mem_cons,not_or]
        exact ⟨fun same => other now same.symm,none now⟩
      · exact .inr (further polled)

/- A time-out comes at a reading that is not before the end. The call has not looked at
the queue at all, or what the queue then holds of the delimiter has come since. -/
theorem timeoutLate {p q : Pool} {i : Nat} {c d : Caller} {now : Time}
    (here : p.callers[i]? = some c) (moved : step p (.resume i now) = some q)
    (there : q.callers[i]? = some d) (thrown : d.progress = .timedOut) :
    c.endTime ≤ now ∧ q.impl = p.impl ∧
    (∀ r events, r.callers[i]? = some c → Run step InSession r events p →
      (∀ now, .resume i now ∉ events) ∨ PolledBetween r p i) ∧
    ∀ r s events, Reachable step InSession fresh r → Polls r s i →
      Run step InSession s events p → ∀ j, OccursAt c.delim q.impl.readQueue j →
        r.impl.history.received.length ≤ endsAt q.impl c.delim j := by
  obtain ⟨checking,late,stays⟩ := timesOut here moved there thrown
  refine ⟨late,stays,?_,?_⟩
  · intro r events start run
    exact (polledBetween run here checking start (.inl checking)).imp And.right id
  intro r s events reachable polls run j occurs
  rw [stays] at occurs ⊢
  obtain ⟨e,then',there',trying,polled⟩ := polls
  have answering := reachableAnswering reachable
  have answeringNext := stepAnswering answering (e := .resume i then') trivial polled
  obtain ⟨f,next,delim,_,_⟩ := stepKept polled there'
  obtain ⟨g,last,delim',_,ends⟩ := runKept run next
  cases Option.some.inj (here.symm.trans last)
  rcases pollMisses there' trying polled with ⟨missing,impl⟩ | ⟨f',next',ended⟩
  · rw [← impl] at missing ⊢
    rw [delim',delim] at occurs ⊢
    have after := runInvariant (fun _ _ _ kept allowed moved => stepAnswering kept allowed moved)
      run answeringNext
    exact occursLater answeringNext.1.1 after.1.1 (runGrows answeringNext run) missing occurs
  · cases Option.some.inj (next.symm.trans next')
    rw [ends ended] at checking
    rw [checking] at ended
    contradiction

def called : List Event := [.inner (.run .startRead),.readStringUntil 1 [10] 0,.resume 0 0]

def slept : List Event :=
  [.inner (.readCompletes arrival),.inner (.run (.finishRead none [97,10,98])),.resume 0 2]

theorem timeoutLateArrival : ∃ r s p q, Run step InSession fresh called r ∧ Polls r s 0 ∧
    Run step InSession s slept p ∧ step p (.resume 0 2) = some q ∧ q.impl.readQueue = [97,10,98] ∧
    ∀ j, OccursAt [10] q.impl.readQueue j →
      r.impl.history.received.length ≤ endsAt q.impl [10] j := by
  have late : ∃ r s p q, Run step InSession fresh called r ∧ Polls r s 0 ∧
      Run step InSession s slept p ∧ p.callers[0]? = some ⟨[10],1,.checking⟩ ∧
      step p (.resume 0 2) = some q ∧ q.callers[0]? = some ⟨[10],1,.timedOut⟩ ∧
      q.impl.readQueue = [97,10,98] :=
    ⟨_,_,_,_,.next id rfl (.next trivial rfl (.next trivial rfl (.done _))),
      ⟨⟨[10],1,.trying⟩,0,rfl,rfl,rfl⟩,.next id rfl (.next id rfl (.next trivial rfl (.done _))),
      rfl,rfl,rfl,rfl⟩
  obtain ⟨r,s,p,q,first,polls,run,here,moved,there,queue⟩ := late
  obtain ⟨_,_,_,later⟩ := timeoutLate here moved there rfl
  exact ⟨r,s,p,q,first,polls,run,moved,queue,later r s slept ⟨_,first⟩ polls run⟩

theorem timeoutFalse : ∃ p q, Run step InSession fresh (called ++ .resume 0 0::slept) p ∧
    step p (.resume 0 2) = some q ∧ q.callers = [⟨[10],1,.timedOut⟩] ∧ [10] <:+: q.impl.readQueue :=
  ⟨_,_,.next id rfl (.next trivial rfl (.next trivial rfl (.next trivial rfl (.next id rfl
    (.next id rfl (.next trivial rfl (.done _))))))),rfl,rfl,[97],[98],rfl⟩

end Chambermaid.BufferedTimeout
