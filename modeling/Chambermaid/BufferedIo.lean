import Chambermaid.AsyncSession

/-! `BufferedIO` over the port: any number of callers try, sleep and look at the
clock until a line is there or their time is over. Clock readings are whatever the
clock says; nothing here needs them to grow. -/
namespace Chambermaid.BufferedIo
open Runs AsyncImpl AsyncRead AsyncStep AsyncSession

abbrev Time := Int

inductive Progress where
  | checking | trying | sleeping
  | returned (line : Bytes)
  | timedOut
  | failed (ec : ErrorCode)
  deriving DecidableEq, Repr

structure Caller where
  delim : Bytes
  endTime : Time
  progress : Progress
  deriving DecidableEq, Repr

/-! The answers are the strings that calls returned, each with its delimiter, in the
order of the calls, whoever made them. -/
structure Pool where
  impl : State
  callers : List Caller
  answers : List (Bytes × Bytes)
  deriving DecidableEq, Repr

inductive Event where
  | inner (e : AsyncImpl.Event)
  | readStringUntil (timeout : Time) (delim : Bytes) (now : Time)
  | resume (caller : Nat) (now : Time)
  deriving DecidableEq, Repr

def answered (s : State) (delim : Bytes) : List (Bytes × Bytes) :=
  match AsyncImpl.readStringUntil s delim with
  | .ok (some line,_) => [(line,delim)]
  | _ => []

def answeredTo (s : State) : AsyncImpl.Event → List (Bytes × Bytes)
  | .readStringUntil delim => answered s delim
  | _ => []

-- The body of the loop up to its next wait.
def resume (p : Pool) (i : Nat) (c : Caller) (now : Time) : Option Pool :=
  match c.progress with
  | .checking =>
    let progress := if now < c.endTime then .trying else .timedOut
    some {p with callers := p.callers.set i {c with progress := progress}}
  | .trying =>
    match AsyncImpl.readStringUntil p.impl c.delim with
    | .ok (some line,t) => some {p with
        impl := t
        callers := p.callers.set i {c with progress := .returned line}
        answers := p.answers ++ [(line,c.delim)]}
    | .ok (none,t) => some {p with
        impl := t
        callers := p.callers.set i {c with progress := .sleeping}}
    | .error ec => some {p with callers := p.callers.set i {c with progress := .failed ec}}
  | .sleeping => some {p with callers := p.callers.set i {c with progress := .checking}}
  | _ => none

def step (p : Pool) : Event → Option Pool
  | .inner e =>
    (AsyncImpl.step p.impl e).map fun t => {p with impl := t,answers := p.answers ++ answeredTo p.impl e}
  | .readStringUntil timeout delim now =>
    some {p with callers := p.callers ++ [⟨delim,now + timeout,.checking⟩]}
  | .resume i now => (p.callers[i]?).bind fun c => resume p i c now

def fresh : Pool := ⟨opened,[],[]⟩

def InSession (_ : Pool) : Event → Prop
  | .inner e => ¬ Opens e
  | _ => True

theorem answeredSome {s t : State} {delim line : Bytes}
    (returned : AsyncImpl.readStringUntil s delim = .ok (some line,t)) :
    answered s delim = [(line,delim)] := by
  unfold answered
  rw [returned]

theorem handledTaken {s t : State} {h : Handler} (handled : Handled s h t) :
    t.history.taken = s.history.taken := by
  cases handled <;> rfl

theorem readTaken {s t : State} {delim : Bytes} {result : Option Bytes}
    (returned : AsyncImpl.readStringUntil s delim = .ok (result,t)) :
    t.history.taken = s.history.taken ++ answered s delim := by
  have clear : s.error = none := by
    cases stored : s.error with
    | none => rfl
    | some ec =>
      unfold AsyncImpl.readStringUntil at returned
      rw [stored] at returned
      contradiction
  rcases readCases delim clear with ⟨_,nothing⟩ | ⟨front,back,_,_,_,taken⟩
  · rw [nothing] at returned
    cases returned
    unfold answered
    rw [nothing]
    exact (List.append_nil _).symm
  · rw [answeredSome taken]
    rw [taken] at returned
    cases returned
    rfl

theorem stepTaken {s t : State} {e : AsyncImpl.Event} (stays : ¬ Opens e)
    (moved : AsyncImpl.step s e = some t) :
    t.history.taken = s.history.taken ++ answeredTo s e := by
  by_cases reads : ∃ delim, e = .readStringUntil delim
  · obtain ⟨delim,same⟩ := reads
    rw [same] at moved ⊢
    simp only [AsyncImpl.step] at moved
    split at moved
    · rename_i returned
      cases moved
      exact readTaken returned
    · rename_i thrown
      cases moved
      simp only [answeredTo,answered,thrown]
      exact (List.append_nil _).symm
  · have silent : answeredTo s e = [] := by
      cases e with
      | readStringUntil delim => exact absurd ⟨delim,rfl⟩ reads
      | _ => rfl
    rw [silent,List.append_nil]
    cases stepped moved with
    | misses delim => exact absurd ⟨delim,rfl⟩ reads
    | takes delim front back _ => exact absurd ⟨delim,rfl⟩ reads
    | closes closes => exact absurd trivial stays
    | opens closes outcome => exact absurd trivial stays
    | runs h _ _ _ handled =>
      have kept := handledTaken handled
      exact kept
    | _ => rfl

inductive Resumed (p : Pool) (i : Nat) (c : Caller) (now : Time) : Pool → Prop where
  | looks (checking : c.progress = .checking) : Resumed p i c now {p with
      callers := p.callers.set i {c with progress := if now < c.endTime then .trying else .timedOut}}
  | returns (trying : c.progress = .trying) {line : Bytes} {t : State}
      (returned : AsyncImpl.readStringUntil p.impl c.delim = .ok (some line,t)) :
      Resumed p i c now {p with
        impl := t
        callers := p.callers.set i {c with progress := .returned line}
        answers := p.answers ++ [(line,c.delim)]}
  | misses (trying : c.progress = .trying) {t : State}
      (returned : AsyncImpl.readStringUntil p.impl c.delim = .ok (none,t)) :
      Resumed p i c now {p with
        impl := t
        callers := p.callers.set i {c with progress := .sleeping}}
  | fails (trying : c.progress = .trying) {ec : ErrorCode}
      (thrown : AsyncImpl.readStringUntil p.impl c.delim = .error ec) :
      Resumed p i c now {p with callers := p.callers.set i {c with progress := .failed ec}}
  | wakes (sleeping : c.progress = .sleeping) :
      Resumed p i c now {p with callers := p.callers.set i {c with progress := .checking}}

theorem resumed {p q : Pool} {i : Nat} {c : Caller} {now : Time}
    (moved : resume p i c now = some q) : Resumed p i c now q := by
  unfold resume at moved
  split at moved
  · rename_i checking
    cases moved
    exact .looks checking
  · rename_i trying
    split at moved
    · rename_i returned
      cases moved
      exact .returns trying returned
    · rename_i returned
      cases moved
      exact .misses trying returned
    · rename_i thrown
      cases moved
      exact .fails trying thrown
  · rename_i sleeping
    cases moved
    exact .wakes sleeping
  · contradiction

theorem resumedAt {p q : Pool} {i : Nat} {now : Time} {c : Caller} (here : p.callers[i]? = some c)
    (moved : step p (.resume i now) = some q) : Resumed p i c now q := by
  simp only [step,here,Option.bind_some] at moved
  exact resumed moved

theorem resumeCalls {p q : Pool} {i : Nat} {c : Caller} {now : Time}
    (moved : resume p i c now = some q) :
    (q.impl = p.impl ∧ q.answers = p.answers) ∨
    ∃ result, AsyncImpl.readStringUntil p.impl c.delim = .ok (result,q.impl) ∧
      q.answers = p.answers ++ answered p.impl c.delim := by
  cases resumed moved with
  | looks checking => exact .inl ⟨rfl,rfl⟩
  | returns trying returned => exact .inr ⟨_,returned,by rw [answeredSome returned]⟩
  | misses trying returned =>
    refine .inr ⟨_,returned,?_⟩
    simp only [answered,returned]
    exact (List.append_nil _).symm
  | fails trying thrown => exact .inl ⟨rfl,rfl⟩
  | wakes sleeping => exact .inl ⟨rfl,rfl⟩

def Answering (p : Pool) : Prop := Reading p.impl ∧ p.answers = p.impl.history.taken

theorem stepInner {p q : Pool} {e : Event} (allowed : InSession p e) (moved : step p e = some q) :
    (q.impl = p.impl ∧ q.answers = p.answers) ∨ ∃ inner, Session p.impl inner ∧
      AsyncImpl.step p.impl inner = some q.impl ∧ q.answers = p.answers ++ answeredTo p.impl inner := by
  cases e with
  | inner e =>
    simp only [step,Option.map_eq_some_iff] at moved
    obtain ⟨t,inside,same⟩ := moved
    cases same
    exact .inr ⟨e,allowed,inside,rfl⟩
  | readStringUntil timeout delim now =>
    cases moved
    exact .inl ⟨rfl,rfl⟩
  | resume i now =>
    simp only [step,Option.bind_eq_some_iff] at moved
    obtain ⟨c,_,resumed⟩ := moved
    refine (resumeCalls resumed).imp id ?_
    rintro ⟨result,returned,more⟩
    refine ⟨.readStringUntil c.delim,id,?_,more⟩
    simp only [AsyncImpl.step,returned]

theorem stepAnswering {p q : Pool} {e : Event} (answering : Answering p) (allowed : InSession p e)
    (moved : step p e = some q) : Answering q := by
  obtain ⟨reading,answers⟩ := answering
  rcases stepInner allowed moved with ⟨impl,same⟩ | ⟨inner,stays,inside,more⟩
  · refine ⟨?_,?_⟩
    · rw [impl]
      exact reading
    · rw [impl,same]
      exact answers
  · exact ⟨readingKept reading stays inside,by rw [more,stepTaken stays inside,answers]⟩

theorem reachableAnswering {p : Pool} (reachable : Reachable step InSession fresh p) : Answering p :=
  reachableInvariant (fun _ _ _ answering allowed moved => stepAnswering answering allowed moved)
    ⟨openedReading,rfl⟩ reachable

theorem receivedOnce {p : Pool} (reachable : Reachable step InSession fresh p) :
    joined p.answers ++ p.impl.readQueue = p.impl.history.received ∧ p.impl.reads ≤ 1 := by
  obtain ⟨reading,answers⟩ := reachableAnswering reachable
  refine ⟨?_,?_⟩
  · rw [answers]
    exact reading.1.whole
  · exact Nat.le_trans (Nat.le_add_left _ _) (stageOne reading.1.stage)

def arrival : Chunk := ⟨[97,10,98],by decide⟩

theorem receivedOnceLine : ∃ p, Reachable step InSession fresh p ∧ p.answers = [([97],[10])] ∧
    joined p.answers ++ p.impl.readQueue = p.impl.history.received ∧ p.impl.reads ≤ 1 := by
  have run : ∃ p, Run step InSession fresh
      [.inner (.run .startRead),.inner (.readCompletes arrival),
        .inner (.run (.finishRead none [97,10,98])),.readStringUntil 1000000 [10] 0,.resume 0 1,
        .resume 0 2] p ∧ p.answers = [([97],[10])] :=
    ⟨_,.next id rfl (.next id rfl (.next id rfl (.next trivial rfl (.next trivial rfl
      (.next trivial rfl (.done _)))))),rfl⟩
  obtain ⟨p,run,answers⟩ := run
  exact ⟨p,⟨_,run⟩,answers,receivedOnce ⟨_,run⟩⟩

end Chambermaid.BufferedIo
