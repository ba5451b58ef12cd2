import Chambermaid.SerialReply

/-! get_version_info asks again. Of all that it reads only the first line that starts with N
counts, and it gives up after ten polls. -/
namespace Chambermaid.VersionRetry
open Json (Library Bytes)
open Serial SerialReply Runs

def poll : PortEvent → Option (Option Bytes)
  | .line data => some (if data = [] then none else some (stripCarriageReturn data))
  | .timedOut => some none
  | _ => none

def polls (events : List PortEvent) : List (Option Bytes) := events.filterMap poll

def Lettered (p : Option Bytes) : Prop := p.bind List.head? = some 78

instance (p : Option Bytes) : Decidable (Lettered p) := by unfold Lettered; infer_instance

-- The order of a conversation after a request: a poll that gives no line is followed at once by one
-- more request, and a poll that gives a line by none.
inductive Asking : List PortEvent → Prop
  | silent : Asking []
  | missed {e : PortEvent} {rest : List PortEvent} (nothing : poll e = some none) (after : Asking rest) :
    Asking (e::.wrote::rest)
  | heard {e : PortEvent} {line : Bytes} {rest : List PortEvent} (something : poll e = some (some line))
    (after : Asking rest) : Asking (e::rest)

theorem pollsMissed {e : PortEvent} {rest : List PortEvent} (nothing : poll e = some none) :
    polls (e::.wrote::rest) = none::polls rest := List.filterMap_cons_some nothing

theorem pollsHeard {e : PortEvent} {line : Bytes} {rest : List PortEvent}
    (something : poll e = some (some line)) : polls (e::rest) = some line::polls rest :=
  List.filterMap_cons_some something

theorem askingCounts {events : List PortEvent} (asking : Asking events) :
    events.count .wrote = (polls events).count none := by
  induction asking with
  | silent => rfl
  | @missed e rest nothing _ ih =>
    have unsent : e ≠ .wrote := by rintro rfl; cases nothing
    rw [pollsMissed nothing,List.count_cons_of_ne unsent,List.count_cons_self,List.count_cons_self,ih]
  | @heard e line rest something _ ih =>
    have unsent : e ≠ .wrote := by rintro rfl; cases something
    rw [pollsHeard something,List.count_cons_of_ne unsent,List.count_cons_of_ne (by simp),ih]

def Settled (lib : Library) (tries : Nat) (seen : List (Option Bytes)) (result : Io Record) : Prop :=
  (∃ front line, seen = front ++ [some line] ∧ front.length < tries ∧ (∀ p ∈ front, ¬Lettered p) ∧
    line.head? = some 78 ∧ result = answered lib .version line) ∨
  seen.length = tries ∧ (∀ p ∈ seen, ¬Lettered p) ∧ result = .ret (.version {})

theorem settledNext {lib : Library} {tries : Nat} {p : Option Bytes} {seen : List (Option Bytes)}
    {result : Io Record} (other : ¬Lettered p) (settled : Settled lib tries seen result) :
    Settled lib (tries+1) (p::seen) result := by
  rcases settled with ⟨front,line,rfl,room,others,letter,ends⟩ | ⟨full,others,ends⟩
  · exact .inl ⟨p::front,line,rfl,Nat.succ_lt_succ room,List.forall_mem_cons.mpr ⟨other,others⟩,letter,ends⟩
  · exact .inr ⟨congrArg (· + 1) full,List.forall_mem_cons.mpr ⟨other,others⟩,ends⟩

theorem answeredOther (lib : Library) {line : Bytes} (other : line.head? ≠ some 78) :
    answered lib .version line = .ret (.version {}) := by
  unfold answered answer
  rw [if_pos (.inr other)]
  rfl

theorem failsEnd {α : Type} {p q : Io α} {events : List PortEvent}
    (run : Run Io.step Anything p events q) (fails : PortEvent.fails ∈ events) :
    q = .raise .systemError := by
  induction run with
  | done p => exact absurd fails List.not_mem_nil
  | @next p r q e events _ moved rest ih =>
    rcases List.mem_cons.mp fails with here | later
    · subst here
      have raised : r = .raise .systemError := by
        cases p <;> cases moved <;> rfl
      rw [raised] at rest
      exact (raiseStops rest).2
    · exact ih later

theorem quietWrite {α : Type} {data : Bytes} {next q : Io α} {events : List PortEvent}
    (run : Run Io.step Anything (.write data next) events q) (finished : Finished q)
    (quiet : PortEvent.fails ∉ events) :
    ∃ rest, events = .wrote::rest ∧ PortEvent.fails ∉ rest ∧ Run Io.step Anything next rest q := by
  rcases writeRun run finished with ⟨rest,rfl,later⟩ | ⟨rfl,_⟩
  · exact ⟨rest,rfl,fun member => quiet (List.mem_cons_of_mem _ member),later⟩
  · exact absurd List.mem_cons_self quiet

theorem loopSettles {lib : Library} (tries : Nat) : ∀ {line : Bytes} {events : List PortEvent}
    {result : Io Record}, line.head? ≠ some 78 →
    Run Io.step Anything (versionCall lib tries line) events result → Finished result →
    PortEvent.fails ∉ events → Settled lib tries (polls events) result ∧ Asking events := by
  induction tries with
  | zero =>
    intro line events result other run finished quiet
    rw [versionEnds lib (.inl rfl)] at run
    obtain ⟨rfl,same⟩ := finishedStops (answeredFinished lib .version line) run
    exact ⟨.inr ⟨rfl,fun p member => absurd member List.not_mem_nil,same.trans (answeredOther lib other)⟩,.silent⟩
  | succ tries ih =>
    intro line events result other run finished quiet
    -- A poll that gives nothing costs a try and one more request.
    have again : ∀ {e : PortEvent} {rest : List PortEvent}, poll e = some none → PortEvent.fails ∉ rest →
        Run Io.step Anything (.write [110] (versionCall lib tries line)) rest result →
        Settled lib (tries+1) (polls (e::rest)) result ∧ Asking (e::rest) := by
      intro e rest nothing quiet run
      obtain ⟨rest,rfl,quiet,later⟩ := quietWrite run finished quiet
      obtain ⟨settled,asking⟩ := ih other later finished quiet
      rw [pollsMissed nothing]
      exact ⟨settledNext (by decide) settled,.missed nothing asking⟩
    rw [versionReads lib tries other] at run
    rcases readRun run finished with ⟨data,rest,rfl,ends⟩ | ⟨rest,rfl,ends⟩ | ⟨rfl,_⟩
    · have calm : PortEvent.fails ∉ rest := fun member => quiet (List.mem_cons_of_mem _ member)
      split at ends
      · rename_i empty
        subst empty
        exact again rfl calm ends
      · rename_i something
        have heard : poll (.line data) = some (some (stripCarriageReturn data)) := by simp [poll,something]
        rw [pollsHeard heard]
        by_cases letter : (stripCarriageReturn data).head? = some 78
        · rw [versionEnds lib (.inr letter)] at ends
          obtain ⟨rfl,same⟩ := finishedStops (answeredFinished lib .version _) ends
          exact ⟨.inl ⟨[],_,rfl,Nat.succ_pos tries,fun p member => absurd member List.not_mem_nil,letter,same⟩,
            .heard heard .silent⟩
        · obtain ⟨settled,asking⟩ := ih letter ends finished calm
          exact ⟨settledNext letter settled,.heard heard asking⟩
    · exact again rfl (fun member => quiet (List.mem_cons_of_mem _ member)) ends
    · exact absurd List.mem_cons_self quiet

theorem writeBounded {α : Type} {n : Nat} {data : Bytes} {next q : Io α} {events : List PortEvent}
    (bounded : ∀ {rest}, Run Io.step Anything next rest q → rest.length ≤ n)
    (run : Run Io.step Anything (.write data next) events q) : events.length ≤ n+1 := by
  cases run with
  | done => exact Nat.zero_le _
  | @next _ r _ e rest _ moved later =>
    cases e with
    | wrote =>
      cases moved
      exact Nat.succ_le_succ (bounded later)
    | fails =>
      cases moved
      rw [(raiseStops later).1]
      exact Nat.succ_le_succ (Nat.zero_le n)
    | line data => cases moved
    | timedOut => cases moved

theorem readBounded {α : Type} {n seconds : Nat} {delim : Bytes} {line : Bytes → Io α}
    {timedOut q : Io α} {events : List PortEvent}
    (lines : ∀ {data rest}, Run Io.step Anything (line data) rest q → rest.length ≤ n)
    (times : ∀ {rest}, Run Io.step Anything timedOut rest q → rest.length ≤ n)
    (run : Run Io.step Anything (.readStringUntil seconds delim line timedOut) events q) :
    events.length ≤ n+1 := by
  cases run with
  | done => exact Nat.zero_le _
  | @next _ r _ e rest _ moved later =>
    cases e with
    | wrote => cases moved
    | fails =>
      cases moved
      rw [(raiseStops later).1]
      exact Nat.succ_le_succ (Nat.zero_le n)
    | line data =>
      cases moved
      exact Nat.succ_le_succ (lines later)
    | timedOut =>
      cases moved
      exact Nat.succ_le_succ (times later)

theorem loopBounded {lib : Library} (tries : Nat) : ∀ {line : Bytes} {events : List PortEvent}
    {q : Io Record}, Run Io.step Anything (versionCall lib tries line) events q →
    events.length ≤ 2*tries := by
  induction tries with
  | zero =>
    intro line events q run
    rw [versionEnds lib (.inl rfl)] at run
    rw [(finishedStops (answeredFinished lib .version line) run).1]
    exact Nat.le_refl 0
  | succ tries ih =>
    intro line events q run
    by_cases letter : line.head? = some 78
    · rw [versionEnds lib (.inr letter)] at run
      rw [(finishedStops (answeredFinished lib .version line) run).1]
      exact Nat.zero_le _
    · rw [versionReads lib tries letter] at run
      have again : ∀ {rest}, Run Io.step Anything (.write [110] (versionCall lib tries line)) rest q →
          rest.length ≤ 2*tries+1 := writeBounded ih
      refine readBounded (n := 2*tries+1) ?_ again run
      intro data rest later
      split at later
      · exact again later
      · exact Nat.le_succ_of_le (ih later)

/-! A run of get_version_info, to its end: a failing port ends it; otherwise it is the first line
that starts with N among ten polls at most, decoded, or else the default record. It opens with a
request, then every poll without a line is followed at once by another, and nothing else is
written. No run has more than twenty-one steps. -/
theorem versionSettles {lib : Library} {events : List PortEvent} {result : Io Record}
    (run : Run Io.step Anything (call lib .version) events result) (finished : Finished result) :
    (PortEvent.fails ∈ events → result = .raise .systemError) ∧
    (PortEvent.fails ∉ events → Settled lib 10 (polls events) result ∧
      events.count .wrote = (polls events).count none + 1 ∧
      ∃ asked, events = .wrote::asked ∧ Asking asked) ∧
    events.length ≤ 21 := by
  rw [callVersion] at run
  refine ⟨failsEnd run,fun quiet => ?_,writeBounded (loopBounded 10) run⟩
  obtain ⟨asked,rfl,quiet,later⟩ := quietWrite run finished quiet
  obtain ⟨settled,asking⟩ := loopSettles 10 (by simp) later finished quiet
  refine ⟨settled,?_,asked,rfl,asking⟩
  have read : polls (.wrote::asked) = polls asked := rfl
  rw [read,List.count_cons_self,askingCounts asking]

theorem versionSettlesThird : Settled small 10 [some [84],none,some [78,58,123,125]]
      (answered small .version [78,58,123,125]) ∧
    ∃ asked, [PortEvent.wrote,.line [84],.timedOut,.wrote,.line [78,58,123,125]] = .wrote::asked ∧
      Asking asked := by
  have run : Run Io.step Anything (call small .version)
      [.wrote,.line [84],.timedOut,.wrote,.line [78,58,123,125]]
      (answered small .version [78,58,123,125]) := by
    rw [callVersion]
    refine .next (t := versionCall small 10 []) trivial rfl ?_
    rw [versionReads small 9 (by decide)]
    refine .next (t := versionCall small 9 [84]) trivial rfl ?_
    rw [versionReads small 8 (by decide)]
    refine .next trivial rfl (.next (t := versionCall small 8 [84]) trivial rfl ?_)
    rw [versionReads small 7 (by decide)]
    refine .next (t := versionCall small 7 [78,58,123,125]) trivial rfl ?_
    rw [versionEnds small (.inr rfl)]
    exact .done _
  obtain ⟨settled,_,order⟩ := (versionSettles run (answeredFinished small .version _)).2.1 (by decide)
  exact ⟨settled,order⟩

end Chambermaid.VersionRetry
