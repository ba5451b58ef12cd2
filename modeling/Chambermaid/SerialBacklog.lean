import Chambermaid.SerialProtocol

/-! The replies that nobody has read yet, from call to call. A call that reads one line leaves
as many of them as it found; only get_version_info, which reads on to a reply of its own,
can get rid of them. -/
namespace Chambermaid.SerialBacklog
open Json (Library)
open Serial (Io PortEvent newline stripCarriageReturn)
open Runs SerialReply SerialProtocol

/-! What the loop of get_version_info leaves of the lines it reads, and what a call leaves of
the replies when none of its reads times out. -/
def skip : Nat → List Kind → List Kind
  | 0,lines => lines
  | _,[] => []
  | tries+1,kind::lines => if kind = .version then lines else skip tries lines

def after (backlog : List Kind) (kind : Kind) : List Kind :=
  if kind = .version then skip 10 (backlog ++ [kind]) else (backlog ++ [kind]).drop 1

def Calm (_ : System) (e : SerialProtocol.Event) : Prop := e ≠ .timeOut ∧ e ≠ .fail

inductive Going (lib : Library) (before : List Kind) (kind : Kind) :
    Io SerialReply.Record → List Kind → Prop where
  | asking : Going lib before kind (call lib kind) before
  | waiting (other : kind ≠ .version) : Going lib before kind (.readStringUntil 1 [newline]
      (fun data => answered lib kind (stripCarriageReturn data)) (.raise .timeout)) (before ++ [kind])
  | reading {tries : Nat} {line : Json.Bytes} {out : List Kind} (own : kind = .version)
      (letter : line.head? ≠ some 78) (same : skip tries out = skip 10 (before ++ [kind])) :
      Going lib before kind (versionCall lib tries line) out
  | ended {program : Io SerialReply.Record} (finished : Finished program) :
      Going lib before kind program (after before kind)

theorem versionFinished (lib : Library) (line : Json.Bytes) : Finished (versionCall lib 0 line) := by
  rw [versionEnds lib (.inl rfl)]
  exact answeredFinished lib .version line

theorem goingWrite {lib : Library} {before out : List Kind} {kind : Kind} {data : Json.Bytes}
    {program next : Io SerialReply.Record} (going : Going lib before kind program out)
    (writes : program = .write data next) :
    Going lib before kind next (out ++ data.filterMap requested) := by
  cases going with
  | asking =>
    by_cases own : kind = .version
    · subst own
      rw [callVersion] at writes
      cases writes
      exact .reading rfl (by simp) rfl
    · rw [callRequest lib own] at writes
      cases writes
      have asked : [requestLetter kind].filterMap requested = [kind] := by cases kind <;> rfl
      rw [asked]
      exact .waiting own
  | waiting other => cases writes
  | @reading tries line _ own letter same =>
    cases tries with
    | zero =>
      have finished := versionFinished lib line
      rw [writes] at finished
      exact finished.elim
    | succ tries =>
      rw [versionReads lib tries letter] at writes
      cases writes
  | ended finished =>
    rw [writes] at finished
    exact finished.elim

theorem goingRead {lib : Library} {before rest : List Kind} {kind : Kind} {r : Reply}
    {program next : Io SerialReply.Record} (formed : WellFormed lib r)
    (going : Going lib before kind program (r.kind::rest))
    (inside : program.step (.line r.line) = some next) : Going lib before kind next rest := by
  generalize same : r.kind::rest = out at going
  cases going with
  | asking =>
    by_cases own : kind = .version
    · subst own
      rw [callVersion] at inside
      cases inside
    · rw [callRequest lib own] at inside
      cases inside
  | waiting other =>
    cases inside
    have left : rest = after before kind := by
      unfold after
      rw [if_neg other,← same]
      rfl
    rw [left]
    exact .ended (answeredFinished lib kind _)
  | @reading tries line _ own letter passed =>
    subst own
    cases tries with
    | zero =>
      have finished := versionFinished lib line
      cases program : versionCall lib 0 line <;> rw [program] at finished inside <;>
        first | exact finished.elim | cases inside
    | succ tries =>
      rw [versionReads lib tries letter] at inside
      have filled : r.line ≠ [] := List.cons_ne_nil _ _
      cases inside
      dsimp only
      rw [if_neg filled]
      have head : (stripCarriageReturn r.line).head? = some (replyLetter r.kind) := by
        rw [stripLine formed]
        rfl
      rw [← same] at passed
      by_cases version : r.kind = .version
      · have ends : (stripCarriageReturn r.line).head? = some 78 := by rw [head,version]; rfl
        have left : rest = after before .version := by
          unfold after
          rw [if_pos rfl,← passed]
          unfold skip
          rw [if_pos version]
        rw [versionEnds lib (.inr ends),left]
        exact .ended (answeredFinished lib .version _)
      · refine .reading rfl ?_ ?_
        · rw [head]
          intro letter
          exact version (letterExact (Option.some.inj letter))
        · rw [← passed,skip,if_neg version]
  | ended finished =>
    cases program <;> first | exact finished.elim | cases inside

theorem goingFinished {lib : Library} {before out : List Kind} {kind : Kind}
    {program : Io SerialReply.Record} (going : Going lib before kind program out)
    (finished : Finished program) : out = after before kind := by
  cases going with
  | asking =>
    by_cases own : kind = .version
    · subst own
      rw [callVersion] at finished
      exact finished.elim
    · rw [callRequest lib own] at finished
      exact finished.elim
  | waiting other => exact finished.elim
  | @reading tries line _ own letter same =>
    cases tries with
    | zero =>
      unfold after
      rw [if_pos own,← same]
      rfl
    | succ tries =>
      rw [versionReads lib tries letter] at finished
      exact finished.elim
  | ended _ => rfl

structure Counted (lib : Library) (first : System) (s : System) (done : List Active) : Prop where
  calls : s.calls = first.calls ++ done
  formed : ∀ r ∈ s.unread, WellFormed lib r
  between : s.active = none → outstanding s = (done.map Active.kind).foldl after (outstanding first)
  within : ∀ a, s.active = some a → Going lib ((done.map Active.kind).foldl after (outstanding first))
    a.kind a.program (outstanding s)

theorem outstandingDelivered {s : System} {inFlight : List Kind} {r : Reply}
    (queue : s.inFlight = r.kind::inFlight) :
    outstanding {s with inFlight := inFlight, unread := s.unread ++ [r]} = outstanding s := by
  unfold outstanding
  rw [queue]
  simp

theorem countedDelivered {lib : Library} {first s : System} {done : List Active}
    (counted : Counted lib first s done) {inFlight : List Kind} {r : Reply}
    (queue : s.inFlight = r.kind::inFlight) (whole : WellFormed lib r) :
    Counted lib first {s with inFlight := inFlight, unread := s.unread ++ [r]} done := by
  obtain ⟨calls,formed,between,within⟩ := counted
  have same := outstandingDelivered queue
  refine ⟨calls,?_,?_,?_⟩
  · intro q inside
    rcases List.mem_append.mp inside with before | last
    · exact formed q before
    · rw [List.mem_singleton.mp last]
      exact whole
  · rw [same]
    exact between
  · rw [same]
    exact within

theorem countedKept {lib : Library} {first s t : System} {done : List Active}
    {e : SerialProtocol.Event} (counted : Counted lib first s done) (calm : Calm s e)
    (moved : step lib s e = some t) : ∃ more, Counted lib first t more := by
  obtain ⟨calls,formed,between,within⟩ := counted
  cases e with
  | start kind =>
    simp only [step] at moved
    split at moved
    · rename_i idle
      cases moved
      refine ⟨done,calls,formed,fun none => by contradiction,?_⟩
      intro a active
      cases active
      have same : outstanding s = _ := between idle
      unfold outstanding at same ⊢
      rw [← same]
      exact .asking
    · contradiction
  | write =>
    simp only [step,Option.bind_eq_bind,Option.bind_eq_some_iff] at moved
    obtain ⟨a,active,moved⟩ := moved
    split at moved
    · rename_i data next writes
      cases moved
      refine ⟨done,calls,formed,fun none => by contradiction,?_⟩
      intro b same
      cases same
      unfold outstanding
      rw [← List.append_assoc]
      exact goingWrite (within a active) writes
    · contradiction
  | read =>
    simp only [step,Option.bind_eq_bind,Option.bind_eq_some_iff] at moved
    obtain ⟨a,active,moved⟩ := moved
    split at moved
    · contradiction
    · rename_i r unread queue
      obtain ⟨b,moved,same⟩ := Option.bind_eq_some_iff.mp moved
      obtain ⟨next,inside,rfl⟩ := proceeds moved
      cases same
      have begun := within a active
      unfold outstanding at begun
      rw [queue] at begun formed
      refine ⟨done,calls,fun q inside => formed q (List.mem_cons_of_mem _ inside),fun none => by contradiction,?_⟩
      intro c same
      cases same
      exact goingRead (formed r List.mem_cons_self) begun inside
  | timeOut => exact absurd rfl calm.1
  | fail => exact absurd rfl calm.2
  | finish =>
    simp only [step,Option.bind_eq_bind,Option.bind_eq_some_iff] at moved
    obtain ⟨a,active,moved⟩ := moved
    split at moved
    · rename_i finished
      cases moved
      refine ⟨done ++ [a],by rw [calls,List.append_assoc],formed,fun _ => ?_,fun b none => by contradiction⟩
      rw [List.map_append,List.foldl_append]
      exact goingFinished (within a active) finished
    · contradiction
  | deliver r =>
    simp only [step] at moved
    split at moved
    · contradiction
    · rename_i kind inFlight queue
      split at moved
      · rename_i delivered
        obtain ⟨own,whole⟩ := delivered
        cases moved
        rw [← own] at queue
        exact ⟨done,countedDelivered ⟨calls,formed,between,within⟩ queue whole⟩
      · contradiction

theorem reachableFormed {lib : Library} {s : System}
    (reachable : Reachable (step lib) Anything quiet s) : ∀ r ∈ s.unread, WellFormed lib r := by
  have first : Synchronised lib quiet :=
    ⟨fun _ none => absurd none List.not_mem_nil,nofun,fun _ none => absurd none List.not_mem_nil⟩
  have kept : Synchronised lib s :=
    reachableInvariant (fun _ _ _ kept _ moved => synchronisedKept kept moved) first reachable
  exact kept.formed

theorem runCounted {lib : Library} {s t : System} {events : List SerialProtocol.Event}
    (reachable : Reachable (step lib) Anything quiet s) (idle : s.active = none)
    (run : Run (step lib) Calm s events t) : ∃ done, Counted lib s t done := by
  have first : Counted lib s s [] :=
    ⟨(List.append_nil _).symm,reachableFormed reachable,fun _ => rfl,
      fun a active => by rw [idle] at active; contradiction⟩
  have kept : ∀ u e v, (∃ done, Counted lib s u done) → Calm u e → step lib u e = some v →
      ∃ done, Counted lib s v done := fun _ _ _ ⟨_,counted⟩ calm moved => countedKept counted calm moved
  exact runInvariant kept run ⟨[],first⟩

theorem backlogFolds {lib : Library} {s t : System} {events : List SerialProtocol.Event}
    (reachable : Reachable (step lib) Anything quiet s) (idle : s.active = none)
    (run : Run (step lib) Calm s events t) (ends : t.active = none) : ∃ done,
      t.calls = s.calls ++ done ∧
      outstanding t = (done.map Active.kind).foldl after (outstanding s) := by
  obtain ⟨done,counted⟩ := runCounted reachable idle run
  exact ⟨done,counted.calls,counted.between ends⟩

def timedOut : List SerialProtocol.Event :=
  [.start .temperatures,.write,.timeOut,.finish,.deliver temperaturesReply]

def behind : List SerialProtocol.Event :=
  [.start .temperatures,.write,.read,.deliver temperaturesReply,.finish]

theorem behindCalm (u : System) : ∀ e ∈ behind, Calm u e := by
  intro e member
  simp only [behind,List.mem_cons,List.not_mem_nil,or_false] at member
  rcases member with rfl | rfl | rfl | rfl | rfl <;> exact ⟨nofun,nofun⟩

theorem backlogFoldsBehind : ∃ s t, Reachable (step small) Anything quiet s ∧
    Run (step small) Calm s behind t ∧ ∃ done, t.calls = s.calls ++ done ∧
      outstanding t = (done.map Active.kind).foldl after (outstanding s) := by
  have run : ∃ s t, timedOut.foldlM (step small) quiet = some s ∧
      behind.foldlM (step small) s = some t ∧ s.active = none ∧ t.active = none :=
    ⟨_,_,rfl,rfl,rfl,rfl⟩
  obtain ⟨s,t,first,second,idle,ends⟩ := run
  have reachable : Reachable (step small) Anything quiet s := ⟨_,foldRun first⟩
  have run := runPermitted behindCalm (foldRun second)
  exact ⟨s,t,reachable,run,backlogFolds reachable idle run ends⟩

theorem oneEach (backlog : List Kind) {kinds : List Kind} (others : ∀ kind ∈ kinds, kind ≠ .version) :
    kinds.foldl after backlog = (backlog ++ kinds).drop kinds.length := by
  induction kinds generalizing backlog with
  | nil => exact (List.append_nil _).symm
  | cons kind kinds ih =>
    obtain ⟨first,rest⟩ := List.forall_mem_cons.mp others
    have shifted : (backlog ++ [kind]).drop 1 ++ kinds = (backlog ++ kind::kinds).drop 1 := by
      have some : 1 ≤ (backlog ++ [kind]).length := by simp
      rw [List.append_cons backlog kind kinds,List.drop_append_of_le_length some]
    rw [List.foldl_cons,after,if_neg first,ih _ rest,shifted,List.drop_drop,List.length_cons,Nat.add_comm]

theorem staysBehind {lib : Library} {s t : System} {events : List SerialProtocol.Event}
    (reachable : Reachable (step lib) Anything quiet s) (idle : s.active = none)
    (run : Run (step lib) Calm s events t) (ends : t.active = none) {done : List Active}
    (calls : t.calls = s.calls ++ done) (others : ∀ c ∈ done, c.kind ≠ .version) :
    outstanding t = (outstanding s ++ done.map Active.kind).drop done.length ∧
    (outstanding t).length = (outstanding s).length := by
  obtain ⟨more,counted⟩ := runCounted reachable idle run
  have same : more = done := List.append_cancel_left (counted.calls.symm.trans calls)
  subst same
  have kinds : ∀ kind ∈ more.map Active.kind, kind ≠ .version := by
    intro kind member
    obtain ⟨c,inside,rfl⟩ := List.mem_map.mp member
    exact others c inside
  have left := (counted.between ends).trans (oneEach (outstanding s) kinds)
  rw [List.length_map] at left
  refine ⟨left,?_⟩
  rw [left,List.length_drop,List.length_append,List.length_map,Nat.add_sub_cancel]

theorem staysBehindOne : ∃ s t, Reachable (step small) Anything quiet s ∧
    Run (step small) Calm s behind t ∧ (outstanding s).length = 1 ∧ (outstanding t).length = 1 := by
  have run : ∃ s t c, timedOut.foldlM (step small) quiet = some s ∧
      behind.foldlM (step small) s = some t ∧ s.active = none ∧ t.active = none ∧
      t.calls = s.calls ++ [c] ∧ c.kind = .temperatures ∧ (outstanding s).length = 1 :=
    ⟨_,_,_,rfl,rfl,rfl,rfl,rfl,rfl,rfl⟩
  obtain ⟨s,t,c,first,second,idle,ends,calls,kind,one⟩ := run
  have reachable : Reachable (step small) Anything quiet s := ⟨_,foldRun first⟩
  have run := runPermitted behindCalm (foldRun second)
  have other : ∀ d ∈ [c], d.kind ≠ .version := by
    intro d member
    rw [List.mem_singleton.mp member,kind]
    nofun
  have same := (staysBehind reachable idle run ends calls other).2
  exact ⟨s,t,reachable,run,one,same.trans one⟩

theorem skipStale {tries : Nat} {stale : List Kind} (others : .version ∉ stale)
    (short : stale.length < tries) : skip tries (stale ++ [.version]) = [] := by
  induction stale generalizing tries with
  | nil =>
    cases tries with
    | zero => exact absurd short (Nat.not_lt_zero _)
    | succ tries => rfl
  | cons kind stale ih =>
    obtain ⟨first,rest⟩ := not_or.mp (mt List.mem_cons.mpr others)
    cases tries with
    | zero => exact absurd short (Nat.not_lt_zero _)
    | succ tries =>
      rw [List.cons_append,skip,if_neg (Ne.symm first)]
      exact ih rest (Nat.lt_of_succ_lt_succ short)

theorem resynchronises {lib : Library} {s t : System} {events : List SerialProtocol.Event}
    (reachable : Reachable (step lib) Anything quiet s) (idle : s.active = none)
    (run : Run (step lib) Calm s events t) (ends : t.active = none) {c : Active}
    (calls : t.calls = s.calls ++ [c]) (version : c.kind = .version)
    (stale : .version ∉ outstanding s) (few : (outstanding s).length ≤ 9) : outstanding t = [] := by
  obtain ⟨done,counted⟩ := runCounted reachable idle run
  have same : done = [c] := List.append_cancel_left (counted.calls.symm.trans calls)
  have left := counted.between ends
  rw [same,List.map_singleton,List.foldl_cons,List.foldl_nil,version] at left
  rw [left,after,if_pos rfl]
  exact skipStale stale (Nat.lt_succ_of_le few)

def versionReply : Reply := ⟨.version,[123,125],false⟩

def catchingUp : List SerialProtocol.Event :=
  [.start .version,.write,.read,.deliver versionReply,.read,.finish]

theorem resynchronisesOne : ∃ s t, Reachable (step small) Anything quiet s ∧
    Run (step small) Calm s catchingUp t ∧ (outstanding s).length = 1 ∧ outstanding t = [] := by
  have run : ∃ s t c, timedOut.foldlM (step small) quiet = some s ∧
      catchingUp.foldlM (step small) s = some t ∧ s.active = none ∧ t.active = none ∧
      t.calls = s.calls ++ [c] ∧ c.kind = .version ∧ outstanding s = [.temperatures] :=
    ⟨_,_,_,rfl,rfl,rfl,rfl,rfl,rfl,rfl⟩
  obtain ⟨s,t,c,first,second,idle,ends,calls,kind,one⟩ := run
  have calm : ∀ u, ∀ e ∈ catchingUp, Calm u e := by
    intro u e member
    simp only [catchingUp,List.mem_cons,List.not_mem_nil,or_false] at member
    rcases member with rfl | rfl | rfl | rfl | rfl | rfl <;> exact ⟨nofun,nofun⟩
  have reachable : Reachable (step small) Anything quiet s := ⟨_,foldRun first⟩
  have run := runPermitted calm (foldRun second)
  refine ⟨s,t,reachable,run,by rw [one]; rfl,?_⟩
  exact resynchronises reachable idle run ends calls kind (by rw [one]; decide) (by rw [one]; decide)

end Chambermaid.SerialBacklog
