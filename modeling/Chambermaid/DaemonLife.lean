import Chambermaid.Daemon

/-! The life of the monitors. Each one only ever goes forward, whatever its database, its
locks and its port do, so all of them end, and none without a last word. A group's mutex is
held by the one monitor that is past its lock, so no two of one group ever are. -/
namespace Chambermaid.DaemonLife
open Runs Version Daemon

def left : Place → Nat
  | .connecting => 6
  | .locating => 5
  | .lockingLocation _ => 4
  | .lockingPort _ => 3
  | .opening _ => 2
  | .asking _ => 1
  | .ended _ => 0

def starts : Event → Bool
  | .start _ => true
  | _ => false

inductive LastWords (group : Nat) (claimed : Option String) : List String → Prop where
  | failed (what : String) :
      LastWords group claimed [what,"No longer monitoring Group " ++ groupByte group]
  | silent (location : String) (own : claimed = some location) :
      LastWords group claimed ["Could not connect to device at " ++ location]
  | connected (found : VersionCode) (text : String) (some : claimed ≠ none) :
      LastWords group claimed (versionLines found text)

/-! What a step does: a monitor starts, goes on, takes its group's mutex, or ends. -/
inductive Lived (s : State) (e : Event) (t : State) : Prop where
  | starts (group : Nat) (same : e = .start group)
      (monitors : t.monitors = s.monitors ++ [⟨group,.connecting⟩]) (log : t.log = s.log)
      (locked : t.locked = s.locked)
  | goes {i : Nat} {m : Monitor} {place : Place} (own : starts e = false)
      (here : s.monitors[i]? = some m) (nearer : left place < left m.place)
      (runs : running place = true) (port : locksPort place = locksPort m.place)
      (monitors : t.monitors = s.monitors.set i {m with place := place}) (log : t.log = s.log)
      (locked : t.locked = s.locked)
  | locks {i : Nat} {m : Monitor} {location : String} (own : starts e = false)
      (here : s.monitors[i]? = some m) (at_lock : m.place = .lockingPort location)
      (free : s.locked m.group = none)
      (monitors : t.monitors = s.monitors.set i {m with place := .opening location})
      (log : t.log = s.log)
      (locked : t.locked = fun group => if group = m.group then some i else s.locked group)
  | ends {i : Nat} {m : Monitor} {lines : List String} (own : starts e = false)
      (here : s.monitors[i]? = some m) (ran : running m.place = true)
      (said : LastWords m.group (claim m.place) lines)
      (monitors : t.monitors = s.monitors.set i {m with place := .ended (claim m.place)})
      (log : t.log = fun j => if j = i then s.log j ++ lines else s.log j)
      (locked : t.locked = released s m)

theorem moveSilent (s : State) (i : Nat) (m : Monitor) (place : Place) : (move s i m place []).log = s.log := by
  funext j
  unfold move
  dsimp only
  rw [List.append_nil,ite_self]

theorem failedLived {s : State} {e : Event} (own : starts e = false) {i : Nat} {m : Monitor}
    (here : s.monitors[i]? = some m) (ran : running m.place = true) (what : String) :
    Lived s e (failed s i m what) := .ends own here ran (.failed what) rfl rfl rfl

theorem goesLived {s : State} {e : Event} (own : starts e = false) {i : Nat} {m : Monitor}
    (here : s.monitors[i]? = some m) {place : Place} (nearer : left place < left m.place)
    (runs : running place = true) (port : locksPort place = locksPort m.place) :
    Lived s e (move s i m place []) := .goes own here nearer runs port rfl (moveSilent s i m place) rfl

theorem versionLived {s t : State} {i : Nat} {m : Monitor}
    {answer : Except String (VersionCode × String)} (here : s.monitors[i]? = some m)
    (moved : version s i m answer = some t) : Lived s (.version i answer) t := by
  unfold version at moved
  split at moved
  · rename_i location place
    have ran : running m.place = true := by rw [place]; rfl
    have own : claim m.place = some location := by rw [place]; rfl
    cases moved
    split
    · exact failedLived rfl here ran _
    · split
      · exact .ends rfl here ran (.silent location own) rfl rfl rfl
      · exact .ends rfl here ran (.connected _ _ (own.trans_ne (Option.some_ne_none _))) rfl rfl rfl
  · contradiction

theorem openPortLived {s t : State} {i : Nat} {m : Monitor} {failure : Option String}
    (here : s.monitors[i]? = some m) (moved : openPort s i m failure = some t) :
    Lived s (.openPort i failure) t := by
  unfold openPort at moved
  split at moved
  · rename_i location place
    cases moved
    split
    · exact failedLived rfl here (by rw [place]; rfl) _
    · exact goesLived rfl here (by rw [place]; exact Nat.lt_succ_self _) rfl (by rw [place]; rfl)
  · contradiction

theorem lockPortLived {s t : State} {i : Nat} {m : Monitor} {acquired : Bool}
    (here : s.monitors[i]? = some m) (moved : lockPort s i m acquired = some t) :
    Lived s (.lockPort i acquired) t := by
  unfold lockPort at moved
  split at moved
  · rename_i location place
    split at moved
    · split at moved
      · contradiction
      · rename_i free
        cases moved
        exact .locks rfl here place free rfl (moveSilent s i m (.opening location)) rfl
    · cases moved
      exact failedLived rfl here (by rw [place]; rfl) _
  · contradiction

theorem lockLocationLived {s t : State} {i : Nat} {m : Monitor} {acquired : Bool}
    (here : s.monitors[i]? = some m) (moved : lockLocation s i m acquired = some t) :
    Lived s (.lockLocation i acquired) t := by
  unfold lockLocation at moved
  split at moved
  · rename_i location place
    have ran : running m.place = true := by rw [place]; rfl
    split at moved
    · split at moved
      · cases moved
        exact failedLived rfl here ran _
      · cases moved
        have nearer : left (.lockingPort location) < left m.place := by
          rw [place]
          exact Nat.lt_succ_self _
        exact .goes rfl here nearer rfl (by rw [place]; rfl) rfl
          (moveSilent s i m (.lockingPort location)) rfl
    · cases moved
      exact failedLived rfl here ran _
  · contradiction

theorem locateLived {s t : State} {i : Nat} {m : Monitor} {answer : Except String String}
    (here : s.monitors[i]? = some m) (moved : locate s i m answer = some t) :
    Lived s (.locate i answer) t := by
  unfold locate at moved
  split at moved
  · rename_i place
    have ran : running m.place = true := by rw [place]; rfl
    cases moved
    split
    · exact failedLived rfl here ran _
    · split
      · exact failedLived rfl here ran _
      · exact goesLived rfl here (by rw [place]; exact Nat.lt_succ_self _) rfl (by rw [place]; rfl)
  · contradiction

theorem connectLived {s t : State} {i : Nat} {m : Monitor} {failure : Option String}
    (here : s.monitors[i]? = some m) (moved : connect s i m failure = some t) :
    Lived s (.connect i failure) t := by
  unfold connect at moved
  split at moved
  · rename_i place
    cases moved
    split
    · exact failedLived rfl here (by rw [place]; rfl) _
    · exact goesLived rfl here (by rw [place]; exact Nat.lt_succ_self _) rfl (by rw [place]; rfl)
  · contradiction

theorem lived {s t : State} {e : Event} (moved : step s e = some t) : Lived s e t := by
  cases e with
  | start group =>
    cases moved
    exact .starts group rfl rfl rfl rfl
  | connect i failure =>
    obtain ⟨m,here,moved⟩ := Option.bind_eq_some_iff.mp moved
    exact connectLived here moved
  | locate i answer =>
    obtain ⟨m,here,moved⟩ := Option.bind_eq_some_iff.mp moved
    exact locateLived here moved
  | lockLocation i acquired =>
    obtain ⟨m,here,moved⟩ := Option.bind_eq_some_iff.mp moved
    exact lockLocationLived here moved
  | lockPort i acquired =>
    obtain ⟨m,here,moved⟩ := Option.bind_eq_some_iff.mp moved
    exact lockPortLived here moved
  | openPort i failure =>
    obtain ⟨m,here,moved⟩ := Option.bind_eq_some_iff.mp moved
    exact openPortLived here moved
  | version i answer =>
    obtain ⟨m,here,moved⟩ := Option.bind_eq_some_iff.mp moved
    exact versionLived here moved

def toCome (s : State) : Nat := (s.monitors.map fun m => left m.place).sum

theorem sumSet {α : Type} (f : α → Nat) {xs : List α} {i : Nat} {x : α} (here : xs[i]? = some x)
    (y : α) : ((xs.set i y).map f).sum + f x = (xs.map f).sum + f y := by
  induction xs generalizing i with
  | nil => cases here
  | cons z xs ih =>
    cases i with
    | zero =>
      cases here
      simp only [List.set_cons_zero,List.map_cons,List.sum_cons]
      omega
    | succ i =>
      have rest := ih (List.getElem?_cons_succ.symm.trans here)
      simp only [List.set_cons_succ,List.map_cons,List.sum_cons]
      omega

theorem runningNearer {place : Place} (runs : running place = true) : 0 < left place := by
  cases place <;> first | exact Nat.succ_pos _ | contradiction

theorem stepNearer {s t : State} {e : Event} (moved : step s e = some t) :
    toCome t + (if starts e then 0 else 1) ≤ toCome s + if starts e then 6 else 0 := by
  have others : ∀ {i : Nat} {m : Monitor} {place : Place}, starts e = false → s.monitors[i]? = some m →
      left place < left m.place → t.monitors = s.monitors.set i {m with place := place} →
      toCome t + (if starts e then 0 else 1) ≤ toCome s + if starts e then 6 else 0 := by
    intro i m place own here nearer monitors
    have counted := sumSet (fun m : Monitor => left m.place) here {m with place := place}
    unfold toCome
    dsimp only at counted
    rw [own,monitors]
    simp only [Bool.false_eq_true,if_false]
    omega
  cases lived moved with
  | starts group same monitors =>
    unfold toCome
    rw [same,monitors]
    simp [starts,left]
  | goes own here nearer _ _ monitors => exact others own here nearer monitors
  | locks own here at_lock _ monitors =>
    exact others own here (by rw [at_lock]; exact Nat.lt_succ_self _) monitors
  | @ends i m lines own here ran _ monitors =>
    have nearer : left (.ended (claim m.place)) < left m.place := runningNearer ran
    exact others own here nearer monitors

theorem runNearer {s t : State} {events : List Event} (run : Run step Anything s events t) :
    toCome t + events.countP (fun e => !starts e) ≤ toCome s + 6 * events.countP starts := by
  induction run with
  | done s => simp
  | @next s u t e events _ moved rest ih =>
    have nearer := stepNearer moved
    rw [List.countP_cons,List.countP_cons]
    cases own : starts e with
    | false =>
      rw [own] at nearer
      simp only [Bool.false_eq_true,if_false,Bool.not_false,if_true] at nearer ⊢
      omega
    | true =>
      rw [own] at nearer
      simp only [Bool.not_true,Bool.false_eq_true,if_false,if_true] at nearer ⊢
      omega

def Past (s : State) (i group : Nat) : Prop :=
  ∃ m, s.monitors[i]? = some m ∧ m.group = group ∧ locksPort m.place = true

def Held (s : State) : Prop := ∀ i group, Past s i group ↔ s.locked group = some i

theorem pastSet {s t : State} {i : Nat} {m : Monitor} {place : Place} (here : s.monitors[i]? = some m)
    (monitors : t.monitors = s.monitors.set i {m with place := place}) (j group : Nat) :
    Past t j group ↔
      (j = i ∧ m.group = group ∧ locksPort place = true) ∨ (j ≠ i ∧ Past s j group) := by
  obtain ⟨inside,_⟩ := List.getElem?_eq_some_iff.mp here
  unfold Past
  rw [monitors]
  by_cases same : i = j
  · subst same
    rw [List.getElem?_set_self inside]
    simp
  · rw [List.getElem?_set_ne same]
    simp [Ne.symm same]

theorem pastOwn {s : State} {i group : Nat} {m : Monitor} (here : s.monitors[i]? = some m) :
    Past s i group ↔ m.group = group ∧ locksPort m.place = true := by
  constructor
  · rintro ⟨n,there,own,locks⟩
    cases here.symm.trans there
    exact ⟨own,locks⟩
  · exact fun ⟨own,locks⟩ => ⟨m,here,own,locks⟩

theorem heldStarts {s t : State} {group : Nat} (held : Held s)
    (monitors : t.monitors = s.monitors ++ [⟨group,.connecting⟩]) (locked : t.locked = s.locked) :
    Held t := by
  intro i own
  rw [locked,← held i own]
  unfold Past
  rw [monitors,List.getElem?_append]
  split
  · rfl
  · rename_i outside
    have none : s.monitors[i]? = none := List.getElem?_eq_none (Nat.not_lt.mp outside)
    rw [none]
    constructor
    · rintro ⟨m,new,_,locks⟩
      have fresh := List.mem_singleton.mp (List.mem_of_getElem? new)
      rw [fresh] at locks
      contradiction
    · rintro ⟨m,absent,_⟩
      contradiction

theorem heldGoes {s t : State} {i : Nat} {m : Monitor} {place : Place} (held : Held s)
    (here : s.monitors[i]? = some m) (port : locksPort place = locksPort m.place)
    (monitors : t.monitors = s.monitors.set i {m with place := place}) (locked : t.locked = s.locked) :
    Held t := by
  intro j group
  rw [pastSet here monitors,locked,← held j group,port]
  by_cases same : j = i
  · subst same
    rw [pastOwn here]
    simp
  · simp [same]

theorem heldLocks {s t : State} {i : Nat} {m : Monitor} {location : String} (held : Held s)
    (here : s.monitors[i]? = some m) (at_lock : m.place = .lockingPort location)
    (free : s.locked m.group = none)
    (monitors : t.monitors = s.monitors.set i {m with place := .opening location})
    (locked : t.locked = fun group => if group = m.group then some i else s.locked group) : Held t := by
  intro j group
  rw [pastSet here monitors,locked]
  dsimp only
  have before : ¬ Past s i group := by
    rw [pastOwn here,at_lock]
    exact fun past => by cases past.2
  by_cases own : group = m.group
  · subst own
    rw [if_pos rfl]
    have nobody : ¬ Past s j m.group := by
      rw [held,free]
      exact fun same => by cases same
    simp [nobody,eq_comm,locksPort]
  · rw [if_neg own,← held j group]
    by_cases same : j = i
    · subst same
      simp [before,Ne.symm own]
    · simp [same]

theorem heldEnds {s t : State} {i : Nat} {m : Monitor} (held : Held s) (here : s.monitors[i]? = some m)
    (monitors : t.monitors = s.monitors.set i {m with place := .ended (claim m.place)})
    (locked : t.locked = released s m) : Held t := by
  intro j group
  rw [pastSet here monitors,locked]
  unfold released
  have gone : locksPort (.ended (claim m.place)) = false := rfl
  rw [gone]
  by_cases past : locksPort m.place = true
  · rw [if_pos past]
    have mine : s.locked m.group = some i := (held i m.group).mp ⟨m,here,rfl,past⟩
    by_cases own : group = m.group
    · subst own
      rw [if_pos rfl,held,mine]
      simp [eq_comm]
    · rw [if_neg own,← held j group]
      by_cases same : j = i
      · subst same
        rw [pastOwn here]
        simp [Ne.symm own]
      · simp [same]
  · rw [if_neg past,← held j group]
    by_cases same : j = i
    · subst same
      rw [pastOwn here]
      simp [past]
    · simp [same]

theorem heldKept {s t : State} {e : Event} (held : Held s) (moved : step s e = some t) : Held t := by
  cases lived moved with
  | starts group _ monitors _ locked => exact heldStarts held monitors locked
  | goes _ here _ _ port monitors _ locked => exact heldGoes held here port monitors locked
  | locks _ here at_lock free monitors _ locked => exact heldLocks held here at_lock free monitors locked
  | ends _ here _ _ monitors _ locked => exact heldEnds held here monitors locked

theorem idleHeld : Held idle := fun _ _ =>
  iff_of_false (fun ⟨_,here,_⟩ => by simp [idle] at here) (fun same => by cases same)

theorem runHeld {s : State} {events : List Event} (run : Run step Anything idle events s) : Held s :=
  runInvariant (fun _ _ _ held _ moved => heldKept held moved) run idleHeld

def crowding : List Event :=
  [.start 1,.start 1,.connect 0 none,.connect 1 none,.locate 0 (.ok "/dev/ttyACM0"),
    .locate 1 (.ok "/dev/ttyACM1"),.lockLocation 0 true,.lockLocation 1 true,.lockPort 0 true]

/-! Nothing waits for ever, even if the two locks had no time limit. -/
def Prompt : Event → Prop
  | .start _ => False
  | .lockLocation _ acquired => acquired = true
  | .lockPort _ acquired => acquired = true
  | _ => True

def Moves (s : State) : Prop := ∃ e t, Prompt e ∧ step s e = some t

theorem movesBy {s : State} {e : Event} (prompt : Prompt e) (goes : (step s e).isSome = true) :
    Moves s := by
  obtain ⟨t,moved⟩ := Option.isSome_iff_exists.mp goes
  exact ⟨e,t,prompt,moved⟩

theorem holderMoves {s : State} {i : Nat} {m : Monitor} (here : s.monitors[i]? = some m)
    (past : locksPort m.place = true) : Moves s := by
  cases place : m.place with
  | opening location => exact @movesBy s (.openPort i none) trivial (by simp [step,here,openPort,place])
  | asking location =>
    exact @movesBy s (.version i (.error "")) trivial (by simp [step,here,version,place])
  | _ =>
    rw [place] at past
    contradiction

theorem runningMoves {s : State} (held : Held s) {m : Monitor} (member : m ∈ s.monitors)
    (runs : running m.place = true) : Moves s := by
  obtain ⟨i,here⟩ := List.mem_iff_getElem?.mp member
  cases place : m.place with
  | connecting => exact @movesBy s (.connect i none) trivial (by simp [step,here,connect,place])
  | locating => exact @movesBy s (.locate i (.ok "")) trivial (by simp [step,here,locate,place])
  | lockingLocation location =>
    refine @movesBy s (.lockLocation i true) rfl ?_
    cases used : s.inUse location <;> simp [step,here,lockLocation,place,used]
  | lockingPort location =>
    cases holder : s.locked m.group with
    | none => exact @movesBy s (.lockPort i true) rfl (by simp [step,here,lockPort,place,holder])
    | some j =>
      obtain ⟨n,there,_,past⟩ := (held j m.group).mpr holder
      exact holderMoves there past
  | opening location => exact holderMoves here (by rw [place]; rfl)
  | asking location => exact holderMoves here (by rw [place]; rfl)
  | ended claimed =>
    rw [place] at runs
    contradiction

/- No monitor takes more than six steps, and as long as one of them runs some monitor can take
one, with no lock running into its time limit. -/
theorem monitorsEnd {s : State} {events : List Event} (run : Run step Anything idle events s) :
    events.countP (fun e => !starts e) ≤ 6 * events.countP starts ∧
    ∀ m ∈ s.monitors, running m.place = true → Moves s := by
  refine ⟨?_,fun m member runs => runningMoves (runHeld run) member runs⟩
  have nearer := runNearer run
  simp only [toCome,idle,List.map_nil,List.sum_nil] at nearer
  omega

theorem monitorsEndCrowding : ∃ s, Run step Anything idle crowding s ∧ Moves s ∧
    crowding.countP (fun e => !starts e) ≤ 6 * crowding.countP starts := by
  have run : ∃ s, crowding.foldlM step idle = some s ∧
      s.monitors[1]? = some ⟨1,.lockingPort "/dev/ttyACM1"⟩ := ⟨_,rfl,rfl⟩
  obtain ⟨s,run,waiting⟩ := run
  obtain ⟨few,moves⟩ := monitorsEnd (foldRun run)
  exact ⟨s,foldRun run,moves _ (List.mem_of_getElem? waiting) rfl,few⟩

end Chambermaid.DaemonLife
