import Chambermaid.Version
import Chambermaid.Runs

/-! The daemon's monitors, one thread a group. A monitor claims its serial port's
location in a table shared by all, under a mutex; each section under that mutex is one
step, and every other step of a monitor may fail. Nothing takes a claim back. The lock of
the group's own mutex is given back wherever the monitor leaves its try block. -/
namespace Chambermaid.Daemon
open Runs Version

-- From lockingPort on the location is claimed; that of an ended monitor is read by no step.
inductive Place where
  | connecting | locating | lockingLocation (location : String)
  | lockingPort (location : String) | opening (location : String) | asking (location : String)
  | ended (claimed : Option String)
  deriving DecidableEq, Repr

def claim : Place → Option String
  | .lockingPort location => some location
  | .opening location => some location
  | .asking location => some location
  | .ended claimed => claimed
  | _ => none

def running : Place → Bool
  | .ended _ => false
  | _ => true

def locksPort : Place → Bool
  | .opening _ => true
  | .asking _ => true
  | _ => false

structure Monitor where
  group : Nat
  place : Place
  deriving DecidableEq, Repr

-- locked: the monitor that holds the group's mutex. log: the lines each thread has streamed;
-- how the lines of several threads mix in the log is left out.
structure State where
  inUse : String → Bool
  locked : Nat → Option Nat
  monitors : List Monitor
  log : Nat → List String

def idle : State := ⟨fun _ => false,fun _ => none,[],fun _ => []⟩

inductive Event where
  | start (group : Nat)
  | connect (i : Nat) (failure : Option String)
  | locate (i : Nat) (answer : Except String String)
  | lockLocation (i : Nat) (acquired : Bool)
  | lockPort (i : Nat) (acquired : Bool)
  | openPort (i : Nat) (failure : Option String)
  | version (i : Nat) (answer : Except String (VersionCode × String))

def move (s : State) (i : Nat) (m : Monitor) (place : Place) (lines : List String) : State :=
  {s with
    monitors := s.monitors.set i {m with place := place}
    log := fun j => if j = i then s.log j ++ lines else s.log j}

def released (s : State) (m : Monitor) : Nat → Option Nat :=
  if locksPort m.place then fun group => if group = m.group then none else s.locked group
  else s.locked

def finish (s : State) (i : Nat) (m : Monitor) (lines : List String) : State :=
  {move s i m (.ended (claim m.place)) lines with locked := released s m}

-- operator<< streams a group_id_t as the byte that it is.
def groupByte (group : Nat) : String := String.singleton (Char.ofNat group)

-- The catch block.
def failed (s : State) (i : Nat) (m : Monitor) (what : String) : State :=
  finish s i m [what,"No longer monitoring Group " ++ groupByte m.group]

def trying (m : Monitor) (location : String) : String :=
  "Group " ++ toString m.group ++ " trying to access serial port " ++ location

def versionLines (version : VersionCode) (text : String) : List String :=
  ["Conntected to " ++ text] ++
    if less version (versionCode compatibleFwVersion) then
      ["Version " ++ String.ofList (toText version) ++ " below minimum of " ++
        String.ofList compatibleFwVersion ++ ", attempting upgrade"]
    else []

def zeroVersion : Digits.Text := ['0','.','0','.','0','.','0']

def connect (s : State) (i : Nat) (m : Monitor) (failure : Option String) : Option State :=
  match m.place with
  | .connecting => some (match failure with
    | some what => failed s i m what
    | none => move s i m .locating [])
  | _ => none

def locate (s : State) (i : Nat) (m : Monitor) (answer : Except String String) : Option State :=
  match m.place with
  | .locating => some (match answer with
    | .error what => failed s i m what
    | .ok location =>
      if location = "" then failed s i m "No serial port defined"
      else move s i m (.lockingLocation location) [])
  | _ => none

def lockLocation (s : State) (i : Nat) (m : Monitor) (acquired : Bool) : Option State :=
  match m.place with
  | .lockingLocation location =>
    if acquired then
      if s.inUse location then
        some (failed s i m (trying m location ++ ", but that port is already in use"))
      else some {move s i m (.lockingPort location) [] with
        inUse := fun l => if l = location then true else s.inUse l}
    else some (failed s i m (trying m location ++ ", failed to lock serial location mutex"))
  | _ => none

def lockPort (s : State) (i : Nat) (m : Monitor) (acquired : Bool) : Option State :=
  match m.place with
  | .lockingPort location =>
    if acquired then
      match s.locked m.group with
      | some _ => none
      | none => some {move s i m (.opening location) [] with
          locked := fun group => if group = m.group then some i else s.locked group}
    else some (failed s i m ("Group " ++ groupByte m.group ++
      " timed out while grabbing serial port lock\n"))
  | _ => none

def openPort (s : State) (i : Nat) (m : Monitor) (failure : Option String) : Option State :=
  match m.place with
  | .opening location => some (match failure with
    | some what => failed s i m what
    | none => move s i m (.asking location) [])
  | _ => none

def version (s : State) (i : Nat) (m : Monitor) (answer : Except String (VersionCode × String)) :
    Option State :=
  match m.place with
  | .asking location => some (match answer with
    | .error what => failed s i m what
    | .ok (found,text) =>
      if less found (versionCode zeroVersion) then
        finish s i m ["Could not connect to device at " ++ location]
      else finish s i m (versionLines found text))
  | _ => none

def step (s : State) : Event → Option State
  | .start group => some {s with monitors := s.monitors ++ [⟨group,.connecting⟩]}
  | .connect i failure => do connect s i (← s.monitors[i]?) failure
  | .locate i answer => do locate s i (← s.monitors[i]?) answer
  | .lockLocation i acquired => do lockLocation s i (← s.monitors[i]?) acquired
  | .lockPort i acquired => do lockPort s i (← s.monitors[i]?) acquired
  | .openPort i failure => do openPort s i (← s.monitors[i]?) failure
  | .version i answer => do version s i (← s.monitors[i]?) answer

def ClaimedBy (s : State) (i : Nat) (location : String) : Prop :=
  ∃ m, s.monitors[i]? = some m ∧ claim m.place = some location

def HeldBy (s : State) (i : Nat) (location : String) : Prop :=
  ∃ m, s.monitors[i]? = some m ∧ running m.place = true ∧ claim m.place = some location

def Owned (s : State) : Prop := ∀ location, s.inUse location = true ↔ ∃! i, HeldBy s i location

def NoneLeft (s : State) : Prop := ∀ m ∈ s.monitors, running m.place = false → claim m.place = none

def Careful (_ : State) : Event → Prop
  | .lockPort _ acquired => acquired = true
  | .openPort _ failure => failure = none
  | .version _ _ => False
  | _ => True

def Owning (s : State) (e : Event) : Prop := ∀ t, step s e = some t → Owned t

/-! What a step can do: a monitor starts, claims a port nobody claimed, or moves on
with the claim it has. -/
inductive Stepped (s : State) (e : Event) : State → Prop where
  | starts (group : Nat) (careful : Careful s e) :
      Stepped s e {s with monitors := s.monitors ++ [⟨group,.connecting⟩]}
  | claims {i : Nat} {m : Monitor} {location : String} (here : s.monitors[i]? = some m)
      (unclaimed : claim m.place = none) (free : s.inUse location = false) (careful : Careful s e) :
      Stepped s e {move s i m (.lockingPort location) [] with
        inUse := fun l => if l = location then true else s.inUse l}
  | moves {i : Nat} {m : Monitor} {place : Place} {lines : List String} {locked : Nat → Option Nat}
      (here : s.monitors[i]? = some m) (same : claim place = claim m.place)
      (exactly : Careful s e ↔ (running place = false → claim place = none)) :
      Stepped s e {move s i m place lines with locked := locked}

theorem leaveUnclaimed {s : State} {e : Event} {i : Nat} {m : Monitor}
    (here : s.monitors[i]? = some m) (careful : Careful s e) (none : claim m.place = none)
    (lines : List String) : Stepped s e (finish s i m lines) :=
  .moves here rfl (iff_of_true careful fun _ => none)

theorem leaveClaimed {s : State} {e : Event} {i : Nat} {m : Monitor} {location : String}
    (here : s.monitors[i]? = some m) (careless : ¬ Careful s e)
    (claimed : claim m.place = some location) (lines : List String) :
    Stepped s e (finish s i m lines) := by
  refine .moves here rfl (iff_of_false careless fun left => ?_)
  have none : claim m.place = none := left rfl
  rw [claimed] at none
  contradiction

theorem connectStepped {s t : State} {i : Nat} {m : Monitor} {failure : Option String}
    (here : s.monitors[i]? = some m) (moved : connect s i m failure = some t) :
    Stepped s (.connect i failure) t := by
  unfold connect at moved
  split at moved
  · rename_i place
    have none : claim m.place = none := by rw [place]; rfl
    have careful : Careful s (.connect i failure) := trivial
    cases moved
    cases failure with
    | some what => exact leaveUnclaimed here careful none _
    | none => exact .moves here none.symm (iff_of_true trivial fun _ => rfl)
  · contradiction

theorem locateStepped {s t : State} {i : Nat} {m : Monitor} {answer : Except String String}
    (here : s.monitors[i]? = some m) (moved : locate s i m answer = some t) :
    Stepped s (.locate i answer) t := by
  unfold locate at moved
  split at moved
  · rename_i place
    have none : claim m.place = none := by rw [place]; rfl
    have careful : Careful s (.locate i answer) := trivial
    cases moved
    cases answer with
    | error what => exact leaveUnclaimed here careful none _
    | ok location =>
      dsimp only
      split
      · exact leaveUnclaimed here careful none _
      · exact .moves here none.symm (iff_of_true trivial fun _ => rfl)
  · contradiction

theorem lockLocationStepped {s t : State} {i : Nat} {m : Monitor} {acquired : Bool}
    (here : s.monitors[i]? = some m) (moved : lockLocation s i m acquired = some t) :
    Stepped s (.lockLocation i acquired) t := by
  unfold lockLocation at moved
  split at moved
  · rename_i location place
    have none : claim m.place = none := by rw [place]; rfl
    have careful : Careful s (.lockLocation i acquired) := trivial
    split at moved
    · split at moved
      · cases moved
        exact leaveUnclaimed here careful none _
      · rename_i free
        cases moved
        exact .claims here none (Bool.not_eq_true _ ▸ free) trivial
    · cases moved
      exact leaveUnclaimed here careful none _
  · contradiction

theorem lockPortStepped {s t : State} {i : Nat} {m : Monitor} {acquired : Bool}
    (here : s.monitors[i]? = some m) (moved : lockPort s i m acquired = some t) :
    Stepped s (.lockPort i acquired) t := by
  unfold lockPort at moved
  split at moved
  · rename_i location place
    have claimed : claim m.place = some location := by rw [place]; rfl
    split at moved
    · rename_i acquires
      split at moved
      · contradiction
      · cases moved
        exact .moves here claimed.symm (iff_of_true acquires fun ended => by contradiction)
    · rename_i timedOut
      cases moved
      have careless : ¬ Careful s (.lockPort i acquired) := timedOut
      exact leaveClaimed here careless claimed _
  · contradiction

theorem openPortStepped {s t : State} {i : Nat} {m : Monitor} {failure : Option String}
    (here : s.monitors[i]? = some m) (moved : openPort s i m failure = some t) :
    Stepped s (.openPort i failure) t := by
  unfold openPort at moved
  split at moved
  · rename_i location place
    have claimed : claim m.place = some location := by rw [place]; rfl
    cases moved
    cases failure with
    | some what =>
      have careless : ¬ Careful s (.openPort i (some what)) := Option.some_ne_none what
      exact leaveClaimed here careless claimed _
    | none => exact .moves here claimed.symm (iff_of_true rfl fun ended => by contradiction)
  · contradiction

theorem versionStepped {s t : State} {i : Nat} {m : Monitor}
    {answer : Except String (VersionCode × String)} (here : s.monitors[i]? = some m)
    (moved : version s i m answer = some t) : Stepped s (.version i answer) t := by
  unfold version at moved
  split at moved
  · rename_i location place
    have claimed : claim m.place = some location := by rw [place]; rfl
    have careless : ¬ Careful s (.version i answer) := id
    cases moved
    cases answer with
    | error what => exact leaveClaimed here careless claimed _
    | ok found =>
      obtain ⟨found,text⟩ := found
      dsimp only
      split
      · exact leaveClaimed here careless claimed _
      · exact leaveClaimed here careless claimed _
  · contradiction

theorem stepped {s t : State} {e : Event} (moved : step s e = some t) : Stepped s e t := by
  cases e with
  | start group =>
    cases moved
    exact .starts group trivial
  | connect i failure =>
    obtain ⟨m,here,moved⟩ := Option.bind_eq_some_iff.mp moved
    exact connectStepped here moved
  | locate i answer =>
    obtain ⟨m,here,moved⟩ := Option.bind_eq_some_iff.mp moved
    exact locateStepped here moved
  | lockLocation i acquired =>
    obtain ⟨m,here,moved⟩ := Option.bind_eq_some_iff.mp moved
    exact lockLocationStepped here moved
  | lockPort i acquired =>
    obtain ⟨m,here,moved⟩ := Option.bind_eq_some_iff.mp moved
    exact lockPortStepped here moved
  | openPort i failure =>
    obtain ⟨m,here,moved⟩ := Option.bind_eq_some_iff.mp moved
    exact openPortStepped here moved
  | version i answer =>
    obtain ⟨m,here,moved⟩ := Option.bind_eq_some_iff.mp moved
    exact versionStepped here moved

structure Counted (s : State) : Prop where
  table : ∀ location, s.inUse location = true ↔ ∃ i, ClaimedBy s i location
  single : ∀ location i j, ClaimedBy s i location → ClaimedBy s j location → i = j

theorem movedAt {s : State} {i : Nat} {m : Monitor} (here : s.monitors[i]? = some m) (place : Place)
    (lines : List String) (j : Nat) : (move s i m place lines).monitors[j]? =
      if i = j then some {m with place := place} else s.monitors[j]? := by
  have inside := (List.getElem?_eq_some_iff.mp here).1
  simp only [move,List.getElem?_set,inside,if_true]

theorem movedClaims {s : State} {i : Nat} {m : Monitor} (here : s.monitors[i]? = some m)
    (place : Place) (lines : List String) (j : Nat) (location : String) :
    ClaimedBy (move s i m place lines) j location ↔
      (j = i ∧ claim place = some location) ∨ (j ≠ i ∧ ClaimedBy s j location) := by
  unfold ClaimedBy
  rw [movedAt here]
  by_cases own : i = j
  · subst own
    simp
  · simp [own,Ne.symm own]

theorem startedClaims {s : State} {group : Nat} (j : Nat) (location : String) :
    ClaimedBy {s with monitors := s.monitors ++ [⟨group,.connecting⟩]} j location ↔
      ClaimedBy s j location := by
  unfold ClaimedBy
  constructor
  · rintro ⟨m,here,claimed⟩
    rw [List.getElem?_append] at here
    split at here
    · exact ⟨m,here,claimed⟩
    · have same := List.mem_singleton.mp (List.mem_of_getElem? here)
      subst same
      contradiction
  · rintro ⟨m,here,claimed⟩
    have inside := (List.getElem?_eq_some_iff.mp here).1
    exact ⟨m,(List.getElem?_append_left inside).trans here,claimed⟩

theorem sameCounted {s t : State} (counted : Counted s) (table : t.inUse = s.inUse)
    (claims : ∀ j location, ClaimedBy t j location ↔ ClaimedBy s j location) : Counted t := by
  obtain ⟨listed,single⟩ := counted
  refine ⟨?_,?_⟩
  · intro location
    simp only [table,claims,listed]
  · intro location i j
    simp only [claims]
    exact single location i j

theorem countedKept {s t : State} {e : Event} (counted : Counted s) (moved : step s e = some t) :
    Counted t := by
  cases stepped moved with
  | starts group _ => exact sameCounted counted rfl startedClaims
  | @moves i m place lines locked here same _ =>
    refine sameCounted counted rfl ?_
    intro j location
    refine (movedClaims here place lines j location).trans ?_
    rw [same]
    by_cases own : j = i
    · subst own
      simp [ClaimedBy,here]
    · simp [own]
  | @claims i m location here unclaimed free _ =>
    obtain ⟨table,single⟩ := counted
    have nobody : ∀ j, ¬ ClaimedBy s j location := by
      intro j claimed
      have used := (table location).mpr ⟨j,claimed⟩
      rw [free] at used
      contradiction
    have idle : ∀ l, ¬ ClaimedBy s i l := by
      rintro l ⟨n,there,claimed⟩
      cases Option.some.inj (here.symm.trans there)
      rw [unclaimed] at claimed
      contradiction
    have claims : ∀ j l, ClaimedBy (move s i m (.lockingPort location) []) j l ↔
        (j = i ∧ location = l) ∨ ClaimedBy s j l := by
      intro j l
      rw [movedClaims here]
      by_cases own : j = i
      · subst own
        simp [claim,idle]
      · simp [own]
    refine ⟨?_,?_⟩
    · intro l
      change (if l = location then true else s.inUse l) = true ↔
        ∃ j, ClaimedBy (move s i m (.lockingPort location) []) j l
      simp only [claims]
      by_cases own : l = location
      · subst own
        simp
      · simp only [own,if_false,table,Ne.symm own,and_false,false_or]
    · intro l j k
      change ClaimedBy (move s i m (.lockingPort location) []) j l →
        ClaimedBy (move s i m (.lockingPort location) []) k l → j = k
      simp only [claims]
      rintro (⟨rfl,rfl⟩ | first) (⟨rfl,same⟩ | second)
      · rfl
      · exact absurd second (nobody k)
      · exact absurd (same ▸ first) (nobody j)
      · exact single l j k first second

theorem ownedExactly {s : State} (counted : Counted s) : Owned s ↔ NoneLeft s := by
  obtain ⟨table,single⟩ := counted
  have held : ∀ {i location}, HeldBy s i location → ClaimedBy s i location :=
    fun ⟨m,here,_,claimed⟩ => ⟨m,here,claimed⟩
  constructor
  · intro owned m member left
    by_contra some
    obtain ⟨location,claimed⟩ := Option.ne_none_iff_exists'.mp some
    obtain ⟨i,here⟩ := List.mem_iff_getElem?.mp member
    -- whoever runs with this location would be the monitor that has left
    obtain ⟨j,holds,_⟩ := (owned location).mp ((table location).mpr ⟨i,m,here,claimed⟩)
    cases single location i j ⟨m,here,claimed⟩ (held holds)
    obtain ⟨n,there,runs,_⟩ := holds
    cases Option.some.inj (here.symm.trans there)
    rw [left] at runs
    contradiction
  · intro none location
    rw [table]
    constructor
    · rintro ⟨i,m,here,claimed⟩
      have runs : running m.place = true := by
        by_contra stopped
        have left := none m (List.mem_of_getElem? here) (Bool.not_eq_true _ ▸ stopped)
        rw [claimed] at left
        contradiction
      exact ⟨i,⟨m,here,runs,claimed⟩,fun j holds => single location j i (held holds) ⟨m,here,claimed⟩⟩
    · rintro ⟨i,holds,_⟩
      exact ⟨i,held holds⟩

theorem noneLeftKept {s t : State} {e : Event} (none : NoneLeft s) (moved : step s e = some t) :
    Careful s e ↔ NoneLeft t := by
  have placed : ∀ {i : Nat} {m : Monitor} {place : Place} {lines : List String},
      s.monitors[i]? = some m → ((running place = false → claim place = Option.none) ↔
        NoneLeft (move s i m place lines)) := by
    intro i m place lines here
    have inside := (List.getElem?_eq_some_iff.mp here).1
    constructor
    · intro keeps n member left
      rcases List.mem_or_eq_of_mem_set member with old | rfl
      · exact none n old left
      · exact keeps left
    · intro after left
      exact after {m with place := place} (List.mem_set inside _) left
  cases stepped moved with
  | starts group careful =>
    refine iff_of_true careful ?_
    intro m member left
    rcases List.mem_append.mp member with old | new
    · exact none m old left
    · cases List.mem_singleton.mp new
      rfl
  | @moves i m place lines locked here same exactly => exact exactly.trans (@placed i m place lines here)
  | @claims i m location here unclaimed free careful =>
    have stays : NoneLeft (move s i m (.lockingPort location) []) :=
      (placed here).mp fun left => by contradiction
    exact iff_of_true careful stays

theorem owningExactly {s t : State} {e : Event} (counted : Counted s) (none : NoneLeft s)
    (moved : step s e = some t) : Careful s e ↔ Owning s e := by
  rw [noneLeftKept none moved,← ownedExactly (countedKept counted moved)]
  exact afterStep (Q := Owned) moved

theorem idleCounted : Counted idle := by
  have nobody : ∀ {i location}, ¬ ClaimedBy idle i location := by
    rintro i location ⟨m,here,_⟩
    simp [idle] at here
  refine ⟨fun location => ?_,fun _ _ _ claimed => absurd claimed nobody⟩
  exact iff_of_false (by simp [idle]) (fun ⟨_,claimed⟩ => nobody claimed)

theorem idleNoneLeft : NoneLeft idle := by simp [NoneLeft,idle]

theorem portsOwned (events : List Event) (s : State) :
    (Run step Careful idle events s ↔ Run step Owning idle events s) ∧
    (Run step Careful idle events s → Owned s) ∧
    (Run step Anything idle events s → (Owned s ↔ NoneLeft s) ∧
      ∀ location i j, HeldBy s i location → HeldBy s j location → i = j) := by
  have kept : ∀ s e t, Counted s ∧ NoneLeft s → Careful s e → step s e = some t →
      Counted t ∧ NoneLeft t :=
    fun _ _ _ ⟨counted,stayed⟩ careful moved =>
      ⟨countedKept counted moved,(noneLeftKept stayed moved).mp careful⟩
  refine ⟨?_,?_,?_⟩
  · exact runRelabel (P := fun s => Counted s ∧ NoneLeft s)
      (fun _ _ _ ⟨counted,stayed⟩ moved => owningExactly counted stayed moved) kept
      ⟨idleCounted,idleNoneLeft⟩
  · intro run
    obtain ⟨counted,stayed⟩ := runInvariant kept run ⟨idleCounted,idleNoneLeft⟩
    exact (ownedExactly counted).mpr stayed
  · intro run
    have counted := runInvariant (fun _ _ _ counted _ moved => countedKept counted moved) run
      idleCounted
    refine ⟨ownedExactly counted,?_⟩
    rintro location i j ⟨m,here,_,first⟩ ⟨n,there,_,second⟩
    exact counted.single location i j ⟨m,here,first⟩ ⟨n,there,second⟩

def leaving : List Event :=
  [.start 1,.connect 0 none,.locate 0 (.ok "/dev/ttyACM0"),.lockLocation 0 true,.lockPort 0 true,
    .openPort 0 none,.version 0 (.error "Timeout")]

def returning : List Event :=
  [.start 1,.connect 1 none,.locate 1 (.ok "/dev/ttyACM0"),.lockLocation 1 true]

theorem portLeaked : ∃ s t, Run step Anything idle leaving s ∧ Run step Anything s returning t ∧
    ¬ Owned s ∧ t.monitors = [⟨1,.ended (some "/dev/ttyACM0")⟩,⟨1,.ended none⟩] := by
  refine ⟨_,_,.next trivial rfl (.next trivial rfl (.next trivial rfl (.next trivial rfl (.next trivial
    rfl (.next trivial rfl (.next trivial rfl (.done _))))))),.next trivial rfl (.next trivial rfl
      (.next trivial rfl (.next trivial rfl (.done _)))),?_,rfl⟩
  intro owned
  obtain ⟨i,⟨m,here,runs,_⟩,_⟩ := (owned "/dev/ttyACM0").mp rfl
  cases List.mem_singleton.mp (List.mem_of_getElem? here)
  contradiction

end Chambermaid.Daemon
