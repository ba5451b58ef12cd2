import Chambermaid.DaemonLife
import Chambermaid.GroupPort
import Chambermaid.Keyed

/-! How the daemon starts. Every group's lines on the display are set and a monitor is
started for it, until something throws; what was done by then stays. -/
namespace Chambermaid.DaemonStart
open Keyed

structure LcdRow where
  groupId : Nat
  lcdLine1 : String
  lcdLine2 : String
  lcdLine3 : String
  lcdLine4 : String
  deriving DecidableEq, Repr

structure Trouble where
  selecting : Option String
  writing : Option String
  starting : Option String
  deriving DecidableEq, Repr

def Trouble.free : Trouble := ⟨none,none,none⟩

structure Started where
  lcd : List LcdRow
  monitors : List Nat
  deriving DecidableEq, Repr

-- What a VARCHAR column makes of a text, or the message with which it refuses it.
variable (varchar : String → Except String String)

def startingUp (groupId : Nat) : Except String LcdRow := do
  let line1 ← varchar "Daemon starting up"
  let line2 ← varchar ""
  let line3 ← varchar ""
  let line4 ← varchar ""
  .ok ⟨groupId,line1,line2,line3,line4⟩

-- What the UPDATE sets: the lines, and never the group.
def LcdRow.setLines (row lines : LcdRow) : LcdRow := {lines with groupId := row.groupId}

def writeLines (lcd : List LcdRow) (groupId : Nat) : Except String (List LcdRow) := do
  let lines ← startingUp varchar groupId
  if (lcd.filter fun row => decide (row.groupId = groupId)).isEmpty then .ok (lcd ++ [lines])
  else .ok (lcd.map fun row => if row.groupId = groupId then row.setLines lines else row)

def initGroup (trouble : Trouble) (s : Started) (groupId : Nat) : Started × Option String :=
  match trouble.selecting with
  | some what => (s,some what)
  | none => match trouble.writing with
    | some what => (s,some what)
    | none => match writeLines varchar s.lcd groupId with
      | .error what => (s,some what)
      | .ok lcd => match trouble.starting with
        | some what => ({s with lcd := lcd},some what)
        | none => (⟨lcd,s.monitors ++ [groupId]⟩,none)

-- The groups are the primary keys of their table, in the order in which the database gives them.
def initLcdLines (trouble : Nat → Trouble) : Started → List Nat → Started × Option String
  | s,[] => (s,none)
  | s,groupId::groups => match initGroup varchar (trouble groupId) s groupId with
    | (t,some what) => (t,some what)
    | (t,none) => initLcdLines trouble t groups

-- main from there on.
def exits : Option String → Nat × String
  | some what => (1,"Exiting due to error: " ++ what ++ "\n")
  | none => (0,"")

def Takes (line1 blank : String) : Prop :=
  varchar "Daemon starting up" = .ok line1 ∧ varchar "" = .ok blank

def shown (line1 blank : String) (groupId : Nat) : LcdRow := ⟨groupId,line1,blank,blank,blank⟩

variable {varchar}

theorem takesLines {line1 blank : String} (takes : Takes varchar line1 blank) (lcd : List LcdRow)
    (groupId : Nat) :
    writeLines varchar lcd groupId = .ok (put LcdRow.groupId (shown line1 blank groupId) lcd) := by
  have lines : startingUp varchar groupId = .ok (shown line1 blank groupId) := by
    unfold startingUp
    rw [takes.1,takes.2]
    rfl
  have changed : (fun row : LcdRow => if row.groupId = groupId then
      row.setLines (shown line1 blank groupId) else row) =
        fun row => if row.groupId = groupId then shown line1 blank groupId else row := by
    funext row
    split
    · rename_i same
      unfold LcdRow.setLines
      rw [same]
      rfl
    · rfl
  unfold writeLines put withKey
  rw [lines]
  dsimp only [bind,Except.bind]
  rw [changed,apply_ite Except.ok]
  rfl

/-! How far a start comes: through all the groups, or to one whose lines may be set but for
which no monitor is started. -/
inductive Comes (lines : Nat → LcdRow) (s : Started) (groups : List Nat) (t : Started) :
    Option String → Prop where
  | through (monitors : t.monitors = s.monitors ++ groups)
      (lcd : t.lcd = putAll LcdRow.groupId (groups.map lines) s.lcd) : Comes lines s groups t none
  | stops (before after : List Nat) (groupId : Nat) {what : String}
      (split : groups = before ++ groupId::after) (monitors : t.monitors = s.monitors ++ before)
      (lcd : t.lcd = putAll LcdRow.groupId (before.map lines) s.lcd ∨
        t.lcd = putAll LcdRow.groupId ((before ++ [groupId]).map lines) s.lcd) :
      Comes lines s groups t (some what)

theorem comesNext {lines : Nat → LcdRow} {s t : Started} {groupId : Nat} {groups : List Nat}
    {thrown : Option String}
    (later : Comes lines ⟨put LcdRow.groupId (lines groupId) s.lcd,s.monitors ++ [groupId]⟩ groups t
      thrown) : Comes lines s (groupId::groups) t thrown := by
  cases later with
  | through monitors lcd => exact .through (by rw [monitors]; simp) lcd
  | stops before after last split monitors lcd =>
    exact .stops (groupId::before) after last (by rw [split]; rfl) (by rw [monitors]; simp) lcd

theorem comes {line1 blank : String} (takes : Takes varchar line1 blank) (trouble : Nat → Trouble)
    (s : Started) (groups : List Nat) : Comes (shown line1 blank) s groups
      (initLcdLines varchar trouble s groups).1 (initLcdLines varchar trouble s groups).2 := by
  induction groups generalizing s with
  | nil => exact .through (List.append_nil _).symm rfl
  | cons groupId groups ih =>
    unfold initLcdLines initGroup
    rw [takesLines takes]
    rcases (trouble groupId).selecting with _ | what
    · rcases (trouble groupId).writing with _ | what
      · rcases (trouble groupId).starting with _ | what
        · exact comesNext (ih _)
        · exact .stops [] groups groupId rfl (List.append_nil _).symm (.inr rfl)
      · exact .stops [] groups groupId rfl (List.append_nil _).symm (.inl rfl)
    · exact .stops [] groups groupId rfl (List.append_nil _).symm (.inl rfl)

theorem comesFree {line1 blank : String} (takes : Takes varchar line1 blank) (s : Started)
    (groups : List Nat) : initLcdLines varchar (fun _ => .free) s groups =
      (⟨putAll LcdRow.groupId (groups.map (shown line1 blank)) s.lcd,s.monitors ++ groups⟩,none) := by
  induction groups generalizing s with
  | nil => simp [initLcdLines,putAll]
  | cons groupId groups ih =>
    unfold initLcdLines initGroup
    rw [takesLines takes]
    have next := ih ⟨put LcdRow.groupId (shown line1 blank groupId) s.lcd,s.monitors ++ [groupId]⟩
    rw [List.append_assoc] at next
    exact next

def afterStarts (varchar : String → Except String String) (groups : List Nat) :
    List (Nat → Trouble) → List LcdRow → List LcdRow
  | [],lcd => lcd
  | trouble::troubles,lcd =>
    afterStarts varchar groups troubles (initLcdLines varchar trouble ⟨lcd,[]⟩ groups).1.lcd

theorem linesAgree (line1 blank : String) (groups : List Nat) :
    Agree LcdRow.groupId (groups.map (shown line1 blank)) := by
  intro x left y right same
  obtain ⟨i,_,rfl⟩ := List.mem_map.mp left
  obtain ⟨j,_,rfl⟩ := List.mem_map.mp right
  rw [show i = j from same]

theorem partAgain (line1 blank : String) (before after : List Nat) (lcd : List LcdRow) :
    putAll LcdRow.groupId ((before ++ after).map (shown line1 blank))
      (putAll LcdRow.groupId (before.map (shown line1 blank)) lcd) =
    putAll LcdRow.groupId ((before ++ after).map (shown line1 blank)) lcd := by
  have agree := linesAgree line1 blank (before ++ after)
  rw [List.map_append] at agree ⊢
  exact putAllAgain agree lcd

theorem startAgain {line1 blank : String} (takes : Takes varchar line1 blank) (trouble : Nat → Trouble)
    (lcd : List LcdRow) (groups : List Nat) :
    putAll LcdRow.groupId (groups.map (shown line1 blank))
      (initLcdLines varchar trouble ⟨lcd,[]⟩ groups).1.lcd =
    putAll LcdRow.groupId (groups.map (shown line1 blank)) lcd := by
  have comes := comes takes trouble ⟨lcd,[]⟩ groups
  generalize (initLcdLines varchar trouble ⟨lcd,[]⟩ groups).2 = thrown at comes
  rcases comes with ⟨_,all⟩ | ⟨before,after,groupId,split,_,part⟩
  · have whole := partAgain line1 blank groups [] lcd
    rw [List.append_nil] at whole
    rw [all,whole]
  · rcases part with part | part
    · rw [part,split,partAgain]
    · rw [part,split,List.append_cons,partAgain]

theorem startsAgain {line1 blank : String} (takes : Takes varchar line1 blank)
    (troubles : List (Nat → Trouble)) (lcd : List LcdRow) (groups : List Nat) :
    putAll LcdRow.groupId (groups.map (shown line1 blank)) (afterStarts varchar groups troubles lcd) =
      putAll LcdRow.groupId (groups.map (shown line1 blank)) lcd := by
  induction troubles generalizing lcd with
  | nil => rfl
  | cons trouble troubles ih =>
    unfold afterStarts
    rw [ih,startAgain takes]

theorem groupShown (line1 blank : String) {lcd : List LcdRow} (unique : (lcd.map LcdRow.groupId).Nodup)
    {groups : List Nat} {groupId : Nat} (member : groupId ∈ groups) :
    withKey LcdRow.groupId groupId (putAll LcdRow.groupId (groups.map (shown line1 blank)) lcd) =
      [shown line1 blank groupId] :=
  settledOnly (putAllSettles (linesAgree line1 blank groups) (List.mem_map.mpr ⟨groupId,member,rfl⟩) lcd)
    (putAllUnique unique)

theorem groupKept (line1 blank : String) (lcd : List LcdRow) {groups : List Nat} {groupId : Nat}
    (absent : groupId ∉ groups) :
    withKey LcdRow.groupId groupId (putAll LcdRow.groupId (groups.map (shown line1 blank)) lcd) =
      withKey LcdRow.groupId groupId lcd := by
  refine putAllOthers (fun x member same => ?_) lcd
  obtain ⟨g,there,rfl⟩ := List.mem_map.mp member
  rw [same] at absent
  exact absent there

theorem restarted {line1 blank : String} (takes : Takes varchar line1 blank)
    (troubles : List (Nat → Trouble)) {lcd : List LcdRow}
    (unique : (lcd.map LcdRow.groupId).Nodup) (groups : List Nat) :
    ∃ t, initLcdLines varchar (fun _ => .free) ⟨lcd,[]⟩ groups = (t,none) ∧
      initLcdLines varchar (fun _ => .free) ⟨afterStarts varchar groups troubles lcd,[]⟩ groups =
        (t,none) ∧
      t.monitors = groups ∧ (t.lcd.map LcdRow.groupId).Nodup ∧
      (∀ groupId ∈ groups, withKey LcdRow.groupId groupId t.lcd = [shown line1 blank groupId]) ∧
      ∀ groupId ∉ groups, withKey LcdRow.groupId groupId t.lcd = withKey LcdRow.groupId groupId lcd := by
  refine ⟨_,comesFree takes ⟨lcd,[]⟩ groups,?_,List.nil_append _,putAllUnique unique,?_,?_⟩
  · rw [comesFree takes,startsAgain takes]
  · exact fun groupId member => groupShown line1 blank unique member
  · exact fun groupId absent => groupKept line1 blank lcd absent

def cut (text : String) : Except String String := .ok (String.ofList (text.toList.take 16))

def badStarts : List (Nat → Trouble) :=
  [fun groupId => if groupId = 2 then ⟨none,none,some "thread"⟩ else .free,
    fun _ => ⟨some "gone",none,none⟩]

theorem restartedCut : ∃ t, initLcdLines cut (fun _ => .free) ⟨[⟨3,"a","","",""⟩],[]⟩ [1,2] = (t,none) ∧
    initLcdLines cut (fun _ => .free) ⟨afterStarts cut [1,2] badStarts [⟨3,"a","","",""⟩],[]⟩ [1,2] =
      (t,none) ∧ t.monitors = [1,2] := by
  obtain ⟨t,first,last,monitors,_⟩ := @restarted cut "Daemon starting " "" ⟨rfl,rfl⟩
    badStarts [⟨3,"a","","",""⟩] (by decide) [1,2]
  exact ⟨t,first,last,monitors⟩

def Strict (varchar : String → Except String String) : Prop :=
  ∀ text : String, 16 < text.length → ∃ what, varchar text = .error what

theorem strictStops (strict : Strict varchar) (trouble : Nat → Trouble) (s : Started)
    {groups : List Nat} (any : groups ≠ []) :
    ∃ what, initLcdLines varchar trouble s groups = (s,some what) := by
  obtain ⟨refused,long⟩ := strict "Daemon starting up" (by decide)
  cases groups with
  | nil => contradiction
  | cons groupId groups =>
    unfold initLcdLines initGroup writeLines startingUp
    rw [long]
    rcases (trouble groupId).selecting with _ | what
    · rcases (trouble groupId).writing with _ | what
      · exact ⟨refused,rfl⟩
      · exact ⟨what,rfl⟩
    · exact ⟨what,rfl⟩

theorem strictNever (strict : Strict varchar) (troubles : List (Nat → Trouble)) (trouble : Nat → Trouble)
    (lcd : List LcdRow) {groups : List Nat} (any : groups ≠ []) :
    afterStarts varchar groups troubles lcd = lcd ∧
    (exits (initLcdLines varchar trouble ⟨afterStarts varchar groups troubles lcd,[]⟩ groups).2).1 = 1 ∧
    (initLcdLines varchar trouble ⟨afterStarts varchar groups troubles lcd,[]⟩ groups).1.monitors =
      [] := by
  have same : afterStarts varchar groups troubles lcd = lcd := by
    induction troubles with
    | nil => rfl
    | cons trouble troubles ih =>
      obtain ⟨what,stops⟩ := strictStops strict trouble ⟨lcd,[]⟩ any
      unfold afterStarts
      rw [stops,ih]
  obtain ⟨what,stops⟩ := strictStops strict trouble ⟨lcd,[]⟩ any
  rw [same,stops]
  exact ⟨rfl,rfl,rfl⟩

def tooLong (text : String) : Except String String :=
  if text.length ≤ 16 then .ok text else .error "Data too long"

theorem strictNeverTooLong : afterStarts tooLong [1] badStarts [] = [] ∧
    (exits (initLcdLines tooLong (fun _ => .free) ⟨afterStarts tooLong [1] badStarts [],[]⟩ [1]).2).1 = 1 ∧
    (initLcdLines tooLong (fun _ => .free) ⟨afterStarts tooLong [1] badStarts [],[]⟩ [1]).1.monitors = [] :=
  strictNever (fun _ long => ⟨"Data too long",if_neg (Nat.not_le.mpr long)⟩) badStarts _ []
    (List.cons_ne_nil 1 [])

section Monitors
open Runs Daemon DaemonLife GroupPort

def startedGroup : Event → Option Nat
  | .start group => some group
  | _ => none

theorem groupsSet {monitors : List Monitor} {i : Nat} {m : Monitor} (here : monitors[i]? = some m)
    (place : Place) : (monitors.set i {m with place := place}).map Monitor.group =
      monitors.map Monitor.group := by
  obtain ⟨low,rfl⟩ := List.getElem?_eq_some_iff.mp here
  have inside : i < (monitors.map Monitor.group).length := by simpa using low
  have kept := List.set_getElem_self inside
  rw [List.getElem_map] at kept
  rw [List.map_set]
  exact kept

theorem groupsStep {s t : State} {e : Event} (moved : step s e = some t) :
    t.monitors.map Monitor.group = s.monitors.map Monitor.group ++ (startedGroup e).toList := by
  have others : starts e = false → (startedGroup e).toList = [] := by
    intro other
    cases e <;> first | rfl | contradiction
  cases lived moved with
  | starts group same monitors _ =>
    subst same
    rw [monitors,List.map_append]
    rfl
  | goes own here _ _ _ monitors => rw [monitors,groupsSet here,others own,List.append_nil]
  | locks own here _ _ monitors => rw [monitors,groupsSet here,others own,List.append_nil]
  | ends own here _ _ monitors => rw [monitors,groupsSet here,others own,List.append_nil]

theorem groupsRun {s t : State} {events : List Event} (run : Run step Anything s events t) :
    t.monitors.map Monitor.group = s.monitors.map Monitor.group ++ events.filterMap startedGroup := by
  induction run with
  | done s => exact (List.append_nil _).symm
  | @next s u t e events _ moved _ ih =>
    rw [ih,groupsStep moved,List.append_assoc]
    cases started : startedGroup e with
    | none => rw [List.filterMap_cons_none started]; rfl
    | some group => rw [List.filterMap_cons_some started]; rfl

theorem monitorsPrefix (trouble : Nat → Trouble) (s : Started) (groups : List Nat) :
    ∃ done, done <+: groups ∧
      (initLcdLines varchar trouble s groups).1.monitors = s.monitors ++ done := by
  induction groups generalizing s with
  | nil => exact ⟨[],List.prefix_refl _,(List.append_nil _).symm⟩
  | cons groupId groups ih =>
    have stops : ∃ done, done <+: groupId::groups ∧ s.monitors = s.monitors ++ done :=
      ⟨[],List.nil_prefix,(List.append_nil _).symm⟩
    unfold initLcdLines initGroup
    rcases (trouble groupId).selecting with _ | what
    · rcases (trouble groupId).writing with _ | what
      · rcases writeLines varchar s.lcd groupId with what | lcd
        · exact stops
        · rcases (trouble groupId).starting with _ | what
          · obtain ⟨done,begins,same⟩ := ih ⟨lcd,s.monitors ++ [groupId]⟩
            exact ⟨groupId::done,List.cons_prefix_cons.mpr ⟨rfl,begins⟩,same.trans (by simp)⟩
          · exact stops
      · exact stops
    · exact stops

theorem monitorsDistinct {groups : List Nat} (keys : groups.Nodup) (trouble : Nat → Trouble)
    (lcd : List LcdRow) {s : State} {events : List Event} (run : Run step Anything idle events s)
    (loop : events.filterMap startedGroup <+:
      (initLcdLines varchar trouble ⟨lcd,[]⟩ groups).1.monitors) :
    (s.monitors.map Monitor.group).Nodup := by
  obtain ⟨done,begins,same⟩ := @monitorsPrefix varchar trouble ⟨lcd,[]⟩ groups
  rw [same,List.nil_append] at loop
  rw [groupsRun run]
  exact keys.sublist (loop.trans begins).sublist

def twoGroups : List Event := [.start 1,.connect 0 none,.start 2]

theorem monitorsDistinctTwo : ∃ s, Run step Anything idle twoGroups s ∧
    (s.monitors.map Monitor.group).Nodup := by
  have run : ∃ s, twoGroups.foldlM step idle = some s := ⟨_,rfl⟩
  obtain ⟨s,run⟩ := run
  have keys : [1,2,3].Nodup := by decide
  exact ⟨s,foldRun run,@monitorsDistinct cut _ keys (fun _ => .free) [] _ _ (foldRun run) ⟨[3],rfl⟩⟩

def SamePort (devices : List Device) (s : State) : Prop := ∀ m ∈ s.monitors, ∀ location,
  heading m.place = some location → location = getSerialPort 0 devices

theorem samePortKept {devices : List Device} {s t : State} {e : Event} (same : SamePort devices s)
    (answered : Answered devices s e) (moved : step s e = some t) : SamePort devices t := by
  intro m member location heads
  rcases stepHeads moved m member location heads with ⟨n,old,_,had⟩ | ⟨i,n,rfl,_,here,_⟩
  · exact same n old location had
  · exact answered n here

theorem oneServed {devices : List Device} {events : List Event} {s : State}
    (run : Run step (Answered devices) idle events s) {i j : Nat} {location other : String}
    (first : ClaimedBy s i location) (second : ClaimedBy s j other) :
    i = j ∧ location = getSerialPort 0 devices := by
  have same : SamePort devices s :=
    runInvariant (fun _ _ _ same answered moved => samePortKept same answered moved) run
      (fun m member => absurd member List.not_mem_nil)
  have counted : Counted s :=
    runInvariant (fun _ _ _ counted _ moved => countedKept counted moved) run idleCounted
  have heads : ∀ {k place}, ClaimedBy s k place → place = getSerialPort 0 devices := by
    rintro k place ⟨m,here,claimed⟩
    exact same m (List.mem_of_getElem? here) place (claimHeading claimed)
  have port := heads first
  refine ⟨?_,port⟩
  rw [port] at first
  rw [heads second] at second
  exact counted.single _ i j first second

def bothAsk : List Event :=
  [.start 1,.start 2,.connect 0 none,.connect 1 none,.locate 0 (.ok "/dev/ttyACM0"),
    .locate 1 (.ok "/dev/ttyACM0"),.lockLocation 1 true,.lockLocation 0 true]

theorem oneServedSecond : ∃ s, Run step (Answered fermenters) idle bothAsk s ∧
    ClaimedBy s 1 "/dev/ttyACM0" ∧ ∀ i location, ClaimedBy s i location → i = 1 := by
  have run : ∃ s, bothAsk.foldlM step idle = some s ∧ ClaimedBy s 1 "/dev/ttyACM0" :=
    ⟨_,rfl,_,rfl,rfl⟩
  obtain ⟨s,run,claimed⟩ := run
  have answered : ∀ u, ∀ e ∈ bothAsk, Answered fermenters u e := by
    intro u e member
    simp only [bothAsk,List.mem_cons,List.not_mem_nil,or_false] at member
    rcases member with rfl | rfl | rfl | rfl | rfl | rfl | rfl | rfl <;>
      first | trivial | exact fun m _ => rfl
  have run := runPermitted answered (foldRun run)
  exact ⟨s,run,claimed,fun i location claims => (oneServed run claims claimed).1⟩

end Monitors

end Chambermaid.DaemonStart
