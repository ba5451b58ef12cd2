import Chambermaid.Daemon

/-! The serial port a group is given. The query asks for serial ports of any group, so
every monitor is given the location of the first one in the table. -/
namespace Chambermaid.GroupPort
open Runs Daemon

-- Devices::DeviceType; the column may hold other numbers too.
inductive DeviceType where
  | serialPort | ds18b20 | compressor | heatingElement
  deriving DecidableEq, Repr

def DeviceType.value : DeviceType → Int
  | .serialPort => 1
  | .ds18b20 => 2
  | .compressor => 3
  | .heatingElement => 4

structure Device where
  deviceType : Int
  deviceLocation : String
  groupId : Nat
  deriving DecidableEq, Repr

/-! The devices are the rows in the order in which the database gives them. -/
def getSerialPort (_groupId : Nat) (devices : List Device) : String :=
  match devices.filter (fun row => row.deviceType = DeviceType.serialPort.value) with
  | row::_ => row.deviceLocation
  | [] => ""

def Own (devices : List Device) (group : Nat) (d : Device) : Prop :=
  d ∈ devices ∧ d.deviceType = DeviceType.serialPort.value ∧ d.groupId = group

def OwnPort (devices : List Device) (group : Nat) (location : String) : Prop :=
  ∃ d, Own devices group d ∧ d.deviceLocation = location

def GivenOwn (devices : List Device) (group : Nat) : Prop :=
  ((∃ d, Own devices group d) → OwnPort devices group (getSerialPort group devices)) ∧
  (getSerialPort group devices = "" ↔ ¬ ∃ d, Own devices group d)

def First (devices : List Device) (first : Device) : Prop := ∃ before after,
  devices = before ++ first::after ∧ first.deviceType = DeviceType.serialPort.value ∧
    ∀ d ∈ before, d.deviceType ≠ DeviceType.serialPort.value

def FirstOwn (devices : List Device) (group : Nat) : Prop := ∀ first, First devices first →
  (first.deviceLocation ≠ "" ∧ OwnPort devices group first.deviceLocation) ∨
  (first.deviceLocation = "" ∧ ¬ ∃ d, Own devices group d)

theorem firstGiven {devices : List Device} {first : Device} (found : First devices first)
    (group : Nat) : getSerialPort group devices = first.deviceLocation := by
  obtain ⟨before,after,rfl,serial,others⟩ := found
  have none : before.filter (fun row => row.deviceType = DeviceType.serialPort.value) = [] :=
    List.filter_eq_nil_iff.mpr fun d member => by simpa using others d member
  unfold getSerialPort
  rw [List.filter_append,none,List.nil_append,List.filter_cons_of_pos (by simpa using serial)]

theorem firstOrNone (devices : List Device) : (∃ first, First devices first) ∨
    ∀ d ∈ devices, d.deviceType ≠ DeviceType.serialPort.value := by
  induction devices with
  | nil => exact .inr fun d member => absurd member List.not_mem_nil
  | cons row devices ih =>
    by_cases serial : row.deviceType = DeviceType.serialPort.value
    · exact .inl ⟨row,[],devices,rfl,serial,fun d member => absurd member List.not_mem_nil⟩
    · refine ih.imp ?_ ?_
      · rintro ⟨first,before,after,rfl,found,others⟩
        exact ⟨first,row::before,after,rfl,found,List.forall_mem_cons.mpr ⟨serial,others⟩⟩
      · exact fun others => List.forall_mem_cons.mpr ⟨serial,others⟩

theorem noneGiven {devices : List Device}
    (others : ∀ d ∈ devices, d.deviceType ≠ DeviceType.serialPort.value) (group : Nat) :
    getSerialPort group devices = "" := by
  unfold getSerialPort
  rw [List.filter_eq_nil_iff.mpr fun d member => by simpa using others d member]

theorem givenOwnExactly (devices : List Device) (group : Nat) :
    GivenOwn devices group ↔ FirstOwn devices group := by
  constructor
  · rintro ⟨own,empty⟩ first found
    rw [firstGiven found] at own empty
    by_cases blank : first.deviceLocation = ""
    · exact .inr ⟨blank,empty.mp blank⟩
    · exact .inl ⟨blank,own (Classical.not_not.mp fun none => blank (empty.mpr none))⟩
  · intro firstOwn
    rcases firstOrNone devices with ⟨first,found⟩ | others
    · unfold GivenOwn
      rw [firstGiven found]
      rcases firstOwn first found with ⟨named,port⟩ | ⟨blank,none⟩
      · obtain ⟨d,own,_⟩ := id port
        exact ⟨fun _ => port,iff_of_false named (not_not_intro ⟨d,own⟩)⟩
      · exact ⟨fun has => absurd has none,iff_of_true blank none⟩
    · have none : ¬ ∃ d, Own devices group d := fun ⟨d,member,serial,_⟩ => others d member serial
      exact ⟨fun has => absurd has none,iff_of_true (noneGiven others group) none⟩

def heading : Place → Option String
  | .lockingLocation location => some location
  | .lockingPort location => some location
  | .opening location => some location
  | .asking location => some location
  | .ended claimed => claimed
  | _ => none

theorem claimHeading {place : Place} {location : String} (claimed : claim place = some location) :
    heading place = some location := by
  cases place <;> first | contradiction | exact claimed

def Heads (s t : State) (e : Event) : Prop := ∀ m ∈ t.monitors, ∀ location,
  heading m.place = some location →
    (∃ n ∈ s.monitors, n.group = m.group ∧ heading n.place = some location) ∨
    ∃ i n, e = .locate i (.ok location) ∧ location ≠ "" ∧ s.monitors[i]? = some n ∧ n.group = m.group

theorem moveHeads {s : State} {i : Nat} {m : Monitor} {e : Event} (here : s.monitors[i]? = some m)
    (place : Place) (keeps : ∀ location, heading place = some location →
      heading m.place = some location ∨ (e = .locate i (.ok location) ∧ location ≠ ""))
    (lines : List String) : Heads s (move s i m place lines) e := by
  intro n member location heads
  rcases List.mem_or_eq_of_mem_set member with old | rfl
  · exact .inl ⟨n,old,rfl,heads⟩
  · refine (keeps location heads).imp ?_ ?_
    · exact fun had => ⟨m,List.mem_of_getElem? here,rfl,had⟩
    · exact fun ⟨locates,named⟩ => ⟨i,m,locates,named,here,rfl⟩

theorem finishHeads {s : State} {i : Nat} {m : Monitor} {e : Event} (here : s.monitors[i]? = some m)
    (lines : List String) : Heads s (finish s i m lines) e :=
  moveHeads here (.ended (claim m.place)) (fun _ claimed => .inl (claimHeading claimed)) lines

theorem locateHeads {s t : State} {i : Nat} {m : Monitor} {answer : Except String String}
    (here : s.monitors[i]? = some m) (moved : locate s i m answer = some t) :
    Heads s t (.locate i answer) := by
  unfold locate at moved
  split at moved
  · cases moved
    cases answer with
    | error what => exact finishHeads here _
    | ok location =>
      dsimp only
      split
      · exact finishHeads here _
      · rename_i named
        refine moveHeads here _ (fun other heads => .inr ?_) _
        cases Option.some.inj heads
        exact ⟨rfl,named⟩
  · contradiction

theorem lockLocationHeads {s t : State} {i : Nat} {m : Monitor} {acquired : Bool} {e : Event}
    (here : s.monitors[i]? = some m) (moved : lockLocation s i m acquired = some t) :
    Heads s t e := by
  unfold lockLocation at moved
  split at moved
  · rename_i location place
    split at moved
    · split at moved
      · cases moved
        exact finishHeads here _
      · cases moved
        exact moveHeads here _ (fun _ heads => .inl (by rw [place]; exact heads)) []
    · cases moved
      exact finishHeads here _
  · contradiction

theorem lockPortHeads {s t : State} {i : Nat} {m : Monitor} {acquired : Bool} {e : Event}
    (here : s.monitors[i]? = some m) (moved : lockPort s i m acquired = some t) : Heads s t e := by
  unfold lockPort at moved
  split at moved
  · rename_i location place
    split at moved
    · split at moved
      · contradiction
      · cases moved
        exact moveHeads here _ (fun _ heads => .inl (by rw [place]; exact heads)) []
    · cases moved
      exact finishHeads here _
  · contradiction

theorem openPortHeads {s t : State} {i : Nat} {m : Monitor} {failure : Option String} {e : Event}
    (here : s.monitors[i]? = some m) (moved : openPort s i m failure = some t) : Heads s t e := by
  unfold openPort at moved
  split at moved
  · rename_i location place
    cases moved
    cases failure with
    | some what => exact finishHeads here _
    | none => exact moveHeads here _ (fun _ heads => .inl (by rw [place]; exact heads)) []
  · contradiction

theorem stepHeads {s t : State} {e : Event} (moved : step s e = some t) : Heads s t e := by
  cases e with
  | start group =>
    cases moved
    intro m member location heads
    rcases List.mem_append.mp member with old | new
    · exact .inl ⟨m,old,rfl,heads⟩
    · cases List.mem_singleton.mp new
      contradiction
  | connect i failure =>
    obtain ⟨m,here,moved⟩ := Option.bind_eq_some_iff.mp moved
    unfold connect at moved
    split at moved
    · cases moved
      cases failure with
      | some what => exact finishHeads here _
      | none => exact moveHeads here _ (fun _ heads => by contradiction) _
    · contradiction
  | locate i answer =>
    obtain ⟨m,here,moved⟩ := Option.bind_eq_some_iff.mp moved
    exact locateHeads here moved
  | lockLocation i acquired =>
    obtain ⟨m,here,moved⟩ := Option.bind_eq_some_iff.mp moved
    exact lockLocationHeads here moved
  | lockPort i acquired =>
    obtain ⟨m,here,moved⟩ := Option.bind_eq_some_iff.mp moved
    exact lockPortHeads here moved
  | openPort i failure =>
    obtain ⟨m,here,moved⟩ := Option.bind_eq_some_iff.mp moved
    exact openPortHeads here moved
  | version i answer =>
    obtain ⟨m,here,moved⟩ := Option.bind_eq_some_iff.mp moved
    unfold version at moved
    split at moved
    · cases moved
      cases answer with
      | error what => exact finishHeads here _
      | ok found =>
        dsimp only
        split
        · exact finishHeads here _
        · exact finishHeads here _
    · contradiction

def Answered (devices : List Device) (s : State) : Event → Prop
  | .locate i (.ok location) =>
    ∀ m, s.monitors[i]? = some m → location = getSerialPort m.group devices
  | _ => True

def Located (devices : List Device) (s : State) (e : Event) : Prop := Answered devices s e ∧
  ∀ i location m, e = .locate i (.ok location) → s.monitors[i]? = some m → FirstOwn devices m.group

def HeadsOwn (devices : List Device) (s : State) : Prop := ∀ m ∈ s.monitors, ∀ location,
  heading m.place = some location → OwnPort devices m.group location

theorem headsOwnKept {devices : List Device} {s t : State} {e : Event} (own : HeadsOwn devices s)
    (allowed : Located devices s e) (moved : step s e = some t) : HeadsOwn devices t := by
  intro m member location heads
  rcases stepHeads moved m member location heads with ⟨n,old,group,had⟩ | ⟨i,n,rfl,named,here,group⟩
  · rw [← group]
    exact own n old location had
  · obtain ⟨answered,firstOwn⟩ := allowed
    have given : location = getSerialPort n.group devices := answered n here
    have ports := (givenOwnExactly devices n.group).mpr (firstOwn i location n rfl here)
    rw [← group]
    rw [given] at named ⊢
    exact ports.1 (Classical.not_not.mp fun none => named (ports.2.mpr none))

def DisjointPorts (devices : List Device) (group other : Nat) : Prop :=
  ∀ location, OwnPort devices group location → ¬ OwnPort devices other location

theorem ownPort (devices : List Device) :
    (∀ group, GivenOwn devices group ↔ FirstOwn devices group) ∧
    ∀ s, Reachable step (Located devices) idle s → ∀ (i : Nat) (m : Monitor) location,
      s.monitors[i]? = some m →
      claim m.place = some location → OwnPort devices m.group location ∧
        ∀ other, DisjointPorts devices m.group other → ¬ OwnPort devices other location := by
  refine ⟨givenOwnExactly devices,?_⟩
  intro s reachable i m location here claimed
  have first : HeadsOwn devices idle := fun m member => absurd member List.not_mem_nil
  have own : HeadsOwn devices s :=
    reachableInvariant (fun _ _ _ own allowed moved => headsOwnKept own allowed moved) first reachable
  have port := own m (List.mem_of_getElem? here) location (claimHeading claimed)
  exact ⟨port,fun other disjoint => disjoint location port⟩

def fermenters : List Device := [⟨1,"/dev/ttyACM0",1⟩,⟨1,"/dev/ttyACM1",2⟩]

def claiming (group : Nat) : List Event :=
  [.start group,.connect 0 none,.locate 0 (.ok "/dev/ttyACM0"),.lockLocation 0 true]

theorem claimingRun (allowed : State → Event → Prop) (group : Nat)
    (others : ∀ s e, (∀ i answer, e ≠ .locate i answer) → allowed s e)
    (locates : ∀ s, s.monitors = [⟨group,.locating⟩] → allowed s (.locate 0 (.ok "/dev/ttyACM0"))) :
    ∃ s, Run step allowed idle (claiming group) s ∧
      s.monitors = [⟨group,.lockingPort "/dev/ttyACM0"⟩] :=
  ⟨_,.next (others _ _ (fun _ _ => Event.noConfusion)) rfl
    (.next (others _ _ (fun _ _ => Event.noConfusion)) rfl
      (.next (locates _ rfl) rfl (.next (others _ _ (fun _ _ => Event.noConfusion)) rfl (.done _)))),rfl⟩

theorem fermentersOwn {group : Nat} {location : String} :
    OwnPort fermenters group location ↔
      (group = 1 ∧ location = "/dev/ttyACM0") ∨ (group = 2 ∧ location = "/dev/ttyACM1") := by
  constructor
  · rintro ⟨d,⟨member,_,rfl⟩,rfl⟩
    simp only [fermenters,List.mem_cons,List.not_mem_nil,or_false] at member
    rcases member with rfl | rfl
    · exact .inl ⟨rfl,rfl⟩
    · exact .inr ⟨rfl,rfl⟩
  · rintro (⟨rfl,rfl⟩ | ⟨rfl,rfl⟩)
    · exact ⟨⟨1,"/dev/ttyACM0",1⟩,⟨by decide,rfl,rfl⟩,rfl⟩
    · exact ⟨⟨1,"/dev/ttyACM1",2⟩,⟨by decide,rfl,rfl⟩,rfl⟩

theorem fermentersDisjoint : DisjointPorts fermenters 1 2 ∧ DisjointPorts fermenters 2 1 := by
  constructor <;> intro location own other <;> rw [fermentersOwn] at own other <;> simp_all

theorem answeredOther {devices : List Device} {s : State} {e : Event}
    (other : ∀ i answer, e ≠ .locate i answer) : Answered devices s e := by
  cases e with
  | locate i answer => exact absurd rfl (other i answer)
  | _ => trivial

theorem answeredFirst {s : State} {group : Nat} (monitors : s.monitors = [⟨group,.locating⟩]) :
    Answered fermenters s (.locate 0 (.ok "/dev/ttyACM0")) := by
  intro m here
  rw [monitors] at here
  cases here
  rfl

theorem ownPortFirst : ∃ s, Reachable step (Located fermenters) idle s ∧
    s.monitors = [⟨1,.lockingPort "/dev/ttyACM0"⟩] ∧ OwnPort fermenters 1 "/dev/ttyACM0" ∧
    ¬ OwnPort fermenters 2 "/dev/ttyACM0" := by
  have firstOwn : FirstOwn fermenters 1 := by
    intro first found
    rw [← firstGiven found 1]
    exact .inl ⟨by decide,fermentersOwn.mpr (.inl ⟨rfl,rfl⟩)⟩
  obtain ⟨s,run,monitors⟩ := claimingRun (Located fermenters) 1
    (fun _ _ other => ⟨answeredOther other,fun i _ _ same => absurd same (other i _)⟩)
    (fun _ monitors => ⟨answeredFirst monitors,by
      rintro i location m ⟨⟩ here
      rw [monitors] at here
      cases here
      exact firstOwn⟩)
  have reachable : Reachable step (Located fermenters) idle s := ⟨_,run⟩
  have here : s.monitors[0]? = some ⟨1,.lockingPort "/dev/ttyACM0"⟩ := by rw [monitors]; rfl
  obtain ⟨own,others⟩ := (ownPort fermenters).2 s reachable 0 _ "/dev/ttyACM0" here rfl
  exact ⟨s,reachable,monitors,own,others 2 fermentersDisjoint.1⟩

theorem otherPortClaimed : ¬ GivenOwn fermenters 2 ∧ DisjointPorts fermenters 2 1 ∧
    ∃ s, Reachable step (Answered fermenters) idle s ∧
      s.monitors = [⟨2,.lockingPort "/dev/ttyACM0"⟩] ∧ OwnPort fermenters 1 "/dev/ttyACM0" := by
  refine ⟨?_,fermentersDisjoint.2,?_⟩
  · rintro ⟨own,_⟩
    have port : OwnPort fermenters 2 "/dev/ttyACM0" := own ⟨⟨1,"/dev/ttyACM1",2⟩,by decide,rfl,rfl⟩
    rw [fermentersOwn] at port
    simp at port
  · obtain ⟨s,run,monitors⟩ := claimingRun (Answered fermenters) 2
      (fun _ _ other => answeredOther other) (fun _ monitors => answeredFirst monitors)
    exact ⟨s,⟨_,run⟩,monitors,fermentersOwn.mpr (.inl ⟨rfl,rfl⟩)⟩

end Chambermaid.GroupPort
