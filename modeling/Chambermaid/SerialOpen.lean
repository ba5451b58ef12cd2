import Chambermaid.AsyncStep
import Chambermaid.Runs

/-! The serial port behind `AsyncImpl`, one device call at a time: `serial.open`, the five
`set_option` calls and `serial.close`, each of which may fail. The flag is set after the
last of them and cleared after the close, so a call that throws between leaves the flag
behind what the port did. -/
namespace Chambermaid.SerialOpen
open Runs AsyncImpl AsyncStep

inductive Parity where
  | none | odd | even
  deriving DecidableEq, Repr

inductive FlowControl where
  | none | software | hardware
  deriving DecidableEq, Repr

inductive StopBits where
  | one | onePointFive | two
  deriving DecidableEq, Repr

structure Settings where
  deviceName : String
  baudRate : Nat
  parity : Parity
  characterSize : Nat
  flowControl : FlowControl
  stopBits : StopBits
  deriving DecidableEq, Repr

inductive SetOption where
  | baudRate (rate : Nat) | parity (p : Parity) | characterSize (bits : Nat)
  | flowControl (f : FlowControl) | stopBits (b : StopBits)
  deriving DecidableEq, Repr

def Settings.options (c : Settings) : List SetOption :=
  [.baudRate c.baudRate,.parity c.parity,.characterSize c.characterSize,.flowControl c.flowControl,
    .stopBits c.stopBits]

-- A serial.close() that fails may still have closed the port.
inductive Closing where
  | closes | failsOpen | failsClosed
  deriving DecidableEq, Repr

structure Device where
  closing : Closing
  opens : String → Bool
  accepts : SetOption → Bool

structure SerialImpl where
  impl : State
  settings : Settings

def constructedSerial : SerialImpl := ⟨constructed,⟨"",9600,.none,8,.none,.one⟩⟩

def serialClosed (s : State) : State :=
  {s with
    posted := s.posted ++ List.replicate s.reads (.finishRead (some .operationAborted) []) ++
      s.writes.map (fun _ => .finishWrite (some .operationAborted) []),
    reads := 0, writes := [], portOpen := false}

-- SerialImpl::_close
def closeSerial (s : State) : Closing → Result
  | .closes => ⟨{serialClosed s with isOpen := false},none⟩
  | .failsOpen => ⟨s,some (.device 0)⟩
  | .failsClosed => ⟨serialClosed s,some (.device 0)⟩

def closeAsync (s : State) (closing : Closing) : Result :=
  if s.isOpen then
    closeSerial {s with running := false, writeBuffer := none, writeBufferSize := 0} closing
  else ⟨s,none⟩

def setOptions (accepts : SetOption → Bool) : List SetOption → Option ErrorCode
  | [] => none
  | o::rest => if accepts o then setOptions accepts rest else some (.device 2)

-- SerialImpl::_configure
def configureSerial (s : State) (c : Settings) (d : Device) : Result :=
  if s.portOpen ∨ d.opens c.deviceName = false then ⟨s,some (.device 1)⟩ else
    let s := {s with portOpen := true}
    match setOptions d.accepts c.options with
    | some ec => ⟨s,some ec⟩
    | none =>
      if s.portOpen then ⟨{s with isOpen := true},none⟩
      else ⟨{s with isOpen := false, error := some .couldNotOpen},some .couldNotOpen⟩

def openAsync (s : State) (c : Settings) (d : Device) : Result :=
  let closed := closeAsync s d.closing
  if closed.thrown ≠ none then closed else
    let configured := configureSerial closed.state c d
    if configured.thrown ≠ none then configured else
      let s := configured.state
      if s.isOpen then ⟨post {s with running := true} .startRead,none⟩
      else ⟨{s with error := some .couldNotOpen},some .couldNotOpen⟩

def openSerial (s : SerialImpl) (c : Settings) (d : Device) : SerialImpl × Option ErrorCode :=
  let result := openAsync s.impl c d
  (⟨result.state,c⟩,result.thrown)

inductive Call where
  | openSerial (c : Settings) (d : Device)
  | close (closing : Closing)
  | other (e : Event) (stays : ¬ Opens e)

def step (s : SerialImpl) : Call → Option SerialImpl
  | .openSerial c d => some (openSerial s c d).1
  | .close closing => some ⟨(closeAsync s.impl closing).state,s.settings⟩
  | .other e _ => (AsyncImpl.step s.impl e).map (⟨·,s.settings⟩)

/-! The calls as the rest of the development sees them: all options as one outcome, and a
close that fails leaves the port open. -/
def configureOutcome (c : Settings) (d : Device) : Configure :=
  if d.opens c.deviceName then
    if setOptions d.accepts c.options = none then .succeeds else .optionFails
  else .openFails

theorem closeCoarse {closing : Closing} (plain : closing ≠ .failsClosed) (s : State) :
    closeAsync s closing = close s (closing = .closes) := by
  unfold closeAsync close
  split
  · cases closing with
    | closes => rfl
    | failsOpen => rfl
    | failsClosed => exact absurd rfl plain
  · rfl

theorem setOptionsError {accepts : SetOption → Bool} {options : List SetOption} {ec : ErrorCode}
    (threw : setOptions accepts options = some ec) : ec = .device 2 := by
  induction options with
  | nil => simp [setOptions] at threw
  | cons o rest ih =>
    unfold setOptions at threw
    split at threw
    · exact ih threw
    · exact (Option.some.inj threw).symm

theorem configureCoarse (s : State) (c : Settings) (d : Device) :
    configureSerial s c d = configure s (configureOutcome c d) := by
  unfold configureSerial configure configureOutcome
  by_cases opens : d.opens c.deviceName = true
  · cases options : setOptions d.accepts c.options with
    | none => simp [opens]
    | some ec =>
      cases setOptionsError options
      simp [opens]
  · simp [opens]

theorem openCoarse {d : Device} (plain : d.closing ≠ .failsClosed) (s : State) (c : Settings) :
    openAsync s c d = openImpl s (d.closing = .closes) (configureOutcome c d) := by
  unfold openAsync openImpl
  simp only [closeCoarse plain,configureCoarse]

def Truthful (s : SerialImpl) : Prop := s.impl.isOpen = s.impl.portOpen
instance (s) : Decidable (Truthful s) := by unfold Truthful; infer_instance

def Closed (s : SerialImpl) : Prop := s.impl.isOpen = false ∧ s.impl.portOpen = false
instance (s) : Decidable (Closed s) := by unfold Closed; infer_instance

def working : Device := ⟨.closes,fun _ => true,fun _ => true⟩

def Meets (s : SerialImpl) (call : Call) : Prop := ∀ t, step s call = some t → Truthful t ∧
  ∀ c d, call = .openSerial c d → (openSerial s c d).2 ≠ none → Closed t

def Careful (s : SerialImpl) : Call → Prop
  | .openSerial c d => (s.impl.isOpen = true → d.closing = .closes) ∧
      (d.opens c.deviceName = true → ∀ o ∈ c.options, d.accepts o = true)
  | .close closing => s.impl.isOpen = true → closing ≠ .failsClosed
  | .other _ _ => True

theorem setOptionsNone {accepts : SetOption → Bool} {options : List SetOption} :
    setOptions accepts options = none ↔ ∀ o ∈ options, accepts o = true := by
  induction options with
  | nil => simp [setOptions]
  | cons o rest ih =>
    unfold setOptions
    split
    · rename_i accepted
      simp [accepted,ih]
    · rename_i refused
      simp [refused]

theorem closeOpened {s : State} (opened : s.isOpen = true) (closing : Closing) :
    closeAsync s closing = closeSerial
      {s with running := false, writeBuffer := none, writeBufferSize := 0} closing := if_pos opened

theorem closeShut {s : State} (shut : s.isOpen = false) (closing : Closing) :
    closeAsync s closing = ⟨s,none⟩ := by
  unfold closeAsync
  rw [shut]
  rfl

theorem openShut {s u : State} {c : Settings} {d : Device}
    (closed : closeAsync s d.closing = ⟨u,none⟩) (free : u.portOpen = false) :
    (d.opens c.deviceName = false ∧ openAsync s c d = ⟨u,some (.device 1)⟩) ∨
    (d.opens c.deviceName = true ∧ (∀ o ∈ c.options, d.accepts o = true) ∧
      openAsync s c d = ⟨started u,none⟩) ∨
    (d.opens c.deviceName = true ∧ (¬ ∀ o ∈ c.options, d.accepts o = true) ∧
      openAsync s c d = ⟨{u with portOpen := true},some (.device 2)⟩) := by
  unfold openAsync configureSerial
  rw [closed]
  by_cases opens : d.opens c.deviceName = true
  · cases options : setOptions d.accepts c.options with
    | none =>
      refine Or.inr (Or.inl ⟨opens,setOptionsNone.mp options,?_⟩)
      simp [free,opens,started]
    | some ec =>
      cases setOptionsError options
      refine Or.inr (Or.inr ⟨opens,?_,?_⟩)
      · rw [← setOptionsNone,options]
        simp
      · simp [free,opens]
  · rw [Bool.not_eq_true] at opens
    exact Or.inl ⟨opens,by simp [opens]⟩

theorem openShutExactly {s u : State} {c : Settings} {d : Device}
    (closed : closeAsync s d.closing = ⟨u,none⟩) (shut : u.isOpen = false) (free : u.portOpen = false) :
    (d.opens c.deviceName = true → ∀ o ∈ c.options, d.accepts o = true) ↔
      Truthful ⟨(openAsync s c d).state,c⟩ ∧
      ((openAsync s c d).thrown ≠ none → Closed ⟨(openAsync s c d).state,c⟩) := by
  rcases openShut (c := c) closed free with ⟨opens,result⟩ | ⟨opens,accepted,result⟩ |
    ⟨opens,refused,result⟩
  · simp [opens,result,Truthful,Closed,shut,free]
  · rw [result]
    exact iff_of_true (fun _ => accepted) ⟨rfl,fun threw => absurd rfl threw⟩
  · simp [opens,refused,result,Truthful,shut]

theorem closeExactly {s : SerialImpl} (truth : Truthful s) (closing : Closing) :
    (s.impl.isOpen = true → closing ≠ .failsClosed) ↔
      Truthful ⟨(closeAsync s.impl closing).state,s.settings⟩ := by
  by_cases opened : s.impl.isOpen = true
  · have port : s.impl.portOpen = true := truth.symm.trans opened
    rw [closeOpened opened]
    cases closing <;> simp [closeSerial,serialClosed,Truthful,opened,port]
  · rw [Bool.not_eq_true] at opened
    rw [closeShut opened]
    simpa [opened] using truth

theorem openExactly {s : SerialImpl} (truth : Truthful s) (c : Settings) (d : Device) :
    Careful s (.openSerial c d) ↔ Truthful (openSerial s c d).1 ∧
      ((openSerial s c d).2 ≠ none → Closed (openSerial s c d).1) := by
  by_cases opened : s.impl.isOpen = true
  · have port : s.impl.portOpen = true := truth.symm.trans opened
    cases closing : d.closing with
    | closes =>
      have closed := closeOpened opened d.closing
      rw [closing,closeSerial,← closing] at closed
      have exactly := openShutExactly (c := c) closed rfl rfl
      simpa [Careful,closing,openSerial] using exactly
    | failsOpen =>
      simp [Careful,closing,opened,openSerial,openAsync,closeOpened,closeSerial,Closed]
    | failsClosed =>
      simp [Careful,closing,opened,openSerial,openAsync,closeOpened,closeSerial,serialClosed,Closed]
  · rw [Bool.not_eq_true] at opened
    have exactly := openShutExactly (c := c) (closeShut opened d.closing) opened
      (truth.symm.trans opened)
    simpa [Careful,opened,openSerial] using exactly

theorem stepExactly {s t : SerialImpl} {call : Call} (truth : Truthful s)
    (moved : step s call = some t) : Careful s call ↔ Truthful t ∧
      ∀ c d, call = .openSerial c d → (openSerial s c d).2 ≠ none → Closed t := by
  cases call with
  | openSerial c d =>
    cases moved
    rw [openExactly truth]
    refine and_congr_right fun _ => ⟨?_,fun closed => closed c d rfl⟩
    rintro closed _ _ same threw
    cases same
    exact closed threw
  | close closing =>
    cases moved
    refine (closeExactly truth closing).trans ⟨fun holds => ⟨holds,?_⟩,And.left⟩
    intro _ _ same
    contradiction
  | other e stays =>
    obtain ⟨u,stepped,rfl⟩ := Option.map_eq_some_iff.mp moved
    have kept := stepPort stays stepped
    simp only [port,Port.mk.injEq] at kept
    refine iff_of_true trivial ⟨?_,fun _ _ same => by contradiction⟩
    change u.isOpen = u.portOpen
    rw [kept.2.2,kept.2.1]
    exact truth

theorem meetsExactly {s t : SerialImpl} {call : Call} (truth : Truthful s)
    (moved : step s call = some t) : Careful s call ↔ Meets s call :=
  (stepExactly truth moved).trans (afterStep (Q := fun u => Truthful u ∧
    ∀ c d, call = .openSerial c d → (openSerial s c d).2 ≠ none → Closed u) moved)

theorem workingOpens {s : SerialImpl} (truth : Truthful s) (c : Settings) :
    (openSerial s c working).2 = none ∧ (openSerial s c working).1.impl.isOpen = true ∧
      (openSerial s c working).1.impl.portOpen = true := by
  have opened : ∀ u, closeAsync s.impl .closes = ⟨u,none⟩ → u.portOpen = false →
      openAsync s.impl c working = ⟨started u,none⟩ := by
    intro u closed free
    rcases openShut (c := c) (d := working) closed free with ⟨refused,_⟩ | ⟨_,_,result⟩ | ⟨_,refused,_⟩
    · contradiction
    · exact result
    · exact absurd (fun _ _ => rfl) refused
  by_cases wasOpen : s.impl.isOpen = true
  · have result := opened _ (closeOpened wasOpen .closes) rfl
    unfold openSerial
    rw [result]
    exact ⟨rfl,rfl,rfl⟩
  · rw [Bool.not_eq_true] at wasOpen
    have result := opened _ (closeShut wasOpen .closes) (truth.symm.trans wasOpen)
    unfold openSerial
    rw [result]
    exact ⟨rfl,rfl,rfl⟩

theorem flagTruthful (calls : List Call) (s : SerialImpl) :
    (Run step Careful constructedSerial calls s ↔ Run step Meets constructedSerial calls s) ∧
    (Run step Careful constructedSerial calls s →
      Truthful s ∧ ∀ c, (openSerial s c working).2 = none) := by
  have kept : ∀ s call t, Truthful s → Careful s call → step s call = some t → Truthful t :=
    fun _ _ _ truth careful moved => ((stepExactly truth moved).mp careful).1
  refine ⟨?_,fun run => ?_⟩
  · exact runRelabel (P := Truthful) (fun _ _ _ truth moved => meetsExactly truth moved) kept rfl
  · have truth := runInvariant kept run rfl
    exact ⟨truth,fun c => (workingOpens truth c).1⟩

def stubborn : Device := ⟨.closes,fun _ => true,fun o => o ≠ .parity .none⟩

theorem flagLies : ∃ s, Run step Anything constructedSerial
      [.openSerial constructedSerial.settings stubborn] s ∧
    s.impl.isOpen = false ∧ s.impl.portOpen = true ∧
    (openSerial s s.settings working).2 ≠ none :=
  ⟨_,.next trivial rfl (.done _),rfl,rfl,by decide⟩

end Chambermaid.SerialOpen
