import Chambermaid.JsonText
import Chambermaid.Serial

/-! What the records write and what is left of it when it is read again. Encoder and
decoder are two lists of keys kept apart: one forgets the room temperature, and the
control constants have five members that neither of them knows. -/
namespace Chambermaid.SerialText
open Json Serial

-- set_if; the constructor says what root[key] = value makes of the value's type.
def setIf {α : Type} [DecidableEq α] (lib : Library) (make : α → Value) (key : String)
    (value nullValue : α) (root : Value) : Value :=
  if value = nullValue then setMember lib key .null root else setMember lib key (make value) root

def setIfNotEmpty (lib : Library) (key : String) (value : Bytes) (root : Value) : Value :=
  if value = [] then setMember lib key .null root else setMember lib key (.string value) root

def ofInt (n : Int) : Value := .int (Int64.ofInt n)

-- set_if<char>
def ofChar (c : UInt8) : Value := .string [c]

def State.toInt : State → Int
  | .idle => 0
  | .stateOff => 1
  | .doorOpen => 2
  | .heating => 3
  | .cooling => 4
  | .waitingToCool => 5
  | .waitingToHeat => 6
  | .waitingForPeakDetect => 7
  | .coolingMinTime => 8
  | .heatingMinTime => 9
  | .null => -1

def temperaturesRoot (lib : Library) (t : Temperatures) : Value :=
  Value.null
    |> setIf lib .real "BeerTemp" t.beerReading 0
    |> setIf lib .real "BeerSet" t.beerSetting 0
    |> setIfNotEmpty lib "BeerAnn" t.beerAnnotation
    |> setIf lib .real "FridgeTemp" t.fridgeReading 0
    |> setIf lib .real "FridgeSet" t.fridgeSetting 0
    |> setIfNotEmpty lib "FridgeAnn" t.fridgeAnnotation
    |> setIf lib ofInt "State" (State.toInt t.state) (State.toInt .null)

def Mode.toChar : Mode → UInt8
  | .fridgeConstant => 102
  | .beerConstant => 98
  | .beerProfile => 112
  | .off => 111
  | .test => 116
  | .null => 0

def controlSettingsRoot (lib : Library) (s : ControlSettings) : Value :=
  Value.null
    |> setIf lib .real "beerSet" s.beerSetting 0
    |> setIf lib .real "fridgeSet" s.fridgeSetting 0
    |> setIf lib .real "heatEst" s.heatEstimator 0
    |> setIf lib .real "coolEst" s.coolEstimator 0
    |> setIf lib ofChar "mode" (Mode.toChar s.mode) (Mode.toChar .null)

def controlConstantsRoot (lib : Library) (c : ControlConstants) : Value :=
  Value.null
    |> setMember lib "tempSetMin" (.real c.tempSettingMin)
    |> setMember lib "tempSetMax" (.real c.tempSettingMax)
    |> setMember lib "iMaxError" (.real c.iMaxError)
    |> setMember lib "idleRangeH" (.real c.idleRangeHigh)
    |> setMember lib "idleRangeL" (.real c.idleRangeLow)
    |> setMember lib "heatTargetH" (.real c.heatingTargetUpper)
    |> setMember lib "heatTargetL" (.real c.heatingTargetLower)
    |> setMember lib "coolTargetH" (.real c.coolingTargetUpper)
    |> setMember lib "coolTargetL" (.real c.coolingTargetLower)
    |> setMember lib "maxHeatTimeForEst" (.int c.maxHeatTimeForEstimate)
    |> setMember lib "maxCoolTimeForEst" (.int c.maxCoolTimeForEstimate)
    |> setMember lib "fridgeFastFilt" (ofInt c.fridgeFastFilter.toNat)
    |> setMember lib "fridgeSlowFilt" (ofInt c.fridgeSlowFilter.toNat)
    |> setMember lib "fridgeSlopeFilt" (ofInt c.fridgeSlopeFilter.toNat)
    |> setMember lib "beerFastFilt" (ofInt c.beerFastFilter.toNat)
    |> setMember lib "beerSlowFilt" (ofInt c.beerSlowFilter.toNat)
    |> setMember lib "beerSlopeFilt" (ofInt c.beerSlopeFilter.toNat)
    |> setMember lib "lah" (ofInt (if c.lightAsHeater then 1 else 0))
    |> setMember lib "hs" (ofInt (if c.rotaryHalfSteps then 1 else 0))

def controlVariablesRoot (lib : Library) (v : ControlVariables) : Value :=
  Value.null
    |> setMember lib "beerDiff" (.real v.beerDiff)
    |> setMember lib "diffIntegral" (.real v.diffIntegral)
    |> setMember lib "beerSlope" (.real v.beerSlope)
    |> setMember lib "p" (.real v.p)
    |> setMember lib "i" (.real v.i)
    |> setMember lib "d" (.real v.d)
    |> setMember lib "estPeak" (.real v.estPeak)
    |> setMember lib "negPeakEst" (.real v.negPeakEst)
    |> setMember lib "posPeakEst" (.real v.posPeakEst)
    |> setMember lib "negPeak" (.real v.negPeak)
    |> setMember lib "posPeak" (.real v.posPeak)

section
variable (lib : Library) (write : Value → Bytes)

def temperaturesText (t : Temperatures) : Bytes := write (temperaturesRoot lib t)
def controlSettingsText (s : ControlSettings) : Bytes := write (controlSettingsRoot lib s)
def controlConstantsText (c : ControlConstants) : Bytes := write (controlConstantsRoot lib c)
def controlVariablesText (v : ControlVariables) : Bytes := write (controlVariablesRoot lib v)

end

def ReadsAs {α : Type} (lib : Library) (decode : Value → Except JsonException α) (text : Bytes)
    (record : α) : Prop :=
  ∃ reply, lib.parse text = some reply ∧ decode reply = .ok record

@[simp] theorem lookupSetIf {α : Type} [DecidableEq α] (lib : Library) (make : α → Value)
    (key other : String) (value nullValue : α) (root : Value) :
    (membersOf (setIf lib make key value nullValue root)).lookup other =
      if other = key then some (if value = nullValue then .null else make value)
      else (membersOf root).lookup other := by
  unfold setIf
  split <;> rw [lookupSet]

@[simp] theorem lookupSetIfNotEmpty (lib : Library) (key other : String) (value : Bytes)
    (root : Value) : (membersOf (setIfNotEmpty lib key value root)).lookup other =
      if other = key then some (if value = [] then .null else .string value)
      else (membersOf root).lookup other := by
  unfold setIfNotEmpty
  split <;> rw [lookupSet]

def Gives {α : Type} (read : Value → Except JsonException α) (v : Value) (a : α) : Prop :=
  ∀ w, Same v w → read w = .ok a

theorem sameNumber {v w : Value} {q : Rat} (same : Same v w) (written : number v = some q) :
    number w = some q := by
  cases same with
  | null => contradiction
  | string s => contradiction
  | number written' read =>
    rw [written] at written'
    rw [read,written']

theorem sameNull {w : Value} (same : Same .null w) : w = .null := by
  cases same with
  | null => rfl
  | number written read => contradiction

theorem sameString {s : Bytes} {w : Value} (same : Same (.string s) w) : w = .string s := by
  cases same with
  | string s => rfl
  | number written read => contradiction

section
variable {lib : Library} (converts : Converts lib)
include converts

theorem givesReal (q : Rat) : Gives lib.asDouble (.real q) q := fun _ same =>
  converts.double (sameNumber same rfl)

theorem givesNullable (q : Rat) : Gives lib.asDouble (if q = 0 then .null else .real q) q := by
  split
  · rename_i zero
    intro w same
    rw [sameNull same,zero]
    exact converts.doubleNull
  · exact givesReal converts q

theorem givesText (s : Bytes) : Gives lib.asString (if s = [] then .null else .string s) s := by
  split
  · rename_i empty
    intro w same
    rw [sameNull same,empty]
    exact converts.stringNull
  · intro w same
    rw [sameString same]
    exact converts.string s

theorem givesTime (n : Int64) : Gives lib.asInt64 (.int n) n := fun _ same =>
  converts.int64 (sameNumber same rfl)

theorem givesFilter (n : UInt8) : Gives lib.asUInt (ofInt n.toNat) n.toUInt32 := by
  intro w same
  have small := n.toNat_lt
  refine converts.uint (sameNumber same ?_)
  rw [ofInt,number,Int64.toInt_ofInt_of_le (by omega) (by omega),UInt8.toNat_toUInt32]
  rfl

theorem givesFlag (b : Bool) : Gives lib.asBool (ofInt (if b then 1 else 0)) b := by
  intro w same
  have found : number (ofInt (if b then 1 else 0)) = some (if b then 1 else 0) := by
    cases b <;> rfl
  rw [converts.bool (sameNumber same found)]
  cases b <;> rfl

theorem givesMode (m : Mode) :
    Gives lib.asString (if Mode.toChar m = Mode.toChar .null then .null else ofChar (Mode.toChar m))
      (if m = .null then [] else [Mode.toChar m]) := by
  cases m with
  | null => exact givesText converts []
  | _ => exact givesText converts [_]

theorem stateNumber {w : Value} {n : Int32} (found : number w = some (n.toInt : Rat)) :
    stateOf lib w = .ok (State.ofInt n.toInt) := by
  have low := n.le_toInt
  have high := n.toInt_lt
  have converted : convertible .asInt w = true :=
    integerConvertible (c := .asInt) found rfl low (by dsimp only; omega) (by decide) (by decide)
  unfold stateOf
  split
  · contradiction
  · rw [if_pos converted,converts.int found]
    rfl

theorem givesState (s : State) :
    Gives (stateOf lib) (if State.toInt s = State.toInt .null then .null else ofInt (State.toInt s)) s := by
  by_cases unset : s = .null
  · subst unset
    intro w same
    rw [sameNull same]
    rfl
  · intro w same
    have kept : State.ofInt (Int32.ofInt (State.toInt s)).toInt = s := by
      cases s <;> rfl
    have shown : State.toInt s ≠ State.toInt .null := by
      cases s <;> first | decide | contradiction
    have written : number (ofInt (State.toInt s)) = some ((Int32.ofInt (State.toInt s)).toInt : Rat) := by
      cases s <;> rfl
    rw [if_neg shown] at same
    rw [stateNumber converts (sameNumber same written),kept]

end

section
variable (lib : Library) {root : Value} {members : List (String × Value)}

theorem readMember {α : Type} {key : String} {v : Value} {a : α}
    {read : Value → Except JsonException α}
    (same : ∀ key, SameMember ((membersOf root).lookup key) (members.lookup key))
    (written : (membersOf root).lookup key = some v) (gives : Gives read v a) :
    (lib.member (.object members) key >>= read) = .ok a := by
  have shown := same key
  rw [written] at shown
  generalize found : members.lookup key = w at shown
  cases shown with
  | @present _ w same =>
    have value : lib.member (.object members) key = .ok w := by
      rw [lib.memberIs key rfl]
      simp [memberOf,membersOf,found]
    rw [value]
    exact gives w same

theorem readMissing {α : Type} {key : String} {a : α} {read : Value → Except JsonException α}
    (same : ∀ key, SameMember ((membersOf root).lookup key) (members.lookup key))
    (unwritten : (membersOf root).lookup key = none) (gives : read .null = .ok a) :
    (lib.member (.object members) key >>= read) = .ok a := by
  have shown := same key
  rw [unwritten] at shown
  generalize found : members.lookup key = w at shown
  cases shown with
  | absent =>
    have value : lib.member (.object members) key = .ok .null := by
      rw [lib.memberIs key rfl]
      simp [memberOf,membersOf,found]
    rw [value]
    exact gives

theorem verboseMember {compact : String} (verbose : String)
    (same : ∀ key, SameMember ((membersOf root).lookup key) (members.lookup key))
    (unwritten : (membersOf root).lookup compact = none) :
    compactOrVerbose lib (.object members) compact verbose = lib.member (.object members) verbose := by
  have shown := same compact
  rw [unwritten] at shown
  generalize found : members.lookup compact = w at shown
  cases shown with
  | absent =>
    unfold compactOrVerbose
    rw [lib.findMember compact rfl]
    simp [membersOf,found]
    rfl

end

section
variable {lib : Library} (converts : Converts lib) {members : List (String × Value)}
include converts

theorem temperaturesDecoded {t : Temperatures} (same : ∀ key,
    SameMember ((membersOf (temperaturesRoot lib t)).lookup key) (members.lookup key)) :
    temperatures lib (.object members) = .ok {t with roomTemp := 0} := by
  have beerReading : (lib.member (.object members) "BeerTemp" >>= lib.asDouble) = .ok t.beerReading :=
    readMember lib same (by simp [temperaturesRoot]) (givesNullable converts t.beerReading)
  have beerSetting : (lib.member (.object members) "BeerSet" >>= lib.asDouble) = .ok t.beerSetting :=
    readMember lib same (by simp [temperaturesRoot]) (givesNullable converts t.beerSetting)
  have beerText : (lib.member (.object members) "BeerAnn" >>= lib.asString) = .ok t.beerAnnotation :=
    readMember lib same (by simp [temperaturesRoot]) (givesText converts t.beerAnnotation)
  have fridgeReading : (lib.member (.object members) "FridgeTemp" >>= lib.asDouble) = .ok t.fridgeReading :=
    readMember lib same (by simp [temperaturesRoot]) (givesNullable converts t.fridgeReading)
  have fridgeSetting : (lib.member (.object members) "FridgeSet" >>= lib.asDouble) = .ok t.fridgeSetting :=
    readMember lib same (by simp [temperaturesRoot]) (givesNullable converts t.fridgeSetting)
  have fridgeText :
      (lib.member (.object members) "FridgeAnn" >>= lib.asString) = .ok t.fridgeAnnotation :=
    readMember lib same (by simp [temperaturesRoot]) (givesText converts t.fridgeAnnotation)
  have roomTemp : (lib.member (.object members) "RoomTemp" >>= lib.asDouble) = .ok 0 :=
    readMissing lib same (by simp [temperaturesRoot]) converts.doubleNull
  have state : (lib.member (.object members) "State" >>= stateOf lib) = .ok t.state :=
    readMember lib same (by simp [temperaturesRoot]) (givesState converts t.state)
  unfold temperatures
  rw [verboseMember lib "BeerTemp" same (by simp [temperaturesRoot]),
    verboseMember lib "BeerSet" same (by simp [temperaturesRoot]),
    verboseMember lib "BeerAnn" same (by simp [temperaturesRoot]),
    verboseMember lib "FridgeTemp" same (by simp [temperaturesRoot]),
    verboseMember lib "FridgeSet" same (by simp [temperaturesRoot]),
    verboseMember lib "FridgeAnn" same (by simp [temperaturesRoot]),
    verboseMember lib "RoomTemp" same (by simp [temperaturesRoot]),
    verboseMember lib "State" same (by simp [temperaturesRoot])]
  rw [beerReading,beerSetting,beerText,fridgeReading,fridgeSetting,fridgeText,roomTemp,state]
  rfl

theorem settingsDecoded {s : ControlSettings} (same : ∀ key,
    SameMember ((membersOf (controlSettingsRoot lib s)).lookup key) (members.lookup key)) :
    controlSettings lib (.object members) = .ok s := by
  have beerSetting : (lib.member (.object members) "beerSet" >>= lib.asDouble) = .ok s.beerSetting :=
    readMember lib same (by simp [controlSettingsRoot]) (givesNullable converts s.beerSetting)
  have fridgeSetting : (lib.member (.object members) "fridgeSet" >>= lib.asDouble) = .ok s.fridgeSetting :=
    readMember lib same (by simp [controlSettingsRoot]) (givesNullable converts s.fridgeSetting)
  have heatEstimator : (lib.member (.object members) "heatEst" >>= lib.asDouble) = .ok s.heatEstimator :=
    readMember lib same (by simp [controlSettingsRoot]) (givesNullable converts s.heatEstimator)
  have coolEstimator : (lib.member (.object members) "coolEst" >>= lib.asDouble) = .ok s.coolEstimator :=
    readMember lib same (by simp [controlSettingsRoot]) (givesNullable converts s.coolEstimator)
  have mode : (lib.member (.object members) "mode" >>= lib.asString) =
      .ok (if s.mode = .null then [] else [Mode.toChar s.mode]) :=
    readMember lib same (by simp [controlSettingsRoot]) (givesMode converts s.mode)
  unfold controlSettings
  rw [beerSetting,fridgeSetting,heatEstimator,coolEstimator,mode]
  have kept : Mode.ofText (if s.mode = .null then [] else [Mode.toChar s.mode]) = s.mode := by
    cases s.mode <;> rfl
  exact congrArg (fun m => Except.ok {s with mode := m}) kept

-- What the text does not hold is left as it is in memory.
def unwritten (c : ControlConstants) : ControlConstants :=
  {c with tempFormat := none, pidMax := none, Kp := none, Ki := none, Kd := none}

theorem constantsDecoded {c : ControlConstants} (same : ∀ key,
    SameMember ((membersOf (controlConstantsRoot lib c)).lookup key) (members.lookup key)) :
    controlConstants lib (.object members) = .ok (unwritten c) := by
  have tempSettingMin : (lib.member (.object members) "tempSetMin" >>= lib.asDouble) = .ok c.tempSettingMin :=
    readMember lib same (by simp [controlConstantsRoot]) (givesReal converts c.tempSettingMin)
  have tempSettingMax : (lib.member (.object members) "tempSetMax" >>= lib.asDouble) = .ok c.tempSettingMax :=
    readMember lib same (by simp [controlConstantsRoot]) (givesReal converts c.tempSettingMax)
  have iMaxError : (lib.member (.object members) "iMaxError" >>= lib.asDouble) = .ok c.iMaxError :=
    readMember lib same (by simp [controlConstantsRoot]) (givesReal converts c.iMaxError)
  have idleRangeHigh : (lib.member (.object members) "idleRangeH" >>= lib.asDouble) = .ok c.idleRangeHigh :=
    readMember lib same (by simp [controlConstantsRoot]) (givesReal converts c.idleRangeHigh)
  have idleRangeLow : (lib.member (.object members) "idleRangeL" >>= lib.asDouble) = .ok c.idleRangeLow :=
    readMember lib same (by simp [controlConstantsRoot]) (givesReal converts c.idleRangeLow)
  have heatingTargetUpper : (lib.member (.object members) "heatTargetH" >>= lib.asDouble) = .ok c.heatingTargetUpper :=
    readMember lib same (by simp [controlConstantsRoot]) (givesReal converts c.heatingTargetUpper)
  have heatingTargetLower : (lib.member (.object members) "heatTargetL" >>= lib.asDouble) = .ok c.heatingTargetLower :=
    readMember lib same (by simp [controlConstantsRoot]) (givesReal converts c.heatingTargetLower)
  have coolingTargetUpper : (lib.member (.object members) "coolTargetH" >>= lib.asDouble) = .ok c.coolingTargetUpper :=
    readMember lib same (by simp [controlConstantsRoot]) (givesReal converts c.coolingTargetUpper)
  have coolingTargetLower : (lib.member (.object members) "coolTargetL" >>= lib.asDouble) = .ok c.coolingTargetLower :=
    readMember lib same (by simp [controlConstantsRoot]) (givesReal converts c.coolingTargetLower)
  have maxHeatTimeForEstimate : (lib.member (.object members) "maxHeatTimeForEst" >>= lib.asInt64) = .ok c.maxHeatTimeForEstimate :=
    readMember lib same (by simp [controlConstantsRoot]) (givesTime converts c.maxHeatTimeForEstimate)
  have maxCoolTimeForEstimate : (lib.member (.object members) "maxCoolTimeForEst" >>= lib.asInt64) = .ok c.maxCoolTimeForEstimate :=
    readMember lib same (by simp [controlConstantsRoot]) (givesTime converts c.maxCoolTimeForEstimate)
  have fridgeFastFilter : (lib.member (.object members) "fridgeFastFilt" >>= lib.asUInt) = .ok c.fridgeFastFilter.toUInt32 :=
    readMember lib same (by simp [controlConstantsRoot]) (givesFilter converts c.fridgeFastFilter)
  have fridgeSlowFilter : (lib.member (.object members) "fridgeSlowFilt" >>= lib.asUInt) = .ok c.fridgeSlowFilter.toUInt32 :=
    readMember lib same (by simp [controlConstantsRoot]) (givesFilter converts c.fridgeSlowFilter)
  have fridgeSlopeFilter : (lib.member (.object members) "fridgeSlopeFilt" >>= lib.asUInt) = .ok c.fridgeSlopeFilter.toUInt32 :=
    readMember lib same (by simp [controlConstantsRoot]) (givesFilter converts c.fridgeSlopeFilter)
  have beerFastFilter : (lib.member (.object members) "beerFastFilt" >>= lib.asUInt) = .ok c.beerFastFilter.toUInt32 :=
    readMember lib same (by simp [controlConstantsRoot]) (givesFilter converts c.beerFastFilter)
  have beerSlowFilter : (lib.member (.object members) "beerSlowFilt" >>= lib.asUInt) = .ok c.beerSlowFilter.toUInt32 :=
    readMember lib same (by simp [controlConstantsRoot]) (givesFilter converts c.beerSlowFilter)
  have beerSlopeFilter : (lib.member (.object members) "beerSlopeFilt" >>= lib.asUInt) = .ok c.beerSlopeFilter.toUInt32 :=
    readMember lib same (by simp [controlConstantsRoot]) (givesFilter converts c.beerSlopeFilter)
  have lightAsHeater : (lib.member (.object members) "lah" >>= lib.asBool) = .ok c.lightAsHeater :=
    readMember lib same (by simp [controlConstantsRoot]) (givesFlag converts c.lightAsHeater)
  have rotaryHalfSteps : (lib.member (.object members) "hs" >>= lib.asBool) = .ok c.rotaryHalfSteps :=
    readMember lib same (by simp [controlConstantsRoot]) (givesFlag converts c.rotaryHalfSteps)
  unfold controlConstants
  rw [tempSettingMin,tempSettingMax,iMaxError,idleRangeHigh,idleRangeLow,heatingTargetUpper,
    heatingTargetLower,coolingTargetUpper,coolingTargetLower,maxHeatTimeForEstimate,maxCoolTimeForEstimate,
    fridgeFastFilter,fridgeSlowFilter,fridgeSlopeFilter,beerFastFilter,beerSlowFilter,
    beerSlopeFilter,lightAsHeater,rotaryHalfSteps]
  simp only [bind,Except.bind,UInt8.toUInt8_toUInt32]
  rfl

theorem variablesDecoded {v : ControlVariables} (same : ∀ key,
    SameMember ((membersOf (controlVariablesRoot lib v)).lookup key) (members.lookup key)) :
    controlVariables lib (.object members) = .ok v := by
  have beerDiff : (lib.member (.object members) "beerDiff" >>= lib.asDouble) = .ok v.beerDiff :=
    readMember lib same (by simp [controlVariablesRoot]) (givesReal converts v.beerDiff)
  have diffIntegral : (lib.member (.object members) "diffIntegral" >>= lib.asDouble) = .ok v.diffIntegral :=
    readMember lib same (by simp [controlVariablesRoot]) (givesReal converts v.diffIntegral)
  have beerSlope : (lib.member (.object members) "beerSlope" >>= lib.asDouble) = .ok v.beerSlope :=
    readMember lib same (by simp [controlVariablesRoot]) (givesReal converts v.beerSlope)
  have p : (lib.member (.object members) "p" >>= lib.asDouble) = .ok v.p :=
    readMember lib same (by simp [controlVariablesRoot]) (givesReal converts v.p)
  have i : (lib.member (.object members) "i" >>= lib.asDouble) = .ok v.i :=
    readMember lib same (by simp [controlVariablesRoot]) (givesReal converts v.i)
  have d : (lib.member (.object members) "d" >>= lib.asDouble) = .ok v.d :=
    readMember lib same (by simp [controlVariablesRoot]) (givesReal converts v.d)
  have estPeak : (lib.member (.object members) "estPeak" >>= lib.asDouble) = .ok v.estPeak :=
    readMember lib same (by simp [controlVariablesRoot]) (givesReal converts v.estPeak)
  have negPeakEst : (lib.member (.object members) "negPeakEst" >>= lib.asDouble) = .ok v.negPeakEst :=
    readMember lib same (by simp [controlVariablesRoot]) (givesReal converts v.negPeakEst)
  have posPeakEst : (lib.member (.object members) "posPeakEst" >>= lib.asDouble) = .ok v.posPeakEst :=
    readMember lib same (by simp [controlVariablesRoot]) (givesReal converts v.posPeakEst)
  have negPeak : (lib.member (.object members) "negPeak" >>= lib.asDouble) = .ok v.negPeak :=
    readMember lib same (by simp [controlVariablesRoot]) (givesReal converts v.negPeak)
  have posPeak : (lib.member (.object members) "posPeak" >>= lib.asDouble) = .ok v.posPeak :=
    readMember lib same (by simp [controlVariablesRoot]) (givesReal converts v.posPeak)
  unfold controlVariables
  rw [beerDiff,diffIntegral,beerSlope,p,i,d,estPeak,negPeakEst,posPeakEst,negPeak,posPeak]
  rfl

theorem roomTempLost {write : Value → Bytes} {t : Temperatures}
    (written : ReadsBack lib write (temperaturesRoot lib t)) :
    ReadsAs lib (temperatures lib) (temperaturesText lib write t) {t with roomTemp := 0} := by
  obtain ⟨members,read,same⟩ := written
  exact ⟨_,read,temperaturesDecoded converts same⟩

end

theorem readsAsUnique {α : Type} {lib : Library} {decode : Value → Except JsonException α}
    {text : Bytes} {first second : α} (left : ReadsAs lib decode text first)
    (right : ReadsAs lib decode text second) : first = second := by
  obtain ⟨reply,parsed,decoded⟩ := left
  obtain ⟨again,same,other⟩ := right
  cases parsed.symm.trans same
  exact Except.ok.inj (decoded.symm.trans other)

theorem temperaturesSurvive {lib : Library} (converts : Converts lib) {write : Value → Bytes}
    {t : Temperatures} (written : ReadsBack lib write (temperaturesRoot lib t)) :
    ReadsAs lib (temperatures lib) (temperaturesText lib write t) t ↔ t.roomTemp = 0 := by
  have lost := roomTempLost converts written
  constructor
  · intro survives
    exact congrArg Temperatures.roomTemp (readsAsUnique survives lost)
  · intro zero
    have whole : {t with roomTemp := 0} = t := by rw [← zero]
    rwa [whole] at lost

def Scalars (root : Value) : Prop := ∀ key v, (membersOf root).lookup key = some v → Same v v

theorem scalarsSet {lib : Library} {root value : Value} (scalars : Scalars root)
    (own : Same value value) (key : String) : Scalars (setMember lib key value root) := by
  intro other v found
  rw [lookupSet] at found
  split at found
  · cases found
    exact own
  · exact scalars other v found

theorem scalarsSetIf {α : Type} [DecidableEq α] {lib : Library} {root : Value}
    (scalars : Scalars root) {make : α → Value} (own : ∀ a, Same (make a) (make a)) (key : String)
    (value nullValue : α) : Scalars (setIf lib make key value nullValue root) := by
  unfold setIf
  split
  · exact scalarsSet scalars .null key
  · exact scalarsSet scalars (own value) key

theorem scalarsSetText {lib : Library} {root : Value} (scalars : Scalars root) (key : String)
    (value : Bytes) : Scalars (setIfNotEmpty lib key value root) := by
  unfold setIfNotEmpty
  split
  · exact scalarsSet scalars .null key
  · exact scalarsSet scalars (.string value) key

theorem scalarsNull : Scalars .null := fun _ _ found => by cases found

theorem sameReal (q : Rat) : Same (.real q) (.real q) := .number rfl rfl

theorem sameInt (n : Int64) : Same (.int n) (.int n) := .number rfl rfl

theorem temperaturesScalars (lib : Library) (t : Temperatures) :
    Scalars (temperaturesRoot lib t) := by
  unfold temperaturesRoot
  refine scalarsSetIf ?_ (fun _ => sameInt _) _ _ _
  refine scalarsSetText (scalarsSetIf (scalarsSetIf ?_ sameReal _ _ _) sameReal _ _ _) _ _
  exact scalarsSetText (scalarsSetIf (scalarsSetIf scalarsNull sameReal _ _ _) sameReal _ _ _) _ _

def silent : Library := documented (fun _ => none) fun _ => []

-- It reads one text, as what is assigned in making the root.
def reading (text : Bytes) (root : Library → Value) : Library :=
  documented (fun other => if other = text then some (root silent) else none) fun _ => []

theorem readingBack (text : Bytes) {root : Library → Value}
    (same : root (reading text root) = root silent)
    (built : root silent = .object (membersOf (root silent))) (scalars : Scalars (root silent)) :
    ReadsBack (reading text root) (fun _ => text) (root (reading text root)) := by
  refine ⟨membersOf (root silent),(if_pos rfl).trans (congrArg some built),fun key => ?_⟩
  rw [same]
  cases found : (membersOf (root silent)).lookup key with
  | none => exact .absent
  | some v => exact .present (scalars key v found)

def warm : Temperatures := {beerReading := 20, beerAnnotation := [97], state := .heating}

def warmText : Bytes :=
  ("\x7b\"BeerAnn\":\"a\",\"BeerSet\":null,\"BeerTemp\":20.0,\"FridgeAnn\":null," ++
    "\"FridgeSet\":null,\"FridgeTemp\":null,\"State\":3\x7d\n").toUTF8.toList

def warmLibrary : Library := reading warmText (temperaturesRoot · warm)

theorem temperaturesSurviveWarm :
    ReadsAs warmLibrary (temperatures warmLibrary) (temperaturesText warmLibrary (fun _ => warmText) warm)
      warm ↔ warm.roomTemp = 0 :=
  have converts : Converts warmLibrary := documentedConverts _ _
  have written : ReadsBack warmLibrary (fun _ => warmText) (temperaturesRoot warmLibrary warm) :=
    readingBack warmText rfl rfl (temperaturesScalars silent warm)
  temperaturesSurvive converts written

def roomText : Bytes :=
  ("\x7b\"BeerAnn\":null,\"BeerSet\":null,\"BeerTemp\":null,\"FridgeAnn\":null," ++
    "\"FridgeSet\":null,\"FridgeTemp\":null,\"State\":null\x7d\n").toUTF8.toList

def roomLibrary : Library := reading roomText (temperaturesRoot · {roomTemp := 21})

theorem temperaturesChanged :
    ReadsAs roomLibrary (temperatures roomLibrary)
      (temperaturesText roomLibrary (fun _ => roomText) {roomTemp := 21}) {} ∧
    ¬ ∀ lib write t, Converts lib → ReadsBack lib write (temperaturesRoot lib t) →
      ReadsAs lib (temperatures lib) (temperaturesText lib write t) t := by
  have converts : Converts roomLibrary := documentedConverts _ _
  have written : ReadsBack roomLibrary (fun _ => roomText)
      (temperaturesRoot roomLibrary {roomTemp := 21}) :=
    readingBack roomText rfl rfl (temperaturesScalars silent {roomTemp := 21})
  have lost := roomTempLost converts written
  refine ⟨lost,?_⟩
  intro all
  have same := readsAsUnique (all _ _ {roomTemp := 21} converts written) lost
  exact absurd (congrArg Temperatures.roomTemp same) (by decide)

inductive ControlRecord where
  | controlSettings (s : ControlSettings)
  | controlConstants (c : ControlConstants)
  | controlVariables (v : ControlVariables)

def recordRoot (lib : Library) : ControlRecord → Value
  | .controlSettings s => controlSettingsRoot lib s
  | .controlConstants c => controlConstantsRoot lib c
  | .controlVariables v => controlVariablesRoot lib v

def Determined (c : ControlConstants) : Prop :=
  c.tempFormat ≠ none ∧ c.pidMax ≠ none ∧ c.Kp ≠ none ∧ c.Ki ≠ none ∧ c.Kd ≠ none

def Survives (lib : Library) (write : Value → Bytes) : ControlRecord → Prop
  | .controlSettings s => ReadsAs lib (controlSettings lib) (controlSettingsText lib write s) s
  | .controlConstants c => ∃ d, ReadsAs lib (controlConstants lib) (controlConstantsText lib write c) d ∧
      Determined d ∧ d = c
  | .controlVariables v => ReadsAs lib (controlVariables lib) (controlVariablesText lib write v) v

def IsConstants : ControlRecord → Prop
  | .controlConstants _ => True
  | _ => False

theorem constantsLost {lib : Library} (converts : Converts lib) {write : Value → Bytes}
    {c : ControlConstants} (written : ReadsBack lib write (controlConstantsRoot lib c)) :
    ReadsAs lib (controlConstants lib) (controlConstantsText lib write c) (unwritten c) := by
  obtain ⟨members,read,same⟩ := written
  exact ⟨_,read,constantsDecoded converts same⟩

theorem constantsUndetermined {lib : Library} (converts : Converts lib) {write : Value → Bytes}
    {c : ControlConstants} (written : ReadsBack lib write (controlConstantsRoot lib c)) :
    ¬ Survives lib write (.controlConstants c) := by
  rintro ⟨d,read,determined,_⟩
  cases readsAsUnique read (constantsLost converts written)
  exact determined.1 rfl

theorem controlSurvives {lib : Library} (converts : Converts lib) {write : Value → Bytes}
    {r : ControlRecord} (written : ReadsBack lib write (recordRoot lib r)) :
    (Survives lib write r ↔ ¬ IsConstants r) ∧ ∀ c, r = .controlConstants c →
      ReadsAs lib (controlConstants lib) (controlConstantsText lib write c) (unwritten c) := by
  cases r with
  | controlSettings s =>
    obtain ⟨members,read,same⟩ := written
    have survives : Survives lib write (.controlSettings s) := ⟨_,read,settingsDecoded converts same⟩
    exact ⟨iff_of_true survives id,fun _ other => by contradiction⟩
  | controlConstants c =>
    refine ⟨iff_of_false (constantsUndetermined converts written) (fun other => other trivial),?_⟩
    rintro _ ⟨⟩
    exact constantsLost converts written
  | controlVariables v =>
    obtain ⟨members,read,same⟩ := written
    have survives : Survives lib write (.controlVariables v) := ⟨_,read,variablesDecoded converts same⟩
    exact ⟨iff_of_true survives id,fun _ other => by contradiction⟩

theorem settingsScalars (lib : Library) (s : ControlSettings) :
    Scalars (controlSettingsRoot lib s) := by
  unfold controlSettingsRoot
  refine scalarsSetIf ?_ (fun _ => .string _) _ _ _
  repeat refine scalarsSetIf ?_ sameReal _ _ _
  exact scalarsNull

def brewing : ControlSettings := {mode := .beerConstant, beerSetting := 20}

def brewingText : Bytes :=
  ("\x7b\"beerSet\":20.0,\"coolEst\":null,\"fridgeSet\":null,\"heatEst\":null," ++
    "\"mode\":\"b\"\x7d\n").toUTF8.toList

def brewingLibrary : Library := reading brewingText (controlSettingsRoot · brewing)

theorem controlSurvivesBrewing :
    (Survives brewingLibrary (fun _ => brewingText) (.controlSettings brewing) ↔
        ¬ IsConstants (.controlSettings brewing)) ∧
      ∀ c, .controlSettings brewing = ControlRecord.controlConstants c →
        ReadsAs brewingLibrary (controlConstants brewingLibrary)
          (controlConstantsText brewingLibrary (fun _ => brewingText) c) (unwritten c) :=
  have converts : Converts brewingLibrary := documentedConverts _ _
  have written : ReadsBack brewingLibrary (fun _ => brewingText)
      (controlSettingsRoot brewingLibrary brewing) :=
    readingBack brewingText rfl rfl (settingsScalars silent brewing)
  controlSurvives (r := .controlSettings brewing) converts written

theorem constantsScalars (lib : Library) (c : ControlConstants) : Scalars (controlConstantsRoot lib c) := by
  unfold controlConstantsRoot
  repeat refine scalarsSet ?_ (.number rfl rfl) _
  exact scalarsNull

def zeroText : Bytes :=
  ("\x7b\"beerFastFilt\":0,\"beerSlopeFilt\":0,\"beerSlowFilt\":0,\"coolTargetH\":0.0," ++
    "\"coolTargetL\":0.0,\"fridgeFastFilt\":0,\"fridgeSlopeFilt\":0,\"fridgeSlowFilt\":0," ++
    "\"heatTargetH\":0.0,\"heatTargetL\":0.0,\"hs\":0,\"iMaxError\":0.0,\"idleRangeH\":0.0," ++
    "\"idleRangeL\":0.0,\"lah\":0,\"maxCoolTimeForEst\":0,\"maxHeatTimeForEst\":0," ++
    "\"tempSetMax\":0.0,\"tempSetMin\":0.0\x7d\n").toUTF8.toList

def zeroLibrary : Library := reading zeroText (controlConstantsRoot · {})

theorem controlChanged : Determined {} ∧
    ReadsAs zeroLibrary (controlConstants zeroLibrary)
      (controlConstantsText zeroLibrary (fun _ => zeroText) {}) (unwritten {}) ∧
    ¬ ∀ lib write r, Converts lib → ReadsBack lib write (recordRoot lib r) → Survives lib write r := by
  have converts : Converts zeroLibrary := documentedConverts _ _
  have written : ReadsBack zeroLibrary (fun _ => zeroText) (controlConstantsRoot zeroLibrary {}) :=
    readingBack zeroText rfl rfl (constantsScalars silent {})
  refine ⟨by simp [Determined],constantsLost converts written,?_⟩
  intro all
  exact constantsUndetermined converts written (all _ _ (.controlConstants {}) converts written)

end Chambermaid.SerialText
