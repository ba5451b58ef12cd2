import Chambermaid.Json

/-! The firmware's replies and the calls that ask for them. A call is a program that
writes, waits for a line and decodes it; what the port answers is not in it. -/
namespace Chambermaid.Serial
open Json

def newline : UInt8 := 10
def carriageReturn : UInt8 := 13

def rfind (c : UInt8) : Bytes → Option Nat
  | [] => none
  | x::s => match rfind c s with
    | some i => some (i+1)
    | none => if x = c then some 0 else none

def stripCarriageReturn (s : Bytes) : Bytes :=
  match rfind carriageReturn s with
  | some i => s.take i
  | none => s

structure FwVersionInfo where
  version : Value := .null
  isSimulator : Value := .null
  log : Value := .null
  build : Value := .null
  commit : Value := .null
  shield : Value := .null
  board : Value := .null

def fwVersionInfo (lib : Library) (reply : Value) : Except JsonException FwVersionInfo := do
  let version ← lib.member reply "v"
  let isSimulator ← lib.get reply "y" (.boolean false)
  let log ← lib.get reply "l" (.string [])
  let build ← lib.get reply "n" (.string [])
  let commit ← lib.get reply "c" (.string [])
  let shield ← lib.get reply "s" (.string [])
  let board ← lib.get reply "b" (.string [])
  return ⟨version,isSimulator,log,build,commit,shield,board⟩

inductive State where
  | idle | stateOff | doorOpen | heating | cooling | waitingToCool | waitingToHeat
  | waitingForPeakDetect | coolingMinTime | heatingMinTime | null
  deriving DecidableEq, Repr

-- static_cast<State>, for the values the constructor lets through.
def State.ofInt (n : Int) : State :=
  if n < 0 ∨ n ≥ 10 then .null else
    match n.toNat with
    | 0 => .idle | 1 => .stateOff | 2 => .doorOpen | 3 => .heating | 4 => .cooling
    | 5 => .waitingToCool | 6 => .waitingToHeat | 7 => .waitingForPeakDetect
    | 8 => .coolingMinTime | _ => .heatingMinTime

structure Temperatures where
  beerReading : Rat := 0
  beerSetting : Rat := 0
  beerAnnotation : Bytes := []
  fridgeReading : Rat := 0
  fridgeSetting : Rat := 0
  fridgeAnnotation : Bytes := []
  roomTemp : Rat := 0
  state : State := .null
  deriving DecidableEq, Repr

def compactOrVerbose (lib : Library) (v : Value) (compact verbose : String) :
    Except JsonException Value := do
  match ← lib.find v compact with
  | some found => .ok found
  | none => lib.member v verbose

def stateOf (lib : Library) (value : Value) : Except JsonException State :=
  match value with
  | .null => .ok .null
  | value => if convertible .asInt value then
      do return State.ofInt (← lib.asInt value).toInt
    else .ok .null

def temperatures (lib : Library) (reply : Value) : Except JsonException Temperatures := do
  let beerReading ← compactOrVerbose lib reply "bt" "BeerTemp" >>= lib.asDouble
  let beerSetting ← compactOrVerbose lib reply "bs" "BeerSet" >>= lib.asDouble
  let beerAnnotation ← compactOrVerbose lib reply "ba" "BeerAnn" >>= lib.asString
  let fridgeReading ← compactOrVerbose lib reply "ft" "FridgeTemp" >>= lib.asDouble
  let fridgeSetting ← compactOrVerbose lib reply "fs" "FridgeSet" >>= lib.asDouble
  let fridgeAnnotation ← compactOrVerbose lib reply "fa" "FridgeAnn" >>= lib.asString
  let roomTemp ← compactOrVerbose lib reply "rt" "RoomTemp" >>= lib.asDouble
  let state ← compactOrVerbose lib reply "s" "State" >>= stateOf lib
  return ⟨beerReading,beerSetting, beerAnnotation,fridgeReading,fridgeSetting, fridgeAnnotation,
    roomTemp,state⟩

inductive Mode where
  | fridgeConstant | beerConstant | beerProfile | off | test | null
  deriving DecidableEq, Repr

def Mode.ofText : Bytes → Mode
  | [] => .null
  | c::_ =>
    if c = 98 then .beerConstant
    else if c = 112 then .beerProfile
    else if c = 102 then .fridgeConstant
    else if c = 111 then .off
    else if c = 116 then .test
    else .null

structure ControlSettings where
  mode : Mode := .null
  beerSetting : Rat := 0
  fridgeSetting : Rat := 0
  heatEstimator : Rat := 0
  coolEstimator : Rat := 0
  deriving DecidableEq, Repr

def controlSettings (lib : Library) (reply : Value) : Except JsonException ControlSettings := do
  let beerSetting ← lib.member reply "beerSet" >>= lib.asDouble
  let fridgeSetting ← lib.member reply "fridgeSet" >>= lib.asDouble
  let heatEstimator ← lib.member reply "heatEst" >>= lib.asDouble
  let coolEstimator ← lib.member reply "coolEst" >>= lib.asDouble
  let modeValue ← lib.member reply "mode" >>= lib.asString
  return ⟨Mode.ofText modeValue,beerSetting,fridgeSetting,heatEstimator,coolEstimator⟩

-- Value-initialised to zero, which is no enumerator.
inductive TempFormat where
  | celcius | fahrenheit | zero
  deriving DecidableEq, Repr

/-! The reply constructor leaves five members as they are in memory: `none`. -/
structure ControlConstants where
  tempFormat : Option TempFormat := some .zero
  tempSettingMin : Rat := 0
  tempSettingMax : Rat := 0
  pidMax : Option Rat := some 0
  Kp : Option Rat := some 0
  Ki : Option Rat := some 0
  Kd : Option Rat := some 0
  iMaxError : Rat := 0
  idleRangeHigh : Rat := 0
  idleRangeLow : Rat := 0
  heatingTargetUpper : Rat := 0
  heatingTargetLower : Rat := 0
  coolingTargetUpper : Rat := 0
  coolingTargetLower : Rat := 0
  maxHeatTimeForEstimate : Int64 := 0
  maxCoolTimeForEstimate : Int64 := 0
  fridgeFastFilter : UInt8 := 0
  fridgeSlowFilter : UInt8 := 0
  fridgeSlopeFilter : UInt8 := 0
  beerFastFilter : UInt8 := 0
  beerSlowFilter : UInt8 := 0
  beerSlopeFilter : UInt8 := 0
  lightAsHeater : Bool := false
  rotaryHalfSteps : Bool := false
  deriving DecidableEq, Repr

def controlConstants (lib : Library) (reply : Value) : Except JsonException ControlConstants := do
  let tempSettingMin ← lib.member reply "tempSetMin" >>= lib.asDouble
  let tempSettingMax ← lib.member reply "tempSetMax" >>= lib.asDouble
  let iMaxError ← lib.member reply "iMaxError" >>= lib.asDouble
  let idleRangeHigh ← lib.member reply "idleRangeH" >>= lib.asDouble
  let idleRangeLow ← lib.member reply "idleRangeL" >>= lib.asDouble
  let heatingTargetUpper ← lib.member reply "heatTargetH" >>= lib.asDouble
  let heatingTargetLower ← lib.member reply "heatTargetL" >>= lib.asDouble
  let coolingTargetUpper ← lib.member reply "coolTargetH" >>= lib.asDouble
  let coolingTargetLower ← lib.member reply "coolTargetL" >>= lib.asDouble
  let maxHeatTimeForEstimate ← lib.member reply "maxHeatTimeForEst" >>= lib.asInt64
  let maxCoolTimeForEstimate ← lib.member reply "maxCoolTimeForEst" >>= lib.asInt64
  let fridgeFastFilter ← lib.member reply "fridgeFastFilt" >>= lib.asUInt
  let fridgeSlowFilter ← lib.member reply "fridgeSlowFilt" >>= lib.asUInt
  let fridgeSlopeFilter ← lib.member reply "fridgeSlopeFilt" >>= lib.asUInt
  let beerFastFilter ← lib.member reply "beerFastFilt" >>= lib.asUInt
  let beerSlowFilter ← lib.member reply "beerSlowFilt" >>= lib.asUInt
  let beerSlopeFilter ← lib.member reply "beerSlopeFilt" >>= lib.asUInt
  let lightAsHeater ← lib.member reply "lah" >>= lib.asBool
  let rotaryHalfSteps ← lib.member reply "hs" >>= lib.asBool
  return {
    tempFormat := none
    tempSettingMin,tempSettingMax
    pidMax := none
    Kp := none
    Ki := none
    Kd := none
    iMaxError,idleRangeHigh,idleRangeLow,heatingTargetUpper,heatingTargetLower,
    coolingTargetUpper,coolingTargetLower,maxHeatTimeForEstimate,maxCoolTimeForEstimate
    fridgeFastFilter := fridgeFastFilter.toUInt8
    fridgeSlowFilter := fridgeSlowFilter.toUInt8
    fridgeSlopeFilter := fridgeSlopeFilter.toUInt8
    beerFastFilter := beerFastFilter.toUInt8
    beerSlowFilter := beerSlowFilter.toUInt8
    beerSlopeFilter := beerSlopeFilter.toUInt8
    lightAsHeater,rotaryHalfSteps}

structure ControlVariables where
  beerDiff : Rat := 0
  diffIntegral : Rat := 0
  beerSlope : Rat := 0
  p : Rat := 0
  i : Rat := 0
  d : Rat := 0
  estPeak : Rat := 0
  negPeakEst : Rat := 0
  posPeakEst : Rat := 0
  negPeak : Rat := 0
  posPeak : Rat := 0
  deriving DecidableEq, Repr

def controlVariables (lib : Library) (reply : Value) : Except JsonException ControlVariables := do
  let beerDiff ← lib.member reply "beerDiff" >>= lib.asDouble
  let diffIntegral ← lib.member reply "diffIntegral" >>= lib.asDouble
  let beerSlope ← lib.member reply "beerSlope" >>= lib.asDouble
  let p ← lib.member reply "p" >>= lib.asDouble
  let i ← lib.member reply "i" >>= lib.asDouble
  let d ← lib.member reply "d" >>= lib.asDouble
  let estPeak ← lib.member reply "estPeak" >>= lib.asDouble
  let negPeakEst ← lib.member reply "negPeakEst" >>= lib.asDouble
  let posPeakEst ← lib.member reply "posPeakEst" >>= lib.asDouble
  let negPeak ← lib.member reply "negPeak" >>= lib.asDouble
  let posPeak ← lib.member reply "posPeak" >>= lib.asDouble
  return ⟨beerDiff,diffIntegral,beerSlope,p,i,d,estPeak,negPeakEst,posPeakEst,negPeak,posPeak⟩

/-! Programs over the buffered port. A system_error from the port ends any of them,
so only the time-out, which one call catches, has a continuation. -/
inductive Thrown where
  | systemError | timeout | json (e : JsonException)
  deriving DecidableEq, Repr

inductive Io (α : Type) where
  | ret (a : α)
  | raise (e : Thrown)
  | write (data : Bytes) (next : Io α)
  | readStringUntil (seconds : Nat) (delim : Bytes) (line : Bytes → Io α) (timedOut : Io α)

def Io.map {α β : Type} (f : α → β) : Io α → Io β
  | .ret a => .ret (f a)
  | .raise e => .raise e
  | .write data next => .write data (next.map f)
  | .readStringUntil seconds delim line timedOut =>
    .readStringUntil seconds delim (fun data => (line data).map f) (timedOut.map f)

inductive PortEvent where
  | wrote | line (data : Bytes) | timedOut | fails
  deriving DecidableEq, Repr

def Io.step {α : Type} : Io α → PortEvent → Option (Io α)
  | .write _ next,.wrote => some next
  | .write _ _,.fails => some (.raise .systemError)
  | .readStringUntil _ _ line _,.line data => some (line data)
  | .readStringUntil _ _ _ timedOut,.timedOut => some timedOut
  | .readStringUntil _ _ _ _,.fails => some (.raise .systemError)
  | _,_ => none

def decoded {α : Type} : Except JsonException α → Io α
  | .ok a => .ret a
  | .error e => .raise (.json e)

def answer {α : Type} (lib : Library) (letter : UInt8) (shortest : Nat) (defaultRecord : α)
    (decode : Value → Except JsonException α) (line : Bytes) : Io α :=
  if line.length < shortest ∨ line.head? ≠ some letter then .ret defaultRecord else
    match lib.parse (line.drop 2) with
    | none => .ret defaultRecord
    | some reply => decoded (decode reply)

def request {α : Type} (lib : Library) (letter reply : UInt8) (defaultRecord : α)
    (decode : Value → Except JsonException α) : Io α :=
  .write [letter] (.readStringUntil 1 [newline]
    (fun data => answer lib reply 3 defaultRecord decode (stripCarriageReturn data)) (.raise .timeout))

def getTemperatures (lib : Library) : Io Temperatures := request lib 116 84 {} (temperatures lib)

def getControlSettings (lib : Library) : Io ControlSettings :=
  request lib 115 83 {} (controlSettings lib)

def getControlConstants (lib : Library) : Io ControlConstants :=
  request lib 99 67 {} (controlConstants lib)

def getControlVariables (lib : Library) : Io ControlVariables :=
  request lib 118 86 {} (controlVariables lib)

-- The loop of get_version_info with the tries it has left.
def versionLoop (lib : Library) : Nat → Bytes → Io FwVersionInfo
  | 0,line => answer lib 78 2 {} (fwVersionInfo lib) line
  | tries+1,line =>
    if line = [] ∨ line.head? ≠ some 78 then
      .readStringUntil 1 [newline]
        (fun data => if data = [] then .write [110] (versionLoop lib tries line)
          else versionLoop lib tries (stripCarriageReturn data))
        (.write [110] (versionLoop lib tries line))
    else answer lib 78 2 {} (fwVersionInfo lib) line

def getVersionInfo (lib : Library) : Io FwVersionInfo := .write [110] (versionLoop lib 10 [])

end Chambermaid.Serial
