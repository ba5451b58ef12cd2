import Chambermaid.Serial
import Chambermaid.Runs

/-! What a reply must be for a call to return. The decoders look members up in a root
the reader may have taken from any JSON text and convert them unguarded, so an
exception of the JSON library can leave a call that declares it never does. -/
namespace Chambermaid.SerialReply
open Json Serial Runs

inductive Kind where
  | version | temperatures | controlSettings | controlConstants | controlVariables
  deriving DecidableEq, Repr

inductive Record where
  | version (record : FwVersionInfo)
  | temperatures (record : Temperatures)
  | controlSettings (record : ControlSettings)
  | controlConstants (record : ControlConstants)
  | controlVariables (record : ControlVariables)

def call (lib : Library) : Kind → Io Record
  | .version => (getVersionInfo lib).map .version
  | .temperatures => (getTemperatures lib).map .temperatures
  | .controlSettings => (getControlSettings lib).map .controlSettings
  | .controlConstants => (getControlConstants lib).map .controlConstants
  | .controlVariables => (getControlVariables lib).map .controlVariables

def decode (lib : Library) (kind : Kind) (reply : Value) : Except JsonException Record :=
  match kind with
  | .version => Record.version <$> fwVersionInfo lib reply
  | .temperatures => Record.temperatures <$> temperatures lib reply
  | .controlSettings => Record.controlSettings <$> controlSettings lib reply
  | .controlConstants => Record.controlConstants <$> controlConstants lib reply
  | .controlVariables => Record.controlVariables <$> controlVariables lib reply

def defaultRecord : Kind → Record
  | .version => .version {}
  | .temperatures => .temperatures {}
  | .controlSettings => .controlSettings {}
  | .controlConstants => .controlConstants {}
  | .controlVariables => .controlVariables {}

def requestLetter : Kind → UInt8
  | .version => 110
  | .temperatures => 116
  | .controlSettings => 115
  | .controlConstants => 99
  | .controlVariables => 118

def replyLetter : Kind → UInt8
  | .version => 78
  | .temperatures => 84
  | .controlSettings => 83
  | .controlConstants => 67
  | .controlVariables => 86

def shortest : Kind → Nat
  | .version => 2
  | _ => 3

structure Field where
  compact : String
  verbose : String
  conversion : Conversion

def plain (conversion : Conversion) (key : String) : Field := ⟨key,key,conversion⟩

def Field.value (f : Field) (v : Value) : Value :=
  ((membersOf v).lookup f.compact).getD (memberOf v f.verbose)

theorem plainValue (conversion : Conversion) (key : String) (v : Value) :
    (plain conversion key).value v = memberOf v key := by
  unfold Field.value plain memberOf
  cases (membersOf v).lookup key <;> rfl

theorem plainConversion (conversion : Conversion) (key : String) :
    (plain conversion key).conversion = conversion := rfl

def fields : Kind → List Field
  | .version => []
  | .temperatures => [⟨"bt","BeerTemp",.asDouble⟩,⟨"bs","BeerSet",.asDouble⟩,
      ⟨"ba","BeerAnn",.asString⟩,⟨"ft","FridgeTemp",.asDouble⟩,⟨"fs","FridgeSet",.asDouble⟩,
      ⟨"fa","FridgeAnn",.asString⟩,⟨"rt","RoomTemp",.asDouble⟩]
  | .controlSettings =>
    ["beerSet","fridgeSet","heatEst","coolEst"].map (plain .asDouble) ++ [plain .asString "mode"]
  | .controlConstants =>
    ["tempSetMin","tempSetMax","iMaxError","idleRangeH","idleRangeL","heatTargetH","heatTargetL",
      "coolTargetH","coolTargetL"].map (plain .asDouble) ++
    ["maxHeatTimeForEst","maxCoolTimeForEst"].map (plain .asInt64) ++
    ["fridgeFastFilt","fridgeSlowFilt","fridgeSlopeFilt","beerFastFilt","beerSlowFilt",
      "beerSlopeFilt"].map (plain .asUInt) ++ ["lah","hs"].map (plain .asBool)
  | .controlVariables =>
    ["beerDiff","diffIntegral","beerSlope","p","i","d","estPeak","negPeakEst","posPeakEst","negPeak",
      "posPeak"].map (plain .asDouble)

def Decodable (kind : Kind) (reply : Value) : Prop :=
  isContainer reply = true ∧ ∀ f ∈ fields kind, convertible f.conversion (f.value reply) = true

instance (kind : Kind) (reply : Value) : Decidable (Decodable kind reply) := by
  unfold Decodable; infer_instance

section
variable (lib : Library) (v : Value)

theorem memberDouble (key : String) : (∃ a, (lib.member v key >>= lib.asDouble) = .ok a) ↔
    isContainer v = true ∧ convertible .asDouble (memberOf v key) = true :=
  memberReads lib lib.asDoubleReturns

theorem memberString (key : String) : (∃ a, (lib.member v key >>= lib.asString) = .ok a) ↔
    isContainer v = true ∧ convertible .asString (memberOf v key) = true :=
  memberReads lib lib.asStringReturns

theorem memberBool (key : String) : (∃ a, (lib.member v key >>= lib.asBool) = .ok a) ↔
    isContainer v = true ∧ convertible .asBool (memberOf v key) = true :=
  memberReads lib lib.asBoolReturns

theorem memberUInt (key : String) : (∃ a, (lib.member v key >>= lib.asUInt) = .ok a) ↔
    isContainer v = true ∧ convertible .asUInt (memberOf v key) = true :=
  memberReads lib lib.asUIntReturns

theorem memberInt64 (key : String) : (∃ a, (lib.member v key >>= lib.asInt64) = .ok a) ↔
    isContainer v = true ∧ convertible .asInt64 (memberOf v key) = true :=
  memberReads lib lib.asInt64Returns

theorem compactOk (container : isContainer v = true) (compact verbose : String) :
    compactOrVerbose lib v compact verbose =
      .ok (((membersOf v).lookup compact).getD (memberOf v verbose)) := by
  unfold compactOrVerbose
  rw [lib.findMember compact container]
  cases (membersOf v).lookup compact with
  | some found => rfl
  | none => exact lib.memberIs verbose container

theorem compactReturns (compact verbose : String) :
    Returns (compactOrVerbose lib v compact verbose) ↔ isContainer v = true := by
  constructor
  · intro returns
    obtain ⟨found,here,_⟩ := (returnsBind _ _).mp returns
    exact (lib.findReturns v compact).mp ⟨found,here⟩
  · exact fun container => ⟨_,compactOk lib v container compact verbose⟩

theorem compactReads {α : Type} {read : Value → Except JsonException α} {c : Conversion}
    (reads : ∀ v, Returns (read v) ↔ convertible c v = true) (compact verbose : String) :
    (∃ a, (compactOrVerbose lib v compact verbose >>= read) = .ok a) ↔ isContainer v = true ∧
      convertible c (((membersOf v).lookup compact).getD (memberOf v verbose)) = true :=
  foundReads (compactReturns lib v compact verbose)
    (fun container => compactOk lib v container compact verbose) reads

theorem stateReturns (value : Value) : Returns (stateOf lib value) := by
  unfold stateOf
  split
  · exact ⟨_,rfl⟩
  · split
    · rename_i converts
      obtain ⟨n,found⟩ := (lib.asIntReturns value).mpr converts
      exact ⟨State.ofInt n.toInt,by rw [found]; rfl⟩
    · exact ⟨_,rfl⟩

theorem stateReads (compact verbose : String) :
    (∃ a, (compactOrVerbose lib v compact verbose >>= stateOf lib) = .ok a) ↔
      isContainer v = true := by
  refine (returnsBind _ _).trans ?_
  constructor
  · rintro ⟨w,found,_⟩
    exact (compactReturns lib v compact verbose).mp ⟨w,found⟩
  · exact fun container => ⟨_,compactOk lib v container compact verbose,stateReturns lib _⟩

theorem versionReturns : Returns (fwVersionInfo lib v) ↔ Decodable .version v := by
  simp only [fwVersionInfo,returnsBind,exists_and_right,returnsPure,and_true]
  have returns : (∃ a, lib.member v "v" = .ok a) ↔ isContainer v = true := lib.memberReturns v "v"
  have gets : ∀ key defaultValue, (∃ a, lib.get v key defaultValue = .ok a) ↔ isContainer v = true :=
    lib.getReturns v
  simp only [returns,gets,Decodable,fields,List.not_mem_nil,false_implies,implies_true,and_self,and_true]

theorem temperaturesReturns : Returns (temperatures lib v) ↔ Decodable .temperatures v := by
  simp only [temperatures,returnsBind,exists_and_right,returnsPure,and_true]
  simp only [compactReads lib v lib.asDoubleReturns,compactReads lib v lib.asStringReturns,stateReads]
  cases container : isContainer v <;> simp [Decodable,fields,Field.value,container]

theorem settingsReturns : Returns (controlSettings lib v) ↔ Decodable .controlSettings v := by
  simp only [controlSettings,returnsBind,exists_and_right,returnsPure,and_true]
  simp only [memberDouble,memberString]
  cases container : isContainer v <;> simp [Decodable,fields,plainValue,plainConversion,container]

theorem constantsReturns : Returns (controlConstants lib v) ↔ Decodable .controlConstants v := by
  simp only [controlConstants,returnsBind,exists_and_right,returnsPure,and_true]
  simp only [memberDouble,memberInt64,memberUInt,memberBool]
  cases container : isContainer v <;> simp [Decodable,fields,plainValue,plainConversion,container]

theorem variablesReturns : Returns (controlVariables lib v) ↔ Decodable .controlVariables v := by
  simp only [controlVariables,returnsBind,exists_and_right,returnsPure,and_true]
  simp only [memberDouble]
  cases container : isContainer v <;> simp [Decodable,fields,plainValue,plainConversion,container]

theorem returnsMap {ε α β : Type} (f : α → β) (x : Except ε α) : Returns (f <$> x) ↔ Returns x := by
  cases x with
  | error e => simp [Returns,Functor.map,Except.map]
  | ok a => simp [Returns,Functor.map,Except.map]

theorem decodeReturns (kind : Kind) : Returns (decode lib kind v) ↔ Decodable kind v := by
  cases kind with
  | version => exact (returnsMap _ _).trans (versionReturns lib v)
  | temperatures => exact (returnsMap _ _).trans (temperaturesReturns lib v)
  | controlSettings => exact (returnsMap _ _).trans (settingsReturns lib v)
  | controlConstants => exact (returnsMap _ _).trans (constantsReturns lib v)
  | controlVariables => exact (returnsMap _ _).trans (variablesReturns lib v)

end

def answered (lib : Library) (kind : Kind) (line : Bytes) : Io Record :=
  answer lib (replyLetter kind) (shortest kind) (defaultRecord kind) (decode lib kind) line

theorem decodedMap {α β : Type} (f : α → β) (x : Except JsonException α) :
    (decoded x).map f = decoded (f <$> x) := by
  cases x <;> rfl

theorem answerMap {α β : Type} (f : α → β) (lib : Library) (letter : UInt8) (shortest : Nat)
    (defaultRecord : α) (decode : Value → Except JsonException α) (line : Bytes) :
    (answer lib letter shortest defaultRecord decode line).map f =
      answer lib letter shortest (f defaultRecord) (fun v => f <$> decode v) line := by
  unfold answer
  split
  · rfl
  · split
    · rfl
    · exact decodedMap f _

theorem requestMap {α β : Type} (f : α → β) (lib : Library) (letter reply : UInt8)
    (defaultRecord : α) (decode : Value → Except JsonException α) :
    (request lib letter reply defaultRecord decode).map f =
      request lib letter reply (f defaultRecord) (fun v => f <$> decode v) := by
  simp only [request,Io.map,answerMap]

theorem callRequest (lib : Library) {kind : Kind} (other : kind ≠ .version) : call lib kind =
    .write [requestLetter kind] (.readStringUntil 1 [newline]
      (fun data => answered lib kind (stripCarriageReturn data)) (.raise .timeout)) := by
  cases kind with
  | version => exact absurd rfl other
  | temperatures => exact requestMap ..
  | controlSettings => exact requestMap ..
  | controlConstants => exact requestMap ..
  | controlVariables => exact requestMap ..

def versionCall (lib : Library) (tries : Nat) (line : Bytes) : Io Record :=
  (versionLoop lib tries line).map .version

theorem callVersion (lib : Library) : call lib .version = .write [110] (versionCall lib 10 []) := rfl

theorem versionEnds (lib : Library) {tries : Nat} {line : Bytes}
    (ended : tries = 0 ∨ line.head? = some 78) :
    versionCall lib tries line = answered lib .version line := by
  have answers : (answer lib 78 2 {} (fwVersionInfo lib) line).map .version =
      answered lib .version line := answerMap ..
  unfold versionCall
  cases tries with
  | zero => exact answers
  | succ tries =>
    have letter : line.head? = some 78 := by
      rcases ended with none | letter
      · contradiction
      · exact letter
    have done : ¬ (line = [] ∨ line.head? ≠ some 78) := by
      rintro (empty | other)
      · rw [empty] at letter
        contradiction
      · exact other letter
    unfold versionLoop
    rw [if_neg done]
    exact answers

theorem versionReads (lib : Library) (tries : Nat) {line : Bytes} (other : line.head? ≠ some 78) :
    versionCall lib (tries+1) line = .readStringUntil 1 [newline]
      (fun data => if data = [] then .write [110] (versionCall lib tries line)
        else versionCall lib tries (stripCarriageReturn data))
      (.write [110] (versionCall lib tries line)) := by
  unfold versionCall
  rw [versionLoop,if_pos (.inr other)]
  simp only [Io.map,apply_ite (Io.map Record.version)]

def Finished {α : Type} : Io α → Prop
  | .ret _ => True
  | .raise _ => True
  | _ => False

instance {α : Type} (p : Io α) : Decidable (Finished p) := by
  cases p <;> unfold Finished <;> infer_instance

-- throw(boost::system::system_error, BufferedIO::TimeoutException)
def throwSpecification : Thrown → Bool
  | .systemError => true
  | .timeout => true
  | .json _ => false

def Contained {α : Type} : Io α → Prop
  | .raise e => throwSpecification e = true
  | _ => True

def linesOf (events : List PortEvent) : List Bytes :=
  events.filterMap fun
    | .line data => some data
    | _ => none

def HarmlessText (lib : Library) (kind : Kind) (line : Bytes) : Prop :=
  line.length < shortest kind ∨ line.head? ≠ some (replyLetter kind) ∨
    ∀ reply, lib.parse (line.drop 2) = some reply → Decodable kind reply

def Harmless (lib : Library) (kind : Kind) (data : Bytes) : Prop :=
  HarmlessText lib kind (stripCarriageReturn data)

theorem finishedStops {α : Type} {p q : Io α} {events : List PortEvent} (finished : Finished p)
    (run : Run Io.step Anything p events q) : events = [] ∧ q = p := by
  cases run with
  | done => exact ⟨rfl,rfl⟩
  | next _ moved _ =>
    cases p with
    | ret a => cases moved
    | raise e => cases moved
    | write data next => exact finished.elim
    | readStringUntil seconds delim line timedOut => exact finished.elim

theorem raiseStops {α : Type} {e : Thrown} {q : Io α} {events : List PortEvent}
    (run : Run Io.step Anything (.raise e) events q) : events = [] ∧ q = .raise e :=
  finishedStops (show Finished (.raise e : Io α) from trivial) run

theorem decodedFinished {α : Type} (x : Except JsonException α) : Finished (decoded x) := by
  cases x <;> exact trivial

theorem decodedContained {α : Type} (x : Except JsonException α) :
    Contained (decoded x) ↔ Returns x := by
  cases x with
  | ok a => exact ⟨fun _ => ⟨a,rfl⟩,fun _ => trivial⟩
  | error e =>
    constructor
    · intro contained
      exact absurd contained Bool.false_ne_true
    · rintro ⟨a,found⟩
      cases found

theorem answeredFinished (lib : Library) (kind : Kind) (line : Bytes) :
    Finished (answered lib kind line) := by
  unfold answered answer
  split
  · exact trivial
  · split
    · exact trivial
    · exact decodedFinished _

theorem answeredContained (lib : Library) (kind : Kind) (line : Bytes) :
    Contained (answered lib kind line) ↔ HarmlessText lib kind line := by
  unfold answered answer HarmlessText
  split
  · rename_i nothing
    exact ⟨fun _ => nothing.elim .inl (fun other => .inr (.inl other)),fun _ => trivial⟩
  · rename_i something
    obtain ⟨long,letter⟩ := not_or.mp something
    split
    · rename_i unparsed
      refine ⟨fun _ => .inr (.inr ?_),fun _ => trivial⟩
      intro reply parsed
      rw [unparsed] at parsed
      contradiction
    · rename_i reply parsed
      rw [decodedContained,decodeReturns]
      constructor
      · intro decodable
        refine .inr (.inr ?_)
        intro other same
        rw [parsed] at same
        cases same
        exact decodable
      · rintro (short | other | decodable)
        · exact absurd short long
        · exact absurd other letter
        · exact decodable reply parsed

theorem writeRun {α : Type} {data : Bytes} {next q : Io α} {events : List PortEvent}
    (run : Run Io.step Anything (.write data next) events q) (finished : Finished q) :
    (∃ rest, events = .wrote::rest ∧ Run Io.step Anything next rest q) ∨
    (events = [.fails] ∧ q = .raise .systemError) := by
  cases run with
  | done => exact finished.elim
  | @next _ t _ e rest _ moved later =>
    cases e with
    | wrote =>
      cases moved
      exact .inl ⟨rest,rfl,later⟩
    | fails =>
      cases moved
      obtain ⟨none,same⟩ := raiseStops later
      exact .inr ⟨by rw [none],same⟩
    | line data => cases moved
    | timedOut => cases moved

theorem readRun {α : Type} {seconds : Nat} {delim : Bytes} {line : Bytes → Io α} {timedOut q : Io α}
    {events : List PortEvent}
    (run : Run Io.step Anything (.readStringUntil seconds delim line timedOut) events q)
    (finished : Finished q) :
    (∃ data rest, events = .line data::rest ∧ Run Io.step Anything (line data) rest q) ∨
    (∃ rest, events = .timedOut::rest ∧ Run Io.step Anything timedOut rest q) ∨
    (events = [.fails] ∧ q = .raise .systemError) := by
  cases run with
  | done => exact finished.elim
  | @next _ t _ e rest _ moved later =>
    cases e with
    | wrote => cases moved
    | fails =>
      cases moved
      obtain ⟨none,same⟩ := raiseStops later
      exact .inr (.inr ⟨by rw [none],same⟩)
    | line data =>
      cases moved
      exact .inl ⟨data,rest,rfl,later⟩
    | timedOut =>
      cases moved
      exact .inr (.inl ⟨rest,rfl,later⟩)

theorem harmlessUnlettered {lib : Library} {kind : Kind} {line : Bytes}
    (other : line.head? ≠ some (replyLetter kind)) : HarmlessText lib kind line := .inr (.inl other)

theorem harmlessEmpty (lib : Library) (kind : Kind) : Harmless lib kind [] :=
  harmlessUnlettered (by simp [stripCarriageReturn,rfind])

theorem requestContained {lib : Library} {kind : Kind} (other : kind ≠ .version)
    {events : List PortEvent} {result : Io Record}
    (run : Run Io.step Anything (call lib kind) events result) (finished : Finished result) :
    Contained result ↔ ∀ data ∈ linesOf events, Harmless lib kind data := by
  rw [callRequest lib other] at run
  rcases writeRun run finished with ⟨rest,events,later⟩ | ⟨events,same⟩
  · rcases readRun later finished with ⟨data,rest,read,ends⟩ | ⟨rest,read,ends⟩ | ⟨read,same⟩
    · obtain ⟨none,same⟩ := finishedStops (answeredFinished lib kind _) ends
      rw [same,answeredContained,events,read,none]
      simp [linesOf,Harmless]
    · obtain ⟨none,same⟩ := raiseStops ends
      rw [same,events,read,none]
      simp [linesOf,Contained,throwSpecification]
    · rw [same,events,read]
      simp [linesOf,Contained,throwSpecification]
  · rw [same,events]
    simp [linesOf,Contained,throwSpecification]

theorem versionContained {lib : Library} (tries : Nat) : ∀ {line : Bytes} {events : List PortEvent}
    {result : Io Record}, Run Io.step Anything (versionCall lib tries line) events result →
    Finished result → (Contained result ↔
      HarmlessText lib .version line ∧ ∀ data ∈ linesOf events, Harmless lib .version data) := by
  induction tries with
  | zero =>
    intro line events result run finished
    rw [versionEnds lib (.inl rfl)] at run
    obtain ⟨none,same⟩ := finishedStops (answeredFinished lib .version line) run
    rw [same,answeredContained,none]
    simp [linesOf]
  | succ tries ih =>
    intro line events result run finished
    by_cases letter : line.head? = some 78
    · rw [versionEnds lib (.inr letter)] at run
      obtain ⟨none,same⟩ := finishedStops (answeredFinished lib .version line) run
      rw [same,answeredContained,none]
      simp [linesOf]
    · have harmless : HarmlessText lib .version line := harmlessUnlettered letter
      -- Asking again changes nothing about the lines read so far.
      have again : ∀ {events : List PortEvent},
          Run Io.step Anything (.write [110] (versionCall lib tries line)) events result →
          (Contained result ↔ ∀ data ∈ linesOf events, Harmless lib .version data) := by
        intro events run
        rcases writeRun run finished with ⟨rest,events,later⟩ | ⟨events,same⟩
        · rw [ih later finished,events]
          simp [linesOf,harmless]
        · rw [same,events]
          simp [linesOf,Contained,throwSpecification]
      rw [versionReads lib tries letter] at run
      rcases readRun run finished with ⟨data,rest,read,ends⟩ | ⟨rest,read,ends⟩ | ⟨read,same⟩
      · split at ends
        · rename_i empty
          rw [again ends,read,empty]
          simp [linesOf,harmless,harmlessEmpty]
        · rw [ih ends finished,read]
          simp [linesOf,harmless,Harmless]
      · rw [again ends,read]
        simp [linesOf,harmless]
      · rw [same,read]
        simp [linesOf,harmless,Contained,throwSpecification]

theorem malformedContained (lib : Library) (kind : Kind) {events : List PortEvent}
    {result : Io Record} (run : Run Io.step Anything (call lib kind) events result)
    (finished : Finished result) :
    Contained result ↔ ∀ data ∈ linesOf events, Harmless lib kind data := by
  by_cases version : kind = .version
  · rw [version] at run ⊢
    rw [callVersion] at run
    have harmless : HarmlessText lib .version [] := harmlessEmpty lib .version
    rcases writeRun run finished with ⟨rest,events,later⟩ | ⟨events,same⟩
    · rw [versionContained 10 later finished,events]
      simp [linesOf,harmless]
    · rw [same,events]
      simp [linesOf,Contained,throwSpecification]
  · exact requestContained version run finished

def small : Library := documented readsTwo (fun _ => [])

theorem malformedContainedEmpty :
    Contained (answered small .temperatures [84,58,123,125]) ↔
      ∀ data ∈ linesOf [.wrote,.line [84,58,123,125]], Harmless small .temperatures data := by
  have run : Run Io.step Anything (call small .temperatures) [.wrote,.line [84,58,123,125]]
      (answered small .temperatures [84,58,123,125]) := by
    rw [callRequest small (by decide)]
    exact .next trivial rfl (.next trivial rfl (.done _))
  exact malformedContained small .temperatures run (answeredFinished small .temperatures _)

theorem malformedEscapes : ∃ result, Run Io.step Anything (call small .temperatures)
    [.wrote,.line [84,58,53]] result ∧ Finished result ∧ ¬ Contained result := by
  have thrown : answered small .temperatures [84,58,53] = .raise (.json .logicError) := rfl
  refine ⟨.raise (.json .logicError),?_,trivial,Bool.false_ne_true⟩
  rw [callRequest small (by decide),← thrown]
  exact .next trivial rfl (.next trivial rfl (.done _))

end Chambermaid.SerialReply
