import Chambermaid.CommandLine
import Mathlib.Tactic.SplitIfs

/-! The configuration file under the options. Options() looks for a file in the default
places and reads it before any argument is seen, so `-conf` names a file that nothing
opens. Reading an INI text is the library's; what it throws is of another type than the
constructor declares, which ends the program. -/
namespace Chambermaid.ConfigFile
open Digits CommandLine

inductive Errc where
  | ioError | invalidArgument | noSuchFileOrDirectory
  deriving DecidableEq, Repr

inductive Failure where
  | systemError (code : Errc) (what : String) | filesystemError (what : String)
  | unexpected (what : String)
  deriving DecidableEq, Repr

structure Libraries where
  readIni : Text → Except String (List (String × String))
  getBool : String → Except String Bool
  connectionConfig : ConnectionConfig

structure Environment where
  isRegularFile : String → Except String Bool
  contents : String → Option Text
  home : Option String
  passwdHome : Option String

def confName : String := "brewpipp.conf"

def append (path name : String) : String :=
  if path = "" ∨ path.endsWith "/" then path ++ name else path ++ "/" ++ name

def isRegularFile (env : Environment) (path : String) : Except Failure Bool :=
  (env.isRegularFile path).mapError .filesystemError

def inDirectory (env : Environment) : Option String → Except Failure (Option String)
  | none => .ok none
  | some directory => do
    let found ← isRegularFile env (append directory confName)
    return if found then some (append directory confName) else none

def optionsGetConfigFile (env : Environment) (confFile : String) : Except Failure String := do
  if confFile ≠ "" then return confFile
  if ← isRegularFile env ("/etc/" ++ confName) then return "/etc/" ++ confName
  if let some file ← inDirectory env env.home then return file
  if let some file ← inDirectory env env.passwdHome then return file
  if ← isRegularFile env confName then return confName
  throw (.systemError .noSuchFileOrDirectory ("Could not find " ++ confName))

def setEntry (lib : Libraries) (o : Options) (entry : String × String) : Except Failure Options :=
  let (key,value) := entry
  if key = "SECURE_ONLY" then do
    return {o with secureOnly := ← (lib.getBool value).mapError .unexpected}
  else if key = "REQUIRE_LOGIN" then do
    return {o with requireLogin := ← (lib.getBool value).mapError .unexpected}
  else if key = "DB.TYPE" then
    match getTypes.lookup value with
    | none => .error (.systemError .invalidArgument ("Unknown Database Type: " ++ value))
    | some type => .ok {o with sqlConfig.type := type}
  else if key = "DB.DATABASE" then .ok {o with sqlConfig.database := value}
  else if key = "DB.USERNAME" then .ok {o with sqlConfig.username := value}
  else if key = "DB.PASSWORD" then .ok {o with sqlConfig.password := value}
  else if key = "DB.DSN" then .ok {o with sqlConfig.dataSourceName := value}
  else .error (.systemError .invalidArgument ("Unknown parameter: " ++ key))

-- Options() from where conf_file is known.
def readOptions (lib : Libraries) (env : Environment) (confFile : String) : Except Failure Options := do
  match env.contents confFile with
  | none => .error (.systemError .ioError ("Could not open " ++ confFile))
  | some text =>
    let props ← (lib.readIni text).mapError .unexpected
    props.foldlM (setEntry lib) ⟨confFile,false,true,lib.connectionConfig⟩

def defaultOptions (lib : Libraries) (env : Environment) : Except Failure Options := do
  readOptions lib env (← optionsGetConfigFile env "")

inductive Construction where
  | failed (failure : Failure)
  | processed (outcome : Option Outcome)
  deriving DecidableEq, Repr

def delegated (argv : List String) (console : Console) : Except Failure Options → Construction
  | .error failure => .failed failure
  | .ok base => .processed (fromArguments argv base console)

-- Options::Options(argc, argv) with the Options() it delegates to.
def construct (lib : Libraries) (env : Environment) (argv : List String) (console : Console) :
    Construction :=
  delegated argv console (defaultOptions lib env)

/-! What was asked for: the settings of the named file, on which every flag does in turn what
it is there for, whatever stands in the default places. -/
def takesValue (flag : String) : Bool :=
  match meaning flag with
  | .valued _ => true
  | _ => false

def namedFile : List String → Option String
  | [] => none
  | [_] => none
  | flag::v::rest =>
    if takesValue flag then (namedFile rest).or (if flag = "-conf" then some v else none)
    else namedFile (v::rest)

def Valid (argv : List String) (console : Console) : Prop := ∀ base, ∃ t,
  process argv (meant argv) argv.length 1 ⟨base,console,[]⟩ = some (.constructed t)

def firstPlace : String := "/etc/" ++ confName

def places (env : Environment) : List String :=
  firstPlace :: (env.home.toList ++ env.passwdHome.toList).map (append · confName) ++ [confName]

-- Paths that lead to one place show one file.
structure Located (locate : String → String) (env : Environment) : Prop where
  contents : ∀ p q, locate p = locate q → env.contents p = env.contents q
  regular : ∀ p q, locate p = locate q → env.isRegularFile p = .ok true → env.isRegularFile q = .ok true

/- Another machine with the same named file; the others in the default places may differ. -/
structure Elsewhere (locate : String → String) (confFile : String) (env other : Environment) : Prop where
  home : other.home = env.home
  passwdHome : other.passwdHome = env.passwdHome
  kept : ∀ path, locate path = locate confFile ∨ (∀ d ∈ places env, locate path ≠ locate d) →
    other.isRegularFile path = env.isRegularFile path ∧ other.contents path = env.contents path

def Wanted (lib : Libraries) (env : Environment) (argv : List String) (console : Console)
    (confFile : String) (result : Construction) : Prop :=
  match readOptions lib env confFile with
  | .error failure => result = .failed failure
  | .ok o => AllMeant argv 1 ⟨o,console,[]⟩ ∧
    result = .processed (process argv (meant argv) argv.length 1 ⟨o,console,[]⟩)

def UsesNamed (lib : Libraries) (locate : String → String) (env : Environment) (argv : List String)
    (console : Console) (confFile : String) : Prop :=
  ∀ other, Located locate other → Elsewhere locate confFile env other →
    Wanted lib env argv console confFile (construct lib other argv console)

structure FoundFirst (lib : Libraries) (locate : String → String) (env : Environment)
    (argv : List String) (confFile : String) : Prop where
  place : locate confFile = locate firstPlace
  regular : env.isRegularFile firstPlace = .ok true
  opened : env.contents confFile = none → confFile = firstPlace
  sound : (∃ o, readOptions lib env confFile = .ok o) → sound argv.tail = true

theorem searchFirst {env : Environment} (regular : env.isRegularFile firstPlace = .ok true) :
    optionsGetConfigFile env "" = .ok firstPlace := by
  have found : isRegularFile env ("/etc/" ++ confName) = .ok true := congrArg (Except.mapError _) regular
  unfold optionsGetConfigFile
  rw [found]
  rfl

theorem placeNone {env : Environment} {path : String} (absent : env.isRegularFile path ≠ .ok true) :
    isRegularFile env path = .ok false ∨ ∃ what, isRegularFile env path = .error (.filesystemError what) := by
  unfold isRegularFile
  cases found : env.isRegularFile path with
  | error what => exact .inr ⟨what,rfl⟩
  | ok regular =>
    cases regular with
    | false => exact .inl rfl
    | true => exact absurd found absent

theorem directoryNone {env : Environment} {directory : Option String}
    (none : ∀ d ∈ directory, env.isRegularFile (append d confName) ≠ .ok true) :
    inDirectory env directory = .ok .none ∨ ∃ what, inDirectory env directory = .error (.filesystemError what) := by
  cases directory with
  | none => exact .inl rfl
  | some d =>
    unfold inDirectory
    rcases placeNone (none d rfl) with absent | ⟨what,failed⟩
    · exact .inl (by dsimp only; rw [absent]; rfl)
    · exact .inr ⟨what,by dsimp only; rw [failed]; rfl⟩

theorem searchNone {env : Environment} (none : ∀ d ∈ places env, env.isRegularFile d ≠ .ok true) :
    (∃ what, optionsGetConfigFile env "" = .error (.filesystemError what)) ∨
      ∃ what, optionsGetConfigFile env "" = .error (.systemError .noSuchFileOrDirectory what) := by
  have home : ∀ d ∈ env.home, env.isRegularFile (append d confName) ≠ .ok true := fun d here =>
    none _ (by simp [places,Option.mem_def.mp here])
  have passwd : ∀ d ∈ env.passwdHome, env.isRegularFile (append d confName) ≠ .ok true := fun d here =>
    none _ (by simp [places,Option.mem_def.mp here])
  unfold optionsGetConfigFile
  rcases placeNone (none firstPlace (by simp [places])) with first | ⟨what,first⟩
  · rcases directoryNone home with second | ⟨what,second⟩
    · rcases directoryNone passwd with third | ⟨what,third⟩
      · rcases placeNone (none confName (by simp [places])) with last | ⟨what,last⟩
        · exact .inr ⟨_,by rw [firstPlace] at first; rw [first,second,third,last]; rfl⟩
        · exact .inl ⟨what,by rw [firstPlace] at first; rw [first,second,third,last]; rfl⟩
      · exact .inl ⟨what,by rw [firstPlace] at first; rw [first,second,third]; rfl⟩
    · exact .inl ⟨what,by rw [firstPlace] at first; rw [first,second]; rfl⟩
  · exact .inl ⟨what,by rw [firstPlace] at first; rw [first]; rfl⟩

inductive ReadFailure (confFile : String) : Failure → Prop where
  | opening : ReadFailure confFile (.systemError .ioError ("Could not open " ++ confFile))
  | entry (what : String) : ReadFailure confFile (.systemError .invalidArgument what)
  | library (what : String) : ReadFailure confFile (.unexpected what)

theorem entryFails {lib : Libraries} {o : Options} {entry : String × String} {failure : Failure}
    (confFile : String) (failed : setEntry lib o entry = .error failure) : ReadFailure confFile failure := by
  unfold setEntry at failed
  dsimp only at failed
  split_ifs at failed
  · cases read : lib.getBool entry.2 <;> rw [read] at failed <;> cases failed
    exact .library _
  · cases read : lib.getBool entry.2 <;> rw [read] at failed <;> cases failed
    exact .library _
  · cases found : getTypes.lookup entry.2 <;> rw [found] at failed <;> cases failed
    exact .entry _
  · cases failed
    exact .entry _

theorem entriesFail {lib : Libraries} {props : List (String × String)} {failure : Failure}
    (confFile : String) : ∀ {o : Options}, props.foldlM (setEntry lib) o = .error failure →
      ReadFailure confFile failure := by
  induction props with
  | nil => exact fun failed => by cases failed
  | cons entry props ih =>
    intro o failed
    rw [List.foldlM_cons] at failed
    cases set : setEntry lib o entry with
    | error x =>
      rw [set] at failed
      cases failed
      exact entryFails confFile set
    | ok t =>
      rw [set] at failed
      exact ih failed

theorem readFails {lib : Libraries} {env : Environment} {confFile : String} {failure : Failure}
    (failed : readOptions lib env confFile = .error failure) : ReadFailure confFile failure := by
  unfold readOptions at failed
  split at failed
  · cases failed
    exact .opening
  · rename_i text there
    cases read : lib.readIni text with
    | error what =>
      rw [read] at failed
      cases failed
      exact .library _
    | ok props =>
      rw [read] at failed
      exact entriesFail confFile failed

def named (confFile : String) (o : Options) : Options := {o with confFile := confFile}

theorem entryNamed (lib : Libraries) (confFile : String) (o : Options) (entry : String × String) :
    setEntry lib (named confFile o) entry = (setEntry lib o entry).map (named confFile) := by
  unfold setEntry
  dsimp only
  split_ifs
  · cases lib.getBool entry.2 <;> rfl
  · cases lib.getBool entry.2 <;> rfl
  · cases getTypes.lookup entry.2 <;> rfl
  all_goals rfl

theorem entriesNamed (lib : Libraries) (confFile : String) (props : List (String × String)) :
    ∀ o, props.foldlM (setEntry lib) (named confFile o) =
      (props.foldlM (setEntry lib) o).map (named confFile) := by
  induction props with
  | nil => exact fun _ => rfl
  | cons entry props ih =>
    intro o
    rw [List.foldlM_cons,List.foldlM_cons,entryNamed]
    cases setEntry lib o entry with
    | error x => rfl
    | ok t => exact ih t

theorem readNamed {lib : Libraries} {env other : Environment} {path confFile : String}
    (same : other.contents path = env.contents confFile)
    (opened : env.contents confFile = none → confFile = path) :
    readOptions lib other path = (readOptions lib env confFile).map (named path) := by
  unfold readOptions
  rw [same]
  cases there : env.contents confFile with
  | none =>
    rw [opened there]
    rfl
  | some text =>
    dsimp only
    cases lib.readIni text with
    | error what => rfl
    | ok props => exact entriesNamed lib path props ⟨confFile,false,true,lib.connectionConfig⟩

def renamed (confFile : String) (s : Session) : Session := {s with options := named confFile s.options}

theorem plainNamed {flag : String} {set : Options → Options} (means : meaning flag = .plain set)
    (confFile : String) (o : Options) : set (named confFile o) = named confFile (set o) := by
  unfold meaning at means
  split at means <;> first | contradiction | skip
  all_goals
    cases means
    rfl

theorem valuedNamed {flag v : String} {set : String → Options → Except String Options}
    (means : meaning flag = .valued set) (confFile : String) (o : Options) :
    (flag = "-conf" ∧ set v (named confFile o) = set v o) ∨
      (flag ≠ "-conf" ∧ set v (named confFile o) = (set v o).map (named confFile)) := by
  unfold meaning at means
  split at means <;> first | contradiction | skip
  · cases means
    exact .inl ⟨rfl,rfl⟩
  · cases means
    refine .inr ⟨by decide,?_⟩
    dsimp only
    cases getTypes.lookup v <;> rfl
  all_goals
    cases means
    exact .inr ⟨by decide,rfl⟩

theorem namedUnvalued {flag : String} (other : takesValue flag = false) (rest : List String) :
    namedFile (flag::rest) = namedFile rest := by
  cases rest with
  | nil => rfl
  | cons v rest => simp [namedFile,other]

theorem meantValued {argv : List String} {i : Nat} {flag v : String}
    {set : String → Options → Except String Options} (here : argv[i]? = some flag)
    (means : meaning flag = .valued set) (value : argv[i+1]? = some v) {s : Session} {options : Options}
    (accepted : set v s.options = .ok options) :
    meant argv i s = .next (i+2) {(s.read i).read (i+1) with options := options} := by
  have more : i + 1 ≠ argv.length := Nat.ne_of_lt (List.getElem?_eq_some_iff.mp value).1
  have same : set v ((s.read i).read (i+1)).options = .ok options := accepted
  unfold meant
  rw [here]
  dsimp only
  rw [means]
  dsimp only
  unfold withValue
  rw [if_pos more,value]
  dsimp only
  rw [same]

theorem meantValuedNext {argv : List String} {i j : Nat} {flag : String}
    {set : String → Options → Except String Options} (here : argv[i]? = some flag)
    (means : meaning flag = .valued set) {s t : Session} (moved : meant argv i s = .next j t) :
    ∃ v options, argv[i+1]? = some v ∧ set v s.options = .ok options ∧ j = i+2 ∧
      t = {(s.read i).read (i+1) with options := options} := by
  unfold meant at moved
  rw [here] at moved
  dsimp only at moved
  rw [means] at moved
  obtain ⟨v,value,used⟩ := withValueNext moved
  split at used
  · rename_i options accepted
    cases used
    exact ⟨v,options,value,accepted,rfl,rfl⟩
  · contradiction

/- An iteration from other options that differ in the name of the file alone: it is given a new
name, or it stays to be given one. -/
theorem meantRenamed {argv : List String} {i j : Nat} {s t : Session} (moved : meant argv i s = .next j t)
    (confFile : String) (stays : (namedFile (argv.drop i)).isSome = true) :
    meant argv i (renamed confFile s) = .next j t ∨
      (meant argv i (renamed confFile s) = .next j (renamed confFile t) ∧
        (namedFile (argv.drop j)).isSome = true) := by
  cases here : argv[i]? with
  | none =>
    rw [List.drop_eq_nil_of_le (List.getElem?_eq_none_iff.mp here)] at stays
    contradiction
  | some flag =>
    obtain ⟨inside,same⟩ := List.getElem?_eq_some_iff.mp here
    have cut := List.drop_eq_getElem_cons inside
    rw [same] at cut
    rw [cut] at stays
    cases means : meaning flag with
    | valued set =>
      obtain ⟨v,options,value,accepted,rfl,rfl⟩ := meantValuedNext here means moved
      obtain ⟨more,same⟩ := List.getElem?_eq_some_iff.mp value
      have behind := List.drop_eq_getElem_cons more
      rw [same] at behind
      rcases valuedNamed (v := v) means confFile s.options with ⟨conf,kept⟩ | ⟨other,kept⟩
      · exact .inl (meantValued (s := renamed confFile s) here means value (kept.trans accepted))
      · rw [accepted] at kept
        refine .inr ⟨meantValued (s := renamed confFile s) here means value kept,?_⟩
        rw [behind,namedFile,if_pos (by simp [takesValue,means]),if_neg other,Option.or_none] at stays
        exact stays
    | unknown =>
      unfold meant at moved
      rw [here] at moved
      dsimp only at moved
      rw [means] at moved
      contradiction
    | plain set =>
      unfold meant at moved ⊢
      rw [here] at moved ⊢
      dsimp only at moved ⊢
      rw [means] at moved ⊢
      cases moved
      rw [namedUnvalued (by simp [takesValue,means])] at stays
      refine .inr ⟨?_,stays⟩
      have commutes := plainNamed means confFile s.options
      simp only [renamed,Session.read,commutes]
    | ignored =>
      unfold meant at moved ⊢
      rw [here] at moved ⊢
      dsimp only at moved ⊢
      rw [means] at moved ⊢
      cases moved
      rw [namedUnvalued (by simp [takesValue,means])] at stays
      exact .inr ⟨rfl,stays⟩
    | prompts =>
      unfold meant at moved ⊢
      rw [here] at moved ⊢
      dsimp only at moved ⊢
      rw [means] at moved ⊢
      cases moved
      rw [namedUnvalued (by simp [takesValue,means])] at stays
      exact .inr ⟨rfl,stays⟩

theorem processRenamed {argv : List String} {room i : Nat} {s u : Session} (confFile : String)
    (done : process argv (meant argv) room i s = some (.constructed u))
    (stays : (namedFile (argv.drop i)).isSome = true) :
    process argv (meant argv) room i (renamed confFile s) = some (.constructed u) := by
  have inside : i ≠ argv.length := by
    rintro rfl
    rw [List.drop_length] at stays
    contradiction
  induction room generalizing i s with
  | zero =>
    rw [process,if_neg inside] at done
    contradiction
  | succ room ih =>
    rw [process,if_neg inside] at done ⊢
    cases moved : meant argv i s with
    | next j t =>
      rw [moved] at done
      rcases meantRenamed moved confFile stays with same | ⟨same,later⟩
      · rw [same]
        exact done
      · rw [same]
        refine ih done later ?_
        rintro rfl
        rw [List.drop_length] at later
        contradiction
    | invalidArgument what t =>
      rw [moved] at done
      cases done
    | undefined =>
      rw [moved] at done
      cases done

section
variable {lib : Libraries} {locate : String → String} {env : Environment} {argv : List String}
  {console : Console} {confFile : String}

theorem elsewhereSame : Elsewhere locate confFile env env := ⟨rfl,rfl,fun _ _ => ⟨rfl,rfl⟩⟩

theorem firstUsed (located : Located locate env) (names : namedFile argv.tail = some confFile)
    (valid : Valid argv console) (first : FoundFirst lib locate env argv confFile) :
    UsesNamed lib locate env argv console confFile := by
  intro other _ elsewhere
  obtain ⟨regular,there⟩ := elsewhere.kept firstPlace (.inl first.place.symm)
  rw [first.regular] at regular
  have same : other.contents firstPlace = env.contents confFile :=
    there.trans (located.contents _ _ first.place.symm)
  have base : defaultOptions lib other = (readOptions lib env confFile).map (named firstPlace) := by
    unfold defaultOptions
    rw [searchFirst regular]
    exact readNamed same first.opened
  unfold Wanted construct
  rw [base]
  cases read : readOptions lib env confFile with
  | error failure => rfl
  | ok o =>
    have good := first.sound ⟨o,read⟩
    have inside : 1 ≤ argv.length := by
      cases argv with
      | nil => contradiction
      | cons name rest => exact Nat.succ_le_succ (Nat.zero_le _)
    have all : ∀ s, AllMeant argv 1 s := fun s =>
      (allMeantSound inside s).mpr (by rwa [List.drop_one])
    refine ⟨all _,congrArg Construction.processed ?_⟩
    obtain ⟨t,done⟩ := valid o
    have stays : (namedFile (argv.drop 1)).isSome = true := by rw [List.drop_one,names]; rfl
    rw [fromArguments,processMeant (all _),done]
    exact processRenamed firstPlace done stays

def unopened (locate : String → String) (env : Environment) : Environment where
  isRegularFile := fun p => if locate p = locate firstPlace then .ok true else env.isRegularFile p
  contents := fun p => if locate p = locate firstPlace then none else env.contents p
  home := env.home
  passwdHome := env.passwdHome

theorem unopenedLocated (located : Located locate env) : Located locate (unopened locate env) := by
  constructor
  · intro p q same
    unfold unopened
    dsimp only
    rw [same,located.contents p q same]
  · intro p q same
    unfold unopened
    dsimp only
    rw [same]
    split
    · exact id
    · exact located.regular p q same

theorem unopenedElsewhere (apart : locate confFile ≠ locate firstPlace) :
    Elsewhere locate confFile env (unopened locate env) := by
  refine ⟨rfl,rfl,fun path kept => ?_⟩
  have out : locate path ≠ locate firstPlace := by
    rcases kept with own | others
    · exact own.trans_ne apart
    · exact others firstPlace (by simp [places])
  exact ⟨if_neg out,if_neg out⟩

theorem usedFirst (located : Located locate env)
    (uses : UsesNamed lib locate env argv console confFile) : locate confFile = locate firstPlace := by
  by_contra apart
  have wanted := uses _ (unopenedLocated located) (unopenedElsewhere apart)
  have regular : (unopened locate env).isRegularFile firstPlace = .ok true := if_pos rfl
  have shut : (unopened locate env).contents firstPlace = none := if_pos rfl
  have failed : construct lib (unopened locate env) argv console =
      .failed (.systemError .ioError ("Could not open " ++ firstPlace)) := by
    unfold construct defaultOptions
    rw [searchFirst regular]
    dsimp only [bind,Except.bind]
    unfold readOptions
    rw [shut]
    rfl
  unfold Wanted at wanted
  rw [failed] at wanted
  cases read : readOptions lib env confFile with
  | ok o =>
    rw [read] at wanted
    cases wanted.2
  | error failure =>
    rw [read] at wanted
    have same : failure = .systemError .ioError ("Could not open " ++ firstPlace) :=
      (Construction.failed.inj wanted).symm
    cases readFails read with
    | opening =>
      have path := String.append_right_inj _ |>.mp (Failure.systemError.inj same).2
      rw [path] at apart
      exact apart rfl
    | entry what => cases (Failure.systemError.inj same).1
    | library what => cases same

def emptied (locate : String → String) (confFile : String) (env : Environment) : Environment where
  isRegularFile := fun p =>
    if locate p ≠ locate confFile ∧ ∃ d ∈ places env, locate p = locate d then .ok false
    else env.isRegularFile p
  contents := fun p =>
    if locate p ≠ locate confFile ∧ ∃ d ∈ places env, locate p = locate d then none
    else env.contents p
  home := env.home
  passwdHome := env.passwdHome

theorem emptiedLocated (located : Located locate env) : Located locate (emptied locate confFile env) := by
  constructor
  · intro p q same
    unfold emptied
    dsimp only
    rw [same,located.contents p q same]
  · intro p q same
    unfold emptied
    dsimp only
    rw [same]
    split
    · exact id
    · exact located.regular p q same

theorem emptiedElsewhere : Elsewhere locate confFile env (emptied locate confFile env) := by
  refine ⟨rfl,rfl,fun path kept => ?_⟩
  have out : ¬ (locate path ≠ locate confFile ∧ ∃ d ∈ places env, locate path = locate d) := by
    rintro ⟨apart,d,inside,same⟩
    rcases kept with own | others
    · exact apart own
    · exact others d inside same
  exact ⟨if_neg out,if_neg out⟩

theorem usedRegular (located : Located locate env) (place : locate confFile = locate firstPlace)
    (uses : UsesNamed lib locate env argv console confFile) :
    env.isRegularFile firstPlace = .ok true := by
  by_contra absent
  have wanted := uses _ (emptiedLocated located) emptiedElsewhere
  have none : ∀ d ∈ places (emptied locate confFile env),
      (emptied locate confFile env).isRegularFile d ≠ .ok true := by
    intro d inside regular
    unfold emptied at regular
    dsimp only at regular
    split at regular
    · cases regular
    · rename_i out
      have own : locate d = locate confFile := by
        by_contra apart
        exact out ⟨apart,d,inside,rfl⟩
      exact absent (located.regular d firstPlace (own.trans place) regular)
  have failed : ∃ failure, construct lib (emptied locate confFile env) argv console = .failed failure ∧
      ¬ ReadFailure confFile failure := by
    unfold construct defaultOptions
    rcases searchNone none with ⟨what,search⟩ | ⟨what,search⟩
    · rw [search]
      exact ⟨_,rfl,fun reading => by cases reading⟩
    · rw [search]
      exact ⟨_,rfl,fun reading => by cases reading⟩
  obtain ⟨failure,failed,other⟩ := failed
  unfold Wanted at wanted
  rw [failed] at wanted
  cases read : readOptions lib env confFile with
  | ok o =>
    rw [read] at wanted
    cases wanted.2
  | error reading =>
    rw [read] at wanted
    cases wanted
    exact other (readFails read)

theorem usedOpened (located : Located locate env) (place : locate confFile = locate firstPlace)
    (regular : env.isRegularFile firstPlace = .ok true)
    (uses : UsesNamed lib locate env argv console confFile) (shut : env.contents confFile = none) :
    confFile = firstPlace := by
  have wanted := uses env located elsewhereSame
  have same : env.contents firstPlace = none := (located.contents _ _ place.symm).trans shut
  unfold Wanted construct defaultOptions at wanted
  rw [searchFirst regular] at wanted
  dsimp only [bind,Except.bind] at wanted
  unfold readOptions at wanted
  rw [shut,same] at wanted
  have texts := (Failure.systemError.inj (Construction.failed.inj wanted)).2
  exact (String.append_right_inj _ |>.mp texts).symm

theorem usedSound (located : Located locate env) (names : namedFile argv.tail = some confFile)
    (uses : UsesNamed lib locate env argv console confFile)
    (reads : ∃ o, readOptions lib env confFile = .ok o) : sound argv.tail = true := by
  obtain ⟨o,read⟩ := reads
  have wanted := uses env located elsewhereSame
  unfold Wanted at wanted
  rw [read] at wanted
  have inside : 1 ≤ argv.length := by
    cases argv with
    | nil => contradiction
    | cons name rest => exact Nat.succ_le_succ (Nat.zero_le _)
  rw [← List.drop_one]
  exact (allMeantSound inside _).mp wanted.1

/- Which file is opened is settled before any argument is looked at, so the named one is used
only where it is the one that every search finds first. -/
theorem namedFileUsed (located : Located locate env) (names : namedFile argv.tail = some confFile)
    (valid : Valid argv console) : UsesNamed lib locate env argv console confFile ↔
      FoundFirst lib locate env argv confFile := by
  constructor
  · intro uses
    have place := usedFirst located uses
    have regular := usedRegular located place uses
    exact ⟨place,regular,usedOpened located place regular uses,usedSound located names uses⟩
  · exact firstUsed located names valid

end

def secureText : Text := "SECURE_ONLY=true\n".toList

def libraries : Libraries where
  readIni := fun text =>
    if text = secureText then .ok [("SECURE_ONLY","true")]
    else if text = [] then .ok []
    else .error "'=' character not found in line"
  getBool := fun value =>
    if value = "true" then .ok true
    else if value = "false" then .ok false
    else .error "conversion of data to type \"b\" failed"
  connectionConfig := ⟨.mySql,"","","","",false⟩

def bare : Environment where
  isRegularFile := fun path => .ok (path = "mine.conf")
  contents := fun path => if path = "mine.conf" then some secureText else none
  home := none
  passwdHome := none

def installed (inEtc : Text) : Environment where
  isRegularFile := fun path => .ok (path = "mine.conf" ∨ path = "/etc/brewpipp.conf")
  contents := fun path =>
    if path = "mine.conf" then some secureText
    else if path = "/etc/brewpipp.conf" then some inEtc else none
  home := none
  passwdHome := none

theorem locatedExactly (env : Environment) : Located id env :=
  ⟨fun _ _ same => congrArg env.contents same,
    fun _ _ same regular => (congrArg env.isRegularFile same).symm.trans regular⟩

def asked : List String := ["brewpippd","-conf","mine.conf"]

theorem askedValid : Valid asked terminal := fun _ => ⟨_,rfl⟩

def askedEtc : List String := ["brewpippd","-conf","/etc/brewpipp.conf","-anonymous"]

theorem namedFileUsedEtc :
    (UsesNamed libraries id (installed secureText) askedEtc terminal "/etc/brewpipp.conf" ↔
      FoundFirst libraries id (installed secureText) askedEtc "/etc/brewpipp.conf") ∧
    UsesNamed libraries id (installed secureText) askedEtc terminal "/etc/brewpipp.conf" := by
  have exactly := @namedFileUsed libraries id (installed secureText) askedEtc terminal
    "/etc/brewpipp.conf" (locatedExactly _) rfl (fun _ => ⟨_,rfl⟩)
  exact ⟨exactly,exactly.mpr ⟨rfl,rfl,fun _ => rfl,fun _ => by decide⟩⟩

theorem namedFileUnread :
    construct libraries bare asked terminal =
      .failed (.systemError .noSuchFileOrDirectory "Could not find brewpipp.conf") ∧
    (∃ t, construct libraries (installed []) asked terminal = .processed (some (.constructed t)) ∧
      t.options.confFile = "mine.conf" ∧ t.options.secureOnly = false) ∧
    (∃ o, readOptions libraries bare "mine.conf" = .ok o ∧ o.secureOnly = true) ∧
    ¬ ∀ lib locate env argv console confFile, Located locate env →
      namedFile argv.tail = some confFile → Valid argv console →
      UsesNamed lib locate env argv console confFile := by
  refine ⟨rfl,⟨_,rfl,rfl,rfl⟩,⟨_,rfl,rfl⟩,?_⟩
  intro all
  have place := usedFirst (locatedExactly bare)
    (all libraries id bare asked terminal "mine.conf" (locatedExactly bare) rfl askedValid)
  exact absurd place (by decide)

end Chambermaid.ConfigFile
