import Chambermaid.ConfigFile
import Chambermaid.Fields
import Mathlib.Tactic.SplitIfs

/-! What a configuration file says. Each key has a setting of its own, so the entries can stand
in any order; the first one that is refused decides the error. -/
namespace Chambermaid.ConfigSettings
open CommandLine ConfigFile Fields

def keySetting (key : String) : Option Setting :=
  if key = "SECURE_ONLY" then some .secureOnly
  else if key = "REQUIRE_LOGIN" then some .requireLogin
  else if key = "DB.TYPE" then some .type
  else if key = "DB.DATABASE" then some .database
  else if key = "DB.USERNAME" then some .username
  else if key = "DB.PASSWORD" then some .password
  else if key = "DB.DSN" then some .dataSourceName
  else none

def change (lib : Libraries) (entry : String × String) : Except Failure (Options → Options) :=
  let (key,value) := entry
  if key = "SECURE_ONLY" then
    ((lib.getBool value).mapError .unexpected).map fun b o => {o with secureOnly := b}
  else if key = "REQUIRE_LOGIN" then
    ((lib.getBool value).mapError .unexpected).map fun b o => {o with requireLogin := b}
  else if key = "DB.TYPE" then
    match getTypes.lookup value with
    | none => .error (.systemError .invalidArgument ("Unknown Database Type: " ++ value))
    | some type => .ok fun o => {o with sqlConfig.type := type}
  else if key = "DB.DATABASE" then .ok fun o => {o with sqlConfig.database := value}
  else if key = "DB.USERNAME" then .ok fun o => {o with sqlConfig.username := value}
  else if key = "DB.PASSWORD" then .ok fun o => {o with sqlConfig.password := value}
  else if key = "DB.DSN" then .ok fun o => {o with sqlConfig.dataSourceName := value}
  else .error (.systemError .invalidArgument ("Unknown parameter: " ++ key))

theorem entryChanges (lib : Libraries) (o : Options) (entry : String × String) :
    setEntry lib o entry = (change lib entry).map fun f => f o := by
  obtain ⟨key,value⟩ := entry
  unfold setEntry change
  dsimp only
  split_ifs
  · cases lib.getBool value <;> rfl
  · cases lib.getBool value <;> rfl
  · cases getTypes.lookup value <;> rfl
  all_goals rfl

theorem entryAccepted (lib : Libraries) (o : Options) (entry : String × String) :
    (∃ t, setEntry lib o entry = .ok t) ↔ ∃ f, change lib entry = .ok f := by
  rw [entryChanges]
  cases change lib entry with
  | error x => exact ⟨fun ⟨_,same⟩ => (by cases same),fun ⟨_,same⟩ => (by cases same)⟩
  | ok f => exact ⟨fun _ => ⟨f,rfl⟩,fun _ => ⟨f o,rfl⟩⟩

theorem entryRefused (lib : Libraries) (o : Options) (entry : String × String) (x : Failure) :
    setEntry lib o entry = .error x ↔ change lib entry = .error x := by
  rw [entryChanges]
  cases change lib entry with
  | error y => exact ⟨fun same => (by cases same; rfl),fun same => (by cases same; rfl)⟩
  | ok f => exact ⟨fun same => (by cases same),fun same => (by cases same)⟩

theorem fileChanges (lib : Libraries) (o : Options) (props : List (String × String)) :
    props.foldlM (setEntry lib) o = changeAll (change lib) o props := by
  unfold changeAll
  congr
  funext o entry
  exact entryChanges lib o entry

def field (entry : String × String) : Setting := (keySetting entry.1).getD .confFile

theorem changeWrites {lib : Libraries} {entry : String × String} {f : Options → Options}
    (made : change lib entry = .ok f) :
    keySetting entry.1 = some (field entry) ∧ Writes content f (field entry) := by
  obtain ⟨key,value⟩ := entry
  unfold change at made
  unfold field keySetting
  dsimp only at made ⊢
  split_ifs at made ⊢
  · cases read : lib.getBool value <;> rw [read] at made <;> cases made
    exact ⟨rfl,fun _ _ => rfl,fun _ other different => by cases other <;> first | rfl | contradiction⟩
  · cases read : lib.getBool value <;> rw [read] at made <;> cases made
    exact ⟨rfl,fun _ _ => rfl,fun _ other different => by cases other <;> first | rfl | contradiction⟩
  · cases found : getTypes.lookup value <;> rw [found] at made <;> cases made
    exact ⟨rfl,fun _ _ => rfl,fun _ other different => by cases other <;> first | rfl | contradiction⟩
  all_goals
    cases made
    exact ⟨rfl,fun _ _ => rfl,fun _ other different => by cases other <;> first | rfl | contradiction⟩

def settingKey : Setting → String
  | .secureOnly => "SECURE_ONLY"
  | .requireLogin => "REQUIRE_LOGIN"
  | .type => "DB.TYPE"
  | .database => "DB.DATABASE"
  | .username => "DB.USERNAME"
  | .password => "DB.PASSWORD"
  | .dataSourceName => "DB.DSN"
  | _ => ""

theorem keyNamed {key : String} {x : Setting} (found : keySetting key = some x) :
    key = settingKey x := by
  unfold keySetting at found
  split_ifs at found <;> cases found <;> assumption

theorem contentExtensional : Extensional content := by
  intro s t same
  obtain ⟨_,_,_,⟨_,_,_,_,_,_⟩⟩ := s
  obtain ⟨_,_,_,⟨_,_,_,_,_,_⟩⟩ := t
  cases Content.text.inj (same .confFile)
  cases Content.truth.inj (same .secureOnly)
  cases Content.truth.inj (same .requireLogin)
  cases Content.odbc.inj (same .type)
  cases Content.text.inj (same .dataSourceName)
  cases Content.text.inj (same .username)
  cases Content.text.inj (same .password)
  cases Content.text.inj (same .database)
  cases Content.truth.inj (same .debug)
  rfl

theorem fieldsDistinct {lib : Libraries} {props : List (String × String)}
    (keys : (props.map Prod.fst).Nodup) (fine : ∀ e ∈ props, ∃ f, change lib e = .ok f) :
    (props.map field).Nodup := by
  refine List.Nodup.map_on ?_ keys.of_map
  intro a left b right same
  obtain ⟨f,made⟩ := fine a left
  obtain ⟨g,other⟩ := fine b right
  have first := keyNamed (changeWrites made).1
  have second := keyNamed (changeWrites other).1
  rw [← same,← first] at second
  exact List.inj_on_of_nodup_map keys left right second.symm

def defaults (lib : Libraries) (confFile : String) : Options :=
  ⟨confFile,false,true,lib.connectionConfig⟩

theorem readChanges {lib : Libraries} {env : Environment} {confFile : String} {text : Digits.Text}
    {props : List (String × String)} (there : env.contents confFile = some text)
    (parsed : lib.readIni text = .ok props) :
    readOptions lib env confFile = changeAll (change lib) (defaults lib confFile) props := by
  unfold readOptions
  rw [there]
  dsimp only
  rw [parsed]
  exact fileChanges lib _ props

/-! Reading a file with its keys each once, as the INI reader gives them: the options come out
exactly if no entry is refused, and else the error is that of the first one that is. Of options
each entry holds, a setting without an entry has its default, and any other order of the entries
gives the same. -/
theorem fileSettings {lib : Libraries} {env : Environment} {confFile : String} {text : Digits.Text}
    {props : List (String × String)} (there : env.contents confFile = some text)
    (parsed : lib.readIni text = .ok props) (keys : (props.map Prod.fst).Nodup) :
    ((∃ t, readOptions lib env confFile = .ok t) ↔
      ∀ e ∈ props, ∃ t, setEntry lib (defaults lib confFile) e = .ok t) ∧
    (∀ failure, readOptions lib env confFile = .error failure ↔
      ∃ before e after, props = before ++ e::after ∧
        (∀ b ∈ before, ∃ t, setEntry lib (defaults lib confFile) b = .ok t) ∧
        setEntry lib (defaults lib confFile) e = .error failure) ∧
    ∀ t, readOptions lib env confFile = .ok t →
      (∀ e ∈ props, setEntry lib t e = .ok t) ∧
      (∀ x, (∀ e ∈ props, keySetting e.1 ≠ some x) →
        content t x = content (defaults lib confFile) x) ∧
      ∀ others, props.Perm others → others.foldlM (setEntry lib) (defaults lib confFile) = .ok t := by
  have writes : ∀ e f, change lib e = .ok f → Writes content f (field e) :=
    fun _ _ made => (changeWrites made).2
  rw [readChanges there parsed]
  simp only [entryAccepted,entryRefused]
  refine ⟨changeAccepted,fun failure => changeRefused,fun t changed => ?_⟩
  have fine := changeAccepted.mp ⟨t,changed⟩
  have distinct := fieldsDistinct keys fine
  obtain ⟨hold,frame⟩ := changesHold writes distinct changed
  refine ⟨?_,?_,?_⟩
  · intro e member
    obtain ⟨f,made,here⟩ := hold e member
    rw [entryChanges,made]
    exact congrArg Except.ok (changeStays contentExtensional writes made here)
  · intro x absent
    refine frame x fun written => ?_
    obtain ⟨e,member,same⟩ := List.mem_map.mp written
    obtain ⟨f,made⟩ := fine e member
    rw [← same] at absent
    exact absent e member (changeWrites made).1
  · intro others perm
    rw [fileChanges]
    exact changePerm contentExtensional writes distinct perm changed

def entries (props : List (String × String)) : Libraries :=
  ⟨fun _ => .ok props,fun value => .ok (decide (value = "1")),⟨.mySql,"","","","",false⟩⟩

def anyFile : Environment := ⟨fun _ => .ok true,fun _ => some [],none,none⟩

def twoEntries : List (String × String) := [("DB.DSN","brew"),("SECURE_ONLY","1")]

def unknownEntry : List (String × String) := [("DB.DSN","brew"),("DB.HOST","a"),("DB.TYPE","b")]

theorem fileSettingsTwo : (∃ t, readOptions (entries twoEntries) anyFile "f" = .ok t ∧
    t.secureOnly = true ∧ content t .password = .text "" ∧
    [("SECURE_ONLY","1"),("DB.DSN","brew")].foldlM (setEntry (entries twoEntries))
      (defaults (entries twoEntries) "f") = .ok t) ∧
    readOptions (entries unknownEntry) anyFile "f" =
      .error (.systemError .invalidArgument "Unknown parameter: DB.HOST") := by
  obtain ⟨_,_,holds⟩ := @fileSettings (entries twoEntries) anyFile "f" [] twoEntries rfl rfl (by decide)
  obtain ⟨_,others,order⟩ := holds ⟨"f",true,true,⟨.mySql,"brew","","","",false⟩⟩ (by decide)
  obtain ⟨_,refused,_⟩ := @fileSettings (entries unknownEntry) anyFile "f" [] unknownEntry rfl rfl (by decide)
  refine ⟨⟨_,by decide,rfl,others .password (by decide),order _ (.swap _ _ _)⟩,(refused _).mpr ?_⟩
  exact ⟨[("DB.DSN","brew")],_,_,rfl,List.forall_mem_singleton.mpr ⟨_,rfl⟩,rfl⟩

end Chambermaid.ConfigSettings
