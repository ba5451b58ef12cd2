import Chambermaid.CStdlib

/-! Options from the command line, over what `Options()` made of the configuration
file. The loop runs an index over argv; the condition for `-P` lacks its `==0`, so
every flag not tested before it asks for a password, and `-P` does not. -/
namespace Chambermaid.CommandLine
open Digits CStdlib

inductive OdbcType where
  | mySql | postgreSql | sqlite3 | tsql
  deriving DecidableEq, Repr

structure ConnectionConfig where
  type : OdbcType
  dataSourceName : String
  username : String
  password : String
  database : String
  debug : Bool
  deriving DecidableEq, Repr

structure Options where
  confFile : String
  secureOnly : Bool
  requireLogin : Bool
  sqlConfig : ConnectionConfig
  deriving DecidableEq, Repr

def getTypes : List (String × OdbcType) :=
  [("MySQL",.mySql),("PostgreSQL",.postgreSql),("SQLite3",.sqlite3),("TSQL",.tsql)]

/-! The terminal; `good` is false from the first failed or exhausted read on. -/
structure Console where
  input : Text
  good : Bool
  output : List String
  echo : Bool
  deriving DecidableEq, Repr

-- std::cin.getline(buffer,256): a line of at most 255 characters.
def getline (c : Console) : Text × Console :=
  let line := c.input.takeWhile (· ≠ '\n')
  let rest := c.input.dropWhile (· ≠ '\n')
  if c.good = false then ([],c)
  else if 255 < line.length then (line.take 255,{c with input := c.input.drop 255, good := false})
  else if rest = [] then (line,{c with input := [], good := false})
  else (line,{c with input := rest.tail})

/-! One constructor call. The indexes read are kept for what is said about them. -/
structure Session where
  options : Options
  console : Console
  reads : List Nat
  deriving DecidableEq, Repr

def Session.read (s : Session) (i : Nat) : Session := {s with reads := s.reads ++ [i]}

def Session.setSql (s : Session) (config : ConnectionConfig) : Session :=
  {s with options := {s.options with sqlConfig := config}}

-- `undefined` is a read outside argv[0..argc-1], or of the null pointer behind it.
inductive Result where
  | next (i : Nat) (s : Session)
  | invalidArgument (what : String) (s : Session)
  | undefined
  deriving DecidableEq, Repr

def throwArgRequired (flag : String) (s : Session) : Result :=
  .invalidArgument ("Argument required" ++ flag) s

-- if(++argItr != argEnd) ... else throw_arg_required(flag)
def withValue (argv : List String) (i : Nat) (s : Session) (flag : String)
    (use : String → Session → Result) : Result :=
  if i + 1 ≠ argv.length then
    match argv[i+1]? with
    | some v => use v (s.read (i+1))
    | none => .undefined
  else throwArgRequired flag s

def setType (i : Nat) (v : String) (s : Session) : Result :=
  match getTypes.lookup v with
  | none => .invalidArgument ("Unknown Database Type: " ++ v) s
  | some type => .next i (s.setSql {s.options.sqlConfig with type := type})

def askPassword (s : Session) : Session :=
  let console := {s.console with
    output := s.console.output ++ ["Please enter DB password: "]
    echo := false}
  let (line,console) := getline console
  let config := {s.options.sqlConfig with password := String.ofList (cStr line)}
  {(s.setSql config) with console := {console with echo := true}}

def advance (argv : List String) (i : Nat) (s : Session) : Result :=
  match argv[i]? with
  | none => .undefined
  | some flag =>
    let s := s.read i
    if flag = "" then .next (i+1) s
    else if flag = "-conf" then
      withValue argv i s "-conf" fun v s => .next (i+2) {s with options.confFile := v}
    else if flag = "-secure" then .next (i+1) {s with options.secureOnly := true}
    else if flag = "-insecure" then .next (i+1) {s with options.secureOnly := false}
    else if flag = "-anonymous" then .next (i+1) {s with options.requireLogin := false}
    else if flag = "-login" then .next (i+1) {s with options.requireLogin := true}
    else if flag = "-type" then withValue argv i s "-type" (setType (i+2))
    else if flag = "-u" then
      withValue argv i s "-u" fun v s => .next (i+2) {s with options.sqlConfig.username := v}
    else if flag ≠ "-P" then .next (i+1) (askPassword s)
    else if flag = "-dsn" then
      withValue argv i s "-dsn" fun v s => .next (i+2) {s with options.sqlConfig.dataSourceName := v}
    else if flag = "-db" then
      withValue argv i s "-db" fun v s => .next (i+2) {s with options.sqlConfig.database := v}
    else if flag = "--debug" then .next (i+1) {s with options.sqlConfig.debug := true}
    else .invalidArgument ("Invalid Argument: " ++ flag) s

inductive Outcome where
  | constructed (s : Session)
  | invalidArgument (what : String) (s : Session)
  | undefined
  deriving DecidableEq, Repr

-- The loop from argItr = argv+i to argEnd, with room for so many iterations.
def process (argv : List String) (body : Nat → Session → Result) :
    (room : Nat) → Nat → Session → Option Outcome
  | 0,i,s => if i = argv.length then some (.constructed s) else none
  | room+1,i,s =>
    if i = argv.length then some (.constructed s) else
      match body i s with
      | .next j t => process argv body room j t
      | .invalidArgument what t => some (.invalidArgument what t)
      | .undefined => some .undefined

def fromArguments (argv : List String) (base : Options) (console : Console) : Option Outcome :=
  process argv (advance argv) argv.length 1 ⟨base,console,[]⟩

inductive Meaning where
  | ignored
  | plain (set : Options → Options)
  | valued (set : String → Options → Except String Options)
  | prompts
  | unknown

def meaning (flag : String) : Meaning :=
  match flag with
  | "" => .ignored
  | "-conf" => .valued fun v o => .ok {o with confFile := v}
  | "-secure" => .plain fun o => {o with secureOnly := true}
  | "-insecure" => .plain fun o => {o with secureOnly := false}
  | "-anonymous" => .plain fun o => {o with requireLogin := false}
  | "-login" => .plain fun o => {o with requireLogin := true}
  | "-type" => .valued fun v o => match getTypes.lookup v with
    | some type => .ok {o with sqlConfig.type := type}
    | none => .error ("Unknown Database Type: " ++ v)
  | "-u" => .valued fun v o => .ok {o with sqlConfig.username := v}
  | "-P" => .prompts
  | "-dsn" => .valued fun v o => .ok {o with sqlConfig.dataSourceName := v}
  | "-db" => .valued fun v o => .ok {o with sqlConfig.database := v}
  | "--debug" => .plain fun o => {o with sqlConfig.debug := true}
  | _ => .unknown

def meant (argv : List String) (i : Nat) (s : Session) : Result :=
  match argv[i]? with
  | none => .undefined
  | some flag =>
    let s := s.read i
    match meaning flag with
    | .ignored => .next (i+1) s
    | .plain set => .next (i+1) {s with options := set s.options}
    | .valued set => withValue argv i s flag fun v s => match set v s.options with
      | .ok options => .next (i+2) {s with options := options}
      | .error what => .invalidArgument what s
    | .prompts => .next (i+1) (askPassword s)
    | .unknown => .invalidArgument ("Invalid Argument: " ++ flag) s

def Within (argv : List String) (i : Nat) (before after : List Nat) : Prop :=
  ∃ more, after = before ++ more ∧ ∀ k ∈ more, i ≤ k ∧ k < argv.length

def Bounded (argv : List String) (i : Nat) (s : Session) : Result → Prop
  | .next j t => i < j ∧ j ≤ argv.length ∧ Within argv i s.reads t.reads
  | .invalidArgument _ t => Within argv i s.reads t.reads
  | .undefined => False

theorem withinHere {argv : List String} {i : Nat} (inside : i < argv.length) (s : Session) :
    Within argv i s.reads (s.read i).reads :=
  ⟨[i],rfl,fun k member => by
    rw [List.mem_singleton.mp member]
    exact ⟨Nat.le_refl i,inside⟩⟩

theorem withValueBounded {argv : List String} {i : Nat} (inside : i < argv.length) (s : Session)
    (flag : String) {use : String → Session → Result}
    (uses : ∀ v t, (∃ u, use v t = .next (i+2) u ∧ u.reads = t.reads) ∨
      ∃ what, use v t = .invalidArgument what t) :
    Bounded argv i s (withValue argv i (s.read i) flag use) := by
  unfold withValue
  by_cases more : i + 1 ≠ argv.length
  · have after : i + 1 < argv.length := by omega
    rw [if_pos more,List.getElem?_eq_getElem after]
    have both : Within argv i s.reads ((s.read i).read (i+1)).reads := by
      refine ⟨[i,i+1],by simp [Session.read],?_⟩
      intro k member
      simp only [List.mem_cons,List.not_mem_nil,or_false] at member
      omega
    rcases uses argv[i+1] ((s.read i).read (i+1)) with ⟨u,result,same⟩ | ⟨what,result⟩
    · simp only [result,Bounded]
      exact ⟨by omega,by omega,same ▸ both⟩
    · simp only [result,Bounded]
      exact both
  · rw [if_neg more]
    exact withinHere inside s

theorem setTypeUses (i : Nat) (v : String) (t : Session) :
    (∃ u, setType i v t = .next i u ∧ u.reads = t.reads) ∨
      ∃ what, setType i v t = .invalidArgument what t := by
  unfold setType
  split
  · exact Or.inr ⟨_,rfl⟩
  · exact Or.inl ⟨_,rfl,rfl⟩

theorem advanceBounded {argv : List String} {i : Nat} (inside : i < argv.length) (s : Session) :
    Bounded argv i s (advance argv i s) := by
  have on : ∀ t : Session, t.reads = (s.read i).reads → Bounded argv i s (.next (i+1) t) := by
    intro t same
    exact ⟨by omega,by omega,same ▸ withinHere inside s⟩
  unfold advance
  rw [List.getElem?_eq_getElem inside]
  refine iteInduction (fun _ => on _ rfl) fun _ => ?_
  refine iteInduction (fun _ => withValueBounded inside s _ fun v t => Or.inl ⟨_,rfl,rfl⟩) fun _ => ?_
  refine iteInduction (fun _ => on _ rfl) fun _ => ?_
  refine iteInduction (fun _ => on _ rfl) fun _ => ?_
  refine iteInduction (fun _ => on _ rfl) fun _ => ?_
  refine iteInduction (fun _ => on _ rfl) fun _ => ?_
  refine iteInduction (fun _ => withValueBounded inside s _ (setTypeUses (i+2))) fun _ => ?_
  refine iteInduction (fun _ => withValueBounded inside s _ fun v t => Or.inl ⟨_,rfl,rfl⟩) fun _ => ?_
  refine iteInduction (fun _ => on _ rfl) fun _ => ?_
  refine iteInduction (fun _ => withValueBounded inside s _ fun v t => Or.inl ⟨_,rfl,rfl⟩) fun _ => ?_
  refine iteInduction (fun _ => withValueBounded inside s _ fun v t => Or.inl ⟨_,rfl,rfl⟩) fun _ => ?_
  exact iteInduction (fun _ => on _ rfl) fun _ => withinHere inside s

theorem withinTrans {argv : List String} {i j : Nat} {a b c : List Nat} (first : Within argv i a b)
    (later : i ≤ j) (second : Within argv j b c) : Within argv i a c := by
  obtain ⟨more,rfl,low⟩ := first
  obtain ⟨rest,rfl,high⟩ := second
  refine ⟨more ++ rest,List.append_assoc _ _ _,?_⟩
  intro k member
  rcases List.mem_append.mp member with early | late
  · exact low k early
  · have bound := high k late
    exact ⟨by omega,bound.2⟩

def Settles (argv : List String) (i : Nat) (before : List Nat) : Outcome → Prop
  | .constructed t => Within argv i before t.reads
  | .invalidArgument _ t => Within argv i before t.reads
  | .undefined => False

theorem processSettles {argv : List String} {room i : Nat} (inside : i ≤ argv.length)
    (enough : argv.length ≤ i + room) (s : Session) : ∃ outcome,
      process argv (advance argv) room i s = some outcome ∧ Settles argv i s.reads outcome := by
  induction room generalizing i s with
  | zero =>
    have last : i = argv.length := by omega
    exact ⟨_,if_pos last,[],by simp,by simp⟩
  | succ room ih =>
    unfold process
    by_cases last : i = argv.length
    · exact ⟨_,if_pos last,[],by simp,by simp⟩
    · rw [if_neg last]
      have bounded := advanceBounded (by omega : i < argv.length) s
      cases result : advance argv i s with
      | undefined =>
        rw [result] at bounded
        exact bounded.elim
      | invalidArgument what t =>
        rw [result] at bounded
        exact ⟨_,rfl,bounded⟩
      | next j t =>
        rw [result] at bounded
        obtain ⟨forward,still,reads⟩ := bounded
        obtain ⟨outcome,done,settled⟩ := ih still (by omega) t
        refine ⟨outcome,done,?_⟩
        cases outcome with
        | undefined => exact settled
        | constructed u => exact withinTrans reads (by omega) settled
        | invalidArgument what u => exact withinTrans reads (by omega) settled

def plainFlags : List String := ["","-secure","-insecure","-anonymous","-login"]
def valuedFlags : List String := ["-conf","-type","-u"]

theorem setTypeMeant (i : Nat) : setType i = fun v s =>
    match (match getTypes.lookup v with
      | some type => Except.ok {s.options with sqlConfig.type := type}
      | none => Except.error ("Unknown Database Type: " ++ v)) with
    | .ok options => .next i {s with options := options}
    | .error what => .invalidArgument what s := by
  funext v s
  unfold setType
  cases getTypes.lookup v <;> rfl

theorem handledMeant {argv : List String} {i : Nat} {flag : String} (here : argv[i]? = some flag)
    (handled : flag ∈ plainFlags ∨ flag ∈ valuedFlags) (s : Session) :
    advance argv i s = meant argv i s := by
  unfold advance meant
  rw [here]
  simp only [plainFlags,valuedFlags,List.mem_cons,List.not_mem_nil,or_false] at handled
  rcases handled with (rfl | rfl | rfl | rfl | rfl) | rfl | rfl | rfl
  · rfl
  · rfl
  · rfl
  · rfl
  · rfl
  · rfl
  · simp only [meaning,← setTypeMeant]
    rfl
  · rfl

theorem getlineOutput (c : Console) : (getline c).2.output = c.output := by
  unfold getline
  dsimp only
  split
  · rfl
  · split
    · rfl
    · split <;> rfl

theorem askedOutput (s : Session) : (askPassword s).console.output =
    s.console.output ++ ["Please enter DB password: "] := by
  unfold askPassword
  exact getlineOutput _

theorem promptsOnly {flag : String} (prompts : meaning flag = .prompts) : flag = "-P" := by
  unfold meaning at prompts
  split at prompts <;> first | rfl | contradiction

theorem withValueNext {argv : List String} {i j : Nat} {s t : Session} {flag : String}
    {use : String → Session → Result} (moved : withValue argv i s flag use = .next j t) :
    ∃ v, argv[i+1]? = some v ∧ use v (s.read (i+1)) = .next j t := by
  unfold withValue at moved
  split at moved
  · split at moved
    · rename_i v here
      exact ⟨v,here,moved⟩
    · contradiction
  · contradiction

theorem meantQuiet {argv : List String} {i j : Nat} {s t : Session} {flag : String}
    (here : argv[i]? = some flag) (other : flag ≠ "-P") (moved : meant argv i s = .next j t) :
    t.console = s.console := by
  unfold meant at moved
  rw [here] at moved
  cases means : meaning flag with
  | ignored =>
    simp only [means,Result.next.injEq] at moved
    rw [← moved.2]
    rfl
  | plain set =>
    simp only [means,Result.next.injEq] at moved
    rw [← moved.2]
    rfl
  | valued set =>
    simp only [means] at moved
    obtain ⟨v,_,used⟩ := withValueNext moved
    split at used
    · cases used
      rfl
    · contradiction
  | prompts => exact absurd (promptsOnly means) other
  | unknown =>
    simp only [means] at moved
    contradiction

theorem otherAsks {argv : List String} {i : Nat} {flag : String} (here : argv[i]? = some flag)
    (plain : flag ∉ plainFlags) (valued : flag ∉ valuedFlags) (prompt : flag ≠ "-P") (s : Session) :
    advance argv i s = .next (i+1) (askPassword (s.read i)) := by
  simp only [plainFlags,valuedFlags,List.mem_cons,List.not_mem_nil,or_false,not_or] at plain valued
  obtain ⟨empty,secure,insecure,anonymous,login⟩ := plain
  obtain ⟨conf,type,username⟩ := valued
  unfold advance
  rw [here]
  dsimp only
  rw [if_neg empty,if_neg conf,if_neg secure,if_neg insecure,if_neg anonymous,if_neg login,
    if_neg type,if_neg username,if_pos prompt]

theorem otherNotMeant {argv : List String} {i : Nat} {flag : String} (here : argv[i]? = some flag)
    (plain : flag ∉ plainFlags) (valued : flag ∉ valuedFlags) (s : Session) :
    advance argv i s ≠ meant argv i s := by
  by_cases prompt : flag = "-P"
  · subst prompt
    have thrown : advance argv i s = .invalidArgument ("Invalid Argument: " ++ "-P") (s.read i) := by
      unfold advance
      rw [here]
      rfl
    have asked : meant argv i s = .next (i+1) (askPassword (s.read i)) := by
      unfold meant
      rw [here]
      rfl
    rw [thrown,asked]
    simp
  · have asked := otherAsks here plain valued prompt s
    intro same
    have quiet := meantQuiet here prompt (same.symm.trans asked)
    have longer := askedOutput (s.read i)
    rw [quiet] at longer
    simp [Session.read] at longer

inductive Setting where
  | confFile | secureOnly | requireLogin | type | dataSourceName | username | password | database
  | debug
  deriving DecidableEq, Repr

inductive Content where
  | text (s : String) | truth (b : Bool) | odbc (type : OdbcType)
  deriving DecidableEq, Repr

def content (o : Options) : Setting → Content
  | .confFile => .text o.confFile
  | .secureOnly => .truth o.secureOnly
  | .requireLogin => .truth o.requireLogin
  | .type => .odbc o.sqlConfig.type
  | .dataSourceName => .text o.sqlConfig.dataSourceName
  | .username => .text o.sqlConfig.username
  | .password => .text o.sqlConfig.password
  | .database => .text o.sqlConfig.database
  | .debug => .truth o.sqlConfig.debug

def ownSetting (flag : String) : Option Setting :=
  match flag with
  | "-conf" => some .confFile
  | "-secure" => some .secureOnly
  | "-insecure" => some .secureOnly
  | "-anonymous" => some .requireLogin
  | "-login" => some .requireLogin
  | "-type" => some .type
  | "-u" => some .username
  | "-P" => some .password
  | "-dsn" => some .dataSourceName
  | "-db" => some .database
  | "--debug" => some .debug
  | _ => none

theorem plainOwn {flag : String} {set : Options → Options} (means : meaning flag = .plain set)
    {x : Setting} (other : ownSetting flag ≠ some x) (o : Options) :
    content (set o) x = content o x := by
  unfold meaning at means
  split at means <;> first | contradiction | skip
  all_goals
    cases means
    cases x <;> first | rfl | exact absurd rfl other

theorem valuedOwn {flag v : String} {set : String → Options → Except String Options}
    (means : meaning flag = .valued set) {x : Setting} (other : ownSetting flag ≠ some x)
    {o p : Options} (used : set v o = .ok p) : content p x = content o x := by
  unfold meaning at means
  split at means <;> first | contradiction | skip
  all_goals
    cases means
    dsimp only at used
    first
    | cases used
    | split at used <;> cases used
    cases x <;> first | rfl | exact absurd rfl other

theorem askedOwn (s : Session) {x : Setting} (other : x ≠ .password) :
    content (askPassword s).options x = content s.options x := by
  cases x <;> first | rfl | exact absurd rfl other

theorem meantOwn {argv : List String} {i j : Nat} {s t : Session} {flag : String}
    (here : argv[i]? = some flag) {x : Setting} (other : ownSetting flag ≠ some x)
    (moved : meant argv i s = .next j t) : content t.options x = content s.options x := by
  unfold meant at moved
  rw [here] at moved
  cases means : meaning flag with
  | ignored =>
    simp only [means,Result.next.injEq] at moved
    rw [← moved.2]
    rfl
  | plain set =>
    simp only [means,Result.next.injEq] at moved
    rw [← moved.2]
    exact plainOwn means other s.options
  | valued set =>
    simp only [means] at moved
    obtain ⟨v,_,used⟩ := withValueNext moved
    split at used
    · rename_i options accepted
      cases used
      exact valuedOwn means other accepted
    · contradiction
  | prompts =>
    have prompt := promptsOnly means
    subst prompt
    simp only [means,Result.next.injEq] at moved
    rw [← moved.2]
    exact askedOwn (s.read i) fun same => other (congrArg some same.symm)
  | unknown =>
    simp only [means] at moved
    contradiction

inductive Reached (argv : List String) (body : Nat → Session → Result) :
    Nat → Session → Nat → Session → Prop where
  | here (i : Nat) (s : Session) : Reached argv body i s i s
  | next {i j k : Nat} {s t u : Session} (more : i ≠ argv.length) (moved : body i s = .next k u)
      (rest : Reached argv body k u j t) : Reached argv body i s j t

def OwnOnly (argv : List String) (j : Nat) (t : Session) : Prop := ∀ flag k u,
  argv[j]? = some flag → advance argv j t = .next k u →
    (∀ x, ownSetting flag ≠ some x → content u.options x = content t.options x) ∧
    (flag ≠ "-P" → u.console = t.console)

theorem lastWins {argv : List String} {i j : Nat} {s t : Session} {x : Setting}
    (reached : Reached argv (advance argv) i s j t)
    (own : ∀ k u, Reached argv (advance argv) i s k u → OwnOnly argv k u)
    (others : ∀ k u flag, Reached argv (advance argv) i s k u → argv[k]? = some flag →
      ownSetting flag ≠ some x) : content t.options x = content s.options x := by
  induction reached with
  | here i s => rfl
  | @next i j k s t u more moved rest ih =>
    have later := ih (fun l w reached => own l w (.next more moved reached))
      (fun l w flag reached => others l w flag (.next more moved reached))
    have here : ∃ flag, argv[i]? = some flag := by
      unfold advance at moved
      split at moved
      · contradiction
      · rename_i flag here
        exact ⟨flag,here⟩
    obtain ⟨flag,here⟩ := here
    exact later.trans ((own i s (.here i s) flag k u here moved).1 x (others i s flag (.here i s) here))

def AllMeant (argv : List String) (i : Nat) (s : Session) : Prop := ∀ j t,
  Reached argv (advance argv) i s j t → j ≠ argv.length → advance argv j t = meant argv j t

-- Every argument reached as a flag is empty or one of the seven tested first.
def sound : List String → Bool
  | [] => true
  | [flag] => flag ∈ plainFlags || flag ∈ valuedFlags
  | flag::v::rest =>
    if flag ∈ valuedFlags then (flag == "-type" && (getTypes.lookup v).isNone) || sound rest
    else flag ∈ plainFlags && sound (v::rest)

theorem allMeantEnd (argv : List String) (s : Session) : AllMeant argv argv.length s := by
  intro j t reached more
  cases reached with
  | here => exact absurd rfl more
  | next inside => exact absurd rfl inside

theorem allMeantNext {argv : List String} {i : Nat} (more : i ≠ argv.length) (s : Session) :
    AllMeant argv i s ↔ advance argv i s = meant argv i s ∧
      ∀ k u, advance argv i s = .next k u → AllMeant argv k u := by
  constructor
  · intro all
    exact ⟨all i s (.here i s) more,fun k u moved j t reached => all j t (.next more moved reached)⟩
  · rintro ⟨first,later⟩ j t reached inside
    cases reached with
    | here => exact first
    | next more moved rest => exact later _ _ moved j t rest inside

theorem plainNext {argv : List String} {i : Nat} {flag : String} (here : argv[i]? = some flag)
    (plain : flag ∈ plainFlags) (s : Session) : ∃ t, advance argv i s = .next (i+1) t := by
  unfold advance
  rw [here]
  simp only [plainFlags,List.mem_cons,List.not_mem_nil,or_false] at plain
  rcases plain with rfl | rfl | rfl | rfl | rfl
  · exact ⟨_,rfl⟩
  · exact ⟨_,rfl⟩
  · exact ⟨_,rfl⟩
  · exact ⟨_,rfl⟩
  · exact ⟨_,rfl⟩

theorem valuedAdvance {argv : List String} {i : Nat} {flag : String} (here : argv[i]? = some flag)
    (valued : flag ∈ valuedFlags) (s : Session) : ∃ use,
      advance argv i s = withValue argv i (s.read i) flag use ∧ ∀ v t,
        if flag = "-type" ∧ getTypes.lookup v = none then ∃ what, use v t = .invalidArgument what t
        else ∃ u, use v t = .next (i+2) u := by
  unfold advance
  rw [here]
  simp only [valuedFlags,List.mem_cons,List.not_mem_nil,or_false] at valued
  rcases valued with rfl | rfl | rfl
  · refine ⟨fun v s => .next (i+2) {s with options.confFile := v},rfl,fun v t => ?_⟩
    rw [if_neg (by simp)]
    exact ⟨_,rfl⟩
  · refine ⟨setType (i+2),rfl,fun v t => ?_⟩
    unfold setType
    split
    · rename_i unknown
      rw [unknown.2]
      exact ⟨_,rfl⟩
    · rename_i known
      cases found : getTypes.lookup v with
      | none => exact absurd ⟨rfl,found⟩ known
      | some type => exact ⟨_,rfl⟩
  · refine ⟨fun v s => .next (i+2) {s with options.sqlConfig.username := v},rfl,fun v t => ?_⟩
    rw [if_neg (by simp)]
    exact ⟨_,rfl⟩

theorem allMeantThrown {argv : List String} {i : Nat} {s t : Session} {what : String}
    (more : i ≠ argv.length) (meets : advance argv i s = meant argv i s)
    (thrown : advance argv i s = .invalidArgument what t) : AllMeant argv i s := by
  refine (allMeantNext more s).mpr ⟨meets,fun k u moved => ?_⟩
  rw [thrown] at moved
  contradiction

theorem allMeantFollowed {argv : List String} {i k : Nat} {s u : Session}
    (more : i ≠ argv.length) (meets : advance argv i s = meant argv i s)
    (next : advance argv i s = .next k u) : AllMeant argv i s ↔ AllMeant argv k u := by
  rw [allMeantNext more]
  refine ⟨fun all => all.2 k u next,fun later => ⟨meets,fun l t moved => ?_⟩⟩
  cases next.symm.trans moved
  exact later

theorem soundPlain {flag : String} (plain : flag ∈ plainFlags) (rest : List String) :
    sound (flag::rest) = sound rest := by
  have other : flag ∉ valuedFlags := by
    have apart : ∀ f ∈ plainFlags, f ∉ valuedFlags := by decide
    exact apart flag plain
  cases rest with
  | nil => simp [sound,plain]
  | cons v rest => simp [sound,plain,other]

theorem soundOther {flag : String} (plain : flag ∉ plainFlags) (valued : flag ∉ valuedFlags)
    (rest : List String) : sound (flag::rest) = false := by
  cases rest <;> simp [sound,plain,valued]

theorem allMeantSound {argv : List String} {i : Nat} (inside : i ≤ argv.length) (s : Session) :
    AllMeant argv i s ↔ sound (argv.drop i) = true := by
  induction room : argv.length - i using Nat.strongRecOn generalizing i s with
  | _ n ih =>
    by_cases more : i = argv.length
    · subst more
      rw [List.drop_length]
      exact iff_of_true (allMeantEnd argv s) rfl
    · have low : i < argv.length := by omega
      have here : argv[i]? = some argv[i] := List.getElem?_eq_getElem low
      have cut := List.drop_eq_getElem_cons low
      generalize argv[i] = flag at here cut
      rw [cut]
      by_cases plain : flag ∈ plainFlags
      · obtain ⟨u,next⟩ := plainNext here plain s
        rw [soundPlain plain,allMeantFollowed more (handledMeant here (.inl plain) s) next]
        exact ih (argv.length - (i+1)) (by omega) low u rfl
      by_cases valued : flag ∈ valuedFlags
      · have meets := handledMeant here (.inr valued) s
        obtain ⟨use,result,uses⟩ := valuedAdvance here valued s
        by_cases last : i + 1 = argv.length
        · have thrown : advance argv i s = throwArgRequired flag (s.read i) := by
            rw [result,withValue,if_neg (not_not.mpr last)]
          rw [last,List.drop_length]
          exact iff_of_true (allMeantThrown more meets thrown) (by simp [sound,valued])
        · have after : i + 1 < argv.length := by omega
          have value : argv[i+1]? = some argv[i+1] := List.getElem?_eq_getElem after
          rw [List.drop_eq_getElem_cons after]
          generalize argv[i+1] = v at value
          have goes : advance argv i s = use v ((s.read i).read (i+1)) := by
            rw [result,withValue,if_pos last,value]
          have used := uses v ((s.read i).read (i+1))
          simp only [sound,if_pos valued]
          split at used
          · rename_i unknown
            obtain ⟨what,thrown⟩ := used
            exact iff_of_true (allMeantThrown more meets (goes.trans thrown)) (by simp [unknown])
          · rename_i known
            obtain ⟨u,next⟩ := used
            have later := ih (argv.length - (i+2)) (by omega) (by omega : i + 2 ≤ argv.length) u rfl
            rw [allMeantFollowed more meets (goes.trans next),later]
            have unknown : (flag == "-type" && (getTypes.lookup v).isNone) = false := by
              rw [Bool.and_eq_false_iff]
              by_cases type : flag = "-type"
              · exact Or.inr (Option.isNone_eq_false_iff.mpr
                  (Option.isSome_iff_ne_none.mpr fun none => known ⟨type,none⟩))
              · exact Or.inl (by simpa using type)
            rw [unknown,Bool.false_or]
      · refine iff_of_false (fun all => ?_) (by simp [soundOther plain valued])
        exact otherNotMeant here plain valued s ((allMeantNext more s).mp all).1

theorem processMeant {argv : List String} {room i : Nat} {s : Session} (all : AllMeant argv i s) :
    process argv (advance argv) room i s = process argv (meant argv) room i s := by
  induction room generalizing i s with
  | zero => rfl
  | succ room ih =>
    unfold process
    by_cases last : i = argv.length
    · rw [if_pos last,if_pos last]
    · obtain ⟨first,later⟩ := (allMeantNext last s).mp all
      rw [if_neg last,if_neg last,← first]
      cases result : advance argv i s with
      | next j t => exact ih (later j t result)
      | invalidArgument what t => rfl
      | undefined => rfl

theorem allMeantOwn {argv : List String} {i : Nat} {s : Session} (all : AllMeant argv i s) :
    ∀ j t, Reached argv (advance argv) i s j t → OwnOnly argv j t := by
  intro j t reached flag k u here moved
  have inside : j ≠ argv.length := by
    rintro rfl
    simp at here
  rw [all j t reached inside] at moved
  exact ⟨fun x other => meantOwn here other moved,fun other => meantQuiet here other moved⟩

theorem argumentsMeant (argv : List String) (base : Options) (console : Console) (named : argv ≠ []) :
    (AllMeant argv 1 ⟨base,console,[]⟩ ↔ sound argv.tail = true) ∧
    (sound argv.tail = true → fromArguments argv base console =
      process argv (meant argv) argv.length 1 ⟨base,console,[]⟩) ∧
    (sound argv.tail = true → ∀ j t, Reached argv (advance argv) 1 ⟨base,console,[]⟩ j t →
      OwnOnly argv j t) ∧
    ∃ outcome, fromArguments argv base console = some outcome ∧ Settles argv 1 [] outcome := by
  have inside : 1 ≤ argv.length := List.length_pos_iff.mpr named
  have exactly := allMeantSound inside ⟨base,console,[]⟩
  rw [List.drop_one] at exactly
  exact ⟨exactly,fun good => processMeant (exactly.mpr good),fun good => allMeantOwn (exactly.mpr good),
    processSettles inside (by omega) ⟨base,console,[]⟩⟩

def defaults : Options := ⟨"",false,true,⟨.mySql,"","","","",false⟩⟩
def terminal : Console := ⟨['s','e','s','a','m','e','\n'],true,[],true⟩

theorem argumentsMeantUser :
    (AllMeant ["brewpippd","-u","brewer"] 1 ⟨defaults,terminal,[]⟩ ↔ sound ["-u","brewer"] = true) ∧
    (sound ["-u","brewer"] = true → fromArguments ["brewpippd","-u","brewer"] defaults terminal =
      process ["brewpippd","-u","brewer"] (meant ["brewpippd","-u","brewer"]) 3 1
        ⟨defaults,terminal,[]⟩) ∧
    (sound ["-u","brewer"] = true → ∀ j t, Reached ["brewpippd","-u","brewer"]
      (advance ["brewpippd","-u","brewer"]) 1 ⟨defaults,terminal,[]⟩ j t →
        OwnOnly ["brewpippd","-u","brewer"] j t) ∧
    ∃ outcome, fromArguments ["brewpippd","-u","brewer"] defaults terminal = some outcome ∧
      Settles ["brewpippd","-u","brewer"] 1 [] outcome :=
  argumentsMeant ["brewpippd","-u","brewer"] defaults terminal (by simp)

theorem argumentsNotMeant :
    fromArguments ["brewpippd","-P"] defaults terminal =
      some (.invalidArgument "Invalid Argument: -P" ⟨defaults,terminal,[1]⟩) ∧
    (∃ t, fromArguments ["brewpippd","--debug"] defaults terminal = some (.constructed t) ∧
      t.options.sqlConfig.password = "sesame" ∧ t.options.sqlConfig.debug = false) ∧
    ¬ ∀ argv s, argv ≠ [] → AllMeant argv 1 s := by
  refine ⟨rfl,⟨_,rfl,rfl,rfl⟩,?_⟩
  intro all
  have wrong := (allMeantSound (by simp) ⟨defaults,terminal,[]⟩).mp
    (all ["brewpippd","-P"] ⟨defaults,terminal,[]⟩ (by simp))
  exact absurd wrong (by decide)

end Chambermaid.CommandLine
