import Mathlib.Data.List.Basic

/-! The panel's request loop. The body handles any request and finishes it once; the
loop's guard is on the wrong side, so that no accepted request comes to it. -/
namespace Chambermaid.Panel

structure Lines where
  lcdLine1 : String
  lcdLine2 : String
  lcdLine3 : String
  lcdLine4 : String
  deriving DecidableEq, Repr

inductive Action where
  | accept (result : Int)
  | redirect (uri : String)
  | exitStatus (status : Nat)
  | contentType (value : String)
  | lines (lines : Lines)
  | errorLine (what : String)
  | finish
  | goodbye (line : String)
  deriving DecidableEq, Repr

inductive Call where
  | options | uri | redirect | parse | connect | authorities | getint | select | contentType
  | row | write
  deriving DecidableEq, Repr

/-! A request, with what each call gives for it. Bit 0 of the authority is viewStatus. -/
structure Request where
  secureOnly : Bool
  https : Option String
  requestUri : Option String
  authority : BitVec 4
  group : Int
  rows : UInt8 → List Lines
  failure : Call → Option String

def isSecure (https : Option String) : Bool :=
  match https with
  | none => false
  | some https => https == "on"

def viewStatus (authority : BitVec 4) : Bool := authority.getLsbD 0

def secureUri (uri : String) : String :=
  let scheme := uri.toList.takeWhile (· ≠ ':')
  let rest := uri.toList.dropWhile (· ≠ ':')
  if rest = [] then uri else String.ofList (scheme ++ 's'::rest)

structure Handling where
  actions : List Action
  thrown : Option String

def call (r : Request) (c : Call) (next : Handling) : Handling :=
  match r.failure c with
  | some what => ⟨[],some what⟩
  | none => next

def act (a : Action) (next : Handling) : Handling := ⟨a::next.actions,next.thrown⟩

def finishing : Handling := ⟨[.finish],none⟩

def forbidding : Handling := act (.exitStatus 403) finishing

-- A string made of a null pointer throws.
def redirecting (r : Request) : Handling :=
  match r.requestUri with
  | none => ⟨[],some "basic_string: construction from null is not valid"⟩
  | some uri => call r .uri (call r .redirect (act (.redirect (secureUri uri)) finishing))

def answering (r : Request) : Handling :=
  call r .getint (call r .select (match r.rows (UInt8.ofInt r.group) with
    | [] => forbidding
    | lines::_ => call r .contentType (act (.contentType "application/json")
        (call r .row (call r .write (act (.lines lines) finishing))))))

def tryBlock (r : Request) : Handling :=
  call r .options (if r.secureOnly && !isSecure r.https then redirecting r else
    call r .parse (call r .connect (call r .authorities (
      if !viewStatus r.authority then forbidding else answering r))))

def body (r : Request) : List Action :=
  let handling := tryBlock r
  match handling.thrown with
  | none => handling.actions
  | some what => handling.actions ++ [.errorLine what,.exitStatus 500,.finish]

/-! The loop, for any guard on the result of FCGI_Accept. Where the results end, the next
one has not come yet. -/
structure Visit where
  result : Int
  request : Request

def finishedLine (argv : List String) : String :=
  match argv with
  | [] => "finished"
  | name::_ => "finished " ++ name

def loop (continues : Int → Bool) (argv : List String) : List Visit → List Action
  | [] => []
  | v::visits => .accept v.result::(if continues v.result
      then body v.request ++ loop continues argv visits else [.goodbye (finishedLine argv)])

def panel (argv : List String) (visits : List Visit) : List Action :=
  loop (fun result => result ≠ 0) argv visits

def Passed (r : Request) : Prop :=
  (r.secureOnly = true → isSecure r.https = true) ∧ viewStatus r.authority = true

structure Served (r : Request) (actions : List Action) : Prop where
  once : actions.count .finish = 1
  unasked : ∀ result, .accept result ∉ actions
  passed : ∀ lines, .lines lines ∈ actions → Passed r

inductive Serves : List Visit → List Action → Prop where
  | waits : Serves [] []
  | stops {v : Visit} (shutdown : v.result < 0) {visits : List Visit} {after : List Action}
      (stopped : ∀ a ∈ after, ∃ line, a = .goodbye line) : Serves (v::visits) (.accept v.result::after)
  | serves {v : Visit} (accepted : v.result = 0) {actions : List Action}
      (served : Served v.request actions) {visits : List Visit} {rest : List Action}
      (next : Serves visits rest) : Serves (v::visits) (.accept v.result::(actions ++ rest))

structure Handled (r : Request) (h : Handling) : Prop where
  once : h.actions.count .finish = if h.thrown.isNone then 1 else 0
  unasked : ∀ result, .accept result ∉ h.actions
  passed : ∀ lines, .lines lines ∈ h.actions → Passed r

theorem throwHandled (r : Request) (what : String) : Handled r ⟨[],some what⟩ :=
  ⟨rfl,fun _ => List.not_mem_nil,fun _ member => absurd member List.not_mem_nil⟩

theorem callHandled {r : Request} {c : Call} {next : Handling} (handled : Handled r next) :
    Handled r (call r c next) := by
  unfold call
  split
  · exact throwHandled r _
  · exact handled

theorem actHandled {r : Request} {a : Action} {next : Handling} (other : a ≠ .finish)
    (unasked : ∀ result, a ≠ .accept result) (passed : ∀ lines, a = .lines lines → Passed r)
    (handled : Handled r next) : Handled r (act a next) := by
  refine ⟨?_,?_,?_⟩
  · simp only [act,List.count_cons_of_ne other]
    exact handled.once
  · intro result member
    rcases List.mem_cons.mp member with here | later
    · exact unasked result here.symm
    · exact handled.unasked result later
  · intro lines member
    rcases List.mem_cons.mp member with here | later
    · exact passed lines here.symm
    · exact handled.passed lines later

theorem finishingHandled (r : Request) : Handled r finishing :=
  ⟨rfl,fun _ => by simp [finishing],fun _ member => by simp [finishing] at member⟩

theorem forbiddingHandled (r : Request) : Handled r forbidding :=
  actHandled Action.noConfusion (fun _ => Action.noConfusion) (fun _ => Action.noConfusion)
    (finishingHandled r)

theorem redirectingHandled (r : Request) : Handled r (redirecting r) := by
  unfold redirecting
  split
  · exact throwHandled r _
  · exact callHandled (callHandled (actHandled Action.noConfusion (fun _ => Action.noConfusion)
      (fun _ => Action.noConfusion) (finishingHandled r)))

theorem answeringHandled {r : Request} (passed : Passed r) : Handled r (answering r) := by
  have shown : ∀ lines, Handled r (act (.lines lines) finishing) := fun lines =>
    actHandled Action.noConfusion (fun _ => Action.noConfusion) (fun _ _ => passed)
      (finishingHandled r)
  refine callHandled (callHandled ?_)
  split
  · exact forbiddingHandled r
  · exact callHandled (actHandled Action.noConfusion (fun _ => Action.noConfusion)
      (fun _ => Action.noConfusion) (callHandled (callHandled (shown _))))

theorem tryBlockHandled (r : Request) : Handled r (tryBlock r) := by
  refine callHandled ?_
  split
  · exact redirectingHandled r
  · rename_i secure
    refine callHandled (callHandled (callHandled ?_))
    split
    · exact forbiddingHandled r
    · rename_i views
      refine answeringHandled ⟨fun only => ?_,by simpa using views⟩
      simpa [only] using secure

theorem bodyReturns {r : Request} (returned : (tryBlock r).thrown = none) :
    body r = (tryBlock r).actions := by
  simp only [body,returned]

theorem bodyCatches {r : Request} {what : String} (thrown : (tryBlock r).thrown = some what) :
    body r = (tryBlock r).actions ++ [.errorLine what,.exitStatus 500,.finish] := by
  simp only [body,thrown]

theorem bodyServed (r : Request) : Served r (body r) := by
  obtain ⟨once,unasked,passed⟩ := tryBlockHandled r
  cases thrown : (tryBlock r).thrown with
  | none =>
    rw [thrown,Option.isNone_none,if_pos rfl] at once
    rw [bodyReturns thrown]
    exact ⟨once,unasked,passed⟩
  | some what =>
    rw [thrown,Option.isNone_some,if_neg Bool.false_ne_true] at once
    rw [bodyCatches thrown]
    refine ⟨?_,?_,?_⟩
    · rw [List.count_append,once]
      rfl
    · intro result member
      rcases List.mem_append.mp member with before | after
      · exact unasked result before
      · simp at after
    · intro lines member
      rcases List.mem_append.mp member with before | after
      · exact passed lines before
      · simp at after

theorem servesFirst {continues : Int → Bool} {argv : List String} {v : Visit} {visits : List Visit}
    (serves : Serves (v::visits) (loop continues argv (v::visits))) :
    continues v.result = true ↔ v.result = 0 := by
  rw [loop] at serves
  generalize same : (if continues v.result then body v.request ++ loop continues argv visits
    else [.goodbye (finishedLine argv)]) = after at serves
  cases serves with
  | stops shutdown stopped =>
    refine iff_of_false (fun goes => ?_) (Int.ne_of_lt shutdown)
    rw [if_pos goes] at same
    have finishes : Action.finish ∈ body v.request :=
      List.count_pos_iff.mp (by rw [(bodyServed v.request).once]; decide)
    obtain ⟨line,other⟩ := stopped .finish (same ▸ List.mem_append_left _ finishes)
    contradiction
  | @serves _ accepted actions served _ rest next =>
    refine iff_of_true (by_contra fun stops => ?_) accepted
    rw [if_neg stops] at same
    have finishes : Action.finish ∈ actions :=
      List.count_pos_iff.mp (by rw [served.once]; decide)
    have member : Action.finish ∈ actions ++ rest := List.mem_append_left _ finishes
    rw [← same] at member
    simp at member

theorem neverServes (argv : List String) (first : Visit) (rest : List Visit) :
    ¬ Serves (first::rest) (panel argv (first::rest)) := by
  intro serves
  have guard := servesFirst serves
  rw [decide_eq_true_iff] at guard
  exact not_iff_self guard

def plain : Request := ⟨false,none,none,15,0,fun _ => [],fun _ => none⟩

theorem requestLost : panel ["panel"] [⟨0,plain⟩] = [.accept 0,.goodbye "finished panel"] ∧
    ¬ Serves [⟨0,plain⟩] (panel ["panel"] [⟨0,plain⟩]) := by
  refine ⟨rfl,fun serves => ?_⟩
  have goes := (servesFirst serves).mpr rfl
  contradiction

theorem guardExactly (continues : Int → Bool) (argv : List String) :
    (∀ visits : List Visit, (∀ v ∈ visits, v.result ≤ 0) →
      Serves visits (loop continues argv visits)) ↔
    ∀ result ≤ 0, (continues result = true ↔ result = 0) := by
  constructor
  · intro all result low
    exact servesFirst (all [⟨result,plain⟩] (List.forall_mem_singleton.mpr low))
  · intro guard visits
    induction visits with
    | nil => exact fun _ => .waits
    | cons v visits ih =>
      intro low
      obtain ⟨here,others⟩ := List.forall_mem_cons.mp low
      rw [loop]
      by_cases accepted : v.result = 0
      · rw [if_pos ((guard _ here).mpr accepted)]
        exact .serves accepted (bodyServed v.request) (ih others)
      · rw [if_neg fun goes => accepted ((guard _ here).mp goes)]
        exact .stops (by omega) fun a member => ⟨_,List.mem_singleton.mp member⟩

end Chambermaid.Panel
