import Mathlib.Algebra.Ring.Int.Defs

/-! JSON values as jsoncpp holds them, and the library as a parameter: what its reader gives for
a text, what lookup, assignment and conversions give. Lookup throws exactly on the values that
can have no members, a conversion on those its documentation calls unconvertible. Reals are
exact values; the range checks are those on doubles, where 2^63 - 1 is 2^63. -/
namespace Chambermaid.Json

abbrev Bytes := List UInt8

inductive Value where
  | null
  | boolean (value : Bool)
  | int (value : Int64)
  | uint (value : UInt64)
  | real (value : Rat)
  | string (value : Bytes)
  | array (items : List Value)
  | object (members : List (String × Value))

inductive JsonException where
  | logicError | runtimeError
  deriving DecidableEq, Repr

def isContainer : Value → Bool
  | .null => true
  | .object _ => true
  | _ => false

def membersOf : Value → List (String × Value)
  | .object members => members
  | _ => []

def memberOf (v : Value) (key : String) : Value := ((membersOf v).lookup key).getD .null

inductive Conversion where
  | asDouble | asString | asBool | asUInt | asInt64 | asInt
  deriving DecidableEq, Repr

structure Range where
  least : Int
  greatest : Int

def inRange (r : Range) (n : Int) : Bool := r.least ≤ n && n ≤ r.greatest

def inRangeReal (r : Range) (q : Rat) : Bool := (r.least : Rat) ≤ q && q ≤ (r.greatest : Rat)

-- The type's own range, and the range a double is compared with.
def ranges : Conversion → Option (Range × Range)
  | .asUInt => some (⟨0,2^32 - 1⟩,⟨0,2^32 - 1⟩)
  | .asInt64 => some (⟨-2^63,2^63 - 1⟩,⟨-2^63,2^63⟩)
  | .asInt => some (⟨-2^31,2^31 - 1⟩,⟨-2^31,2^31 - 1⟩)
  | _ => none

def convertible (c : Conversion) : Value → Bool
  | .null => true
  | .boolean _ => true
  | .int n => (ranges c).all fun r => inRange r.1 n.toInt
  | .uint n => (ranges c).all fun r => inRange r.1 n.toNat
  | .real q => (ranges c).all fun r => inRangeReal r.2 q
  | .string _ => c = .asString
  | .array _ => false
  | .object _ => false

def Returns {ε α : Type} (x : Except ε α) : Prop := ∃ a, x = .ok a

structure Library where
  parse : Bytes → Option Value
  find : Value → String → Except JsonException (Option Value)
  get : Value → String → Value → Except JsonException Value
  -- operator[] on a const value.
  member : Value → String → Except JsonException Value
  -- root[key] = value on the members of an object; null has none.
  assign : String → Value → List (String × Value) → List (String × Value)
  asDouble : Value → Except JsonException Rat
  asString : Value → Except JsonException Bytes
  asBool : Value → Except JsonException Bool
  asUInt : Value → Except JsonException UInt32
  asInt64 : Value → Except JsonException Int64
  asInt : Value → Except JsonException Int32
  findReturns : ∀ v key, Returns (find v key) ↔ isContainer v = true
  findMember : ∀ {v} key, isContainer v = true → find v key = .ok ((membersOf v).lookup key)
  getReturns : ∀ v key defaultValue, Returns (get v key defaultValue) ↔ isContainer v = true
  getMember : ∀ {v} key defaultValue, isContainer v = true →
    get v key defaultValue = .ok (((membersOf v).lookup key).getD defaultValue)
  memberReturns : ∀ v key, Returns (member v key) ↔ isContainer v = true
  memberIs : ∀ {v} key, isContainer v = true → member v key = .ok (memberOf v key)
  assigned : ∀ key value members other, (assign key value members).lookup other =
    if other = key then some value else members.lookup other
  asDoubleReturns : ∀ v, Returns (asDouble v) ↔ convertible .asDouble v = true
  asStringReturns : ∀ v, Returns (asString v) ↔ convertible .asString v = true
  asBoolReturns : ∀ v, Returns (asBool v) ↔ convertible .asBool v = true
  asUIntReturns : ∀ v, Returns (asUInt v) ↔ convertible .asUInt v = true
  asInt64Returns : ∀ v, Returns (asInt64 v) ↔ convertible .asInt64 v = true
  asIntReturns : ∀ v, Returns (asInt v) ↔ convertible .asInt v = true

theorem returnsPure {ε α : Type} (a : α) : Returns (pure a : Except ε α) := ⟨a,rfl⟩

theorem returnsBind {ε α β : Type} (x : Except ε α) (f : α → Except ε β) :
    Returns (x >>= f) ↔ ∃ a, x = .ok a ∧ Returns (f a) := by
  cases x with
  | error e =>
    constructor
    · rintro ⟨b,found⟩
      cases found
    · rintro ⟨a,found,_⟩
      cases found
  | ok a =>
    constructor
    · intro returns
      exact ⟨a,rfl,returns⟩
    · rintro ⟨b,found,returns⟩
      cases found
      exact returns

theorem foundReads {α : Type} {v w : Value} {x : Except JsonException Value}
    {read : Value → Except JsonException α} {c : Conversion}
    (returns : Returns x ↔ isContainer v = true) (found : isContainer v = true → x = .ok w)
    (reads : ∀ v, Returns (read v) ↔ convertible c v = true) :
    Returns (x >>= read) ↔ isContainer v = true ∧ convertible c w = true := by
  rw [returnsBind]
  constructor
  · rintro ⟨a,same,converts⟩
    have container := returns.mp ⟨a,same⟩
    cases same.symm.trans (found container)
    exact ⟨container,(reads w).mp converts⟩
  · rintro ⟨container,converts⟩
    exact ⟨w,found container,(reads w).mpr converts⟩

theorem memberReads (lib : Library) {α : Type} {v : Value} {key : String}
    {read : Value → Except JsonException α} {c : Conversion}
    (reads : ∀ v, Returns (read v) ↔ convertible c v = true) :
    Returns (lib.member v key >>= read) ↔
      isContainer v = true ∧ convertible c (memberOf v key) = true :=
  foundReads (lib.memberReturns v key) (lib.memberIs key) reads

/-! A library whose lookup, assignment and conversions are the documented ones; reading a text
and printing a real are still open. -/
def looking {α : Type} (v : Value) (found : α) : Except JsonException α :=
  if isContainer v then .ok found else .error .logicError

theorem lookingOk {α : Type} {v : Value} (container : isContainer v = true) (found : α) :
    looking v found = .ok found := if_pos container

theorem lookingReturns {α : Type} (v : Value) (found : α) :
    Returns (looking v found) ↔ isContainer v = true := by
  constructor
  · intro returns
    by_contra other
    rw [looking,if_neg other] at returns
    obtain ⟨a,same⟩ := returns
    cases same
  · exact fun container => ⟨found,lookingOk container found⟩

def assigning (key : String) (value : Value) : List (String × Value) → List (String × Value)
  | [] => [(key,value)]
  | m::members => if m.1 = key then (key,value)::members else m :: assigning key value members

theorem lookupCons (m : String × Value) (members : List (String × Value)) (key : String) :
    (m::members).lookup key = if key = m.1 then some m.2 else members.lookup key := by
  obtain ⟨own,value⟩ := m
  by_cases same : key = own
  · subst same
    simp
  · have other : (key == own) = false := beq_false_of_ne same
    rw [List.lookup_cons,other,if_neg same]

theorem lookupAssigning (key : String) (value : Value) (members : List (String × Value))
    (other : String) : (assigning key value members).lookup other =
      if other = key then some value else members.lookup other := by
  induction members with
  | nil => exact lookupCons (key,value) [] other
  | cons m members ih =>
    unfold assigning
    split
    · rename_i here
      rw [lookupCons,lookupCons,here]
      split <;> rfl
    · rename_i elsewhere
      rw [lookupCons,lookupCons,ih]
      split
      · rename_i there
        rw [if_neg (fun same => elsewhere (there.symm.trans same))]
      · rfl

def truncate (q : Rat) : Int := q.num.tdiv q.den

def toReal : Value → Rat
  | .boolean b => if b then 1 else 0
  | .int n => n.toInt
  | .uint n => n.toNat
  | .real q => q
  | _ => 0

def toInteger : Value → Int
  | .boolean b => if b then 1 else 0
  | .int n => n.toInt
  | .uint n => n.toNat
  | .real q => truncate q
  | _ => 0

def toBool : Value → Bool
  | .boolean b => b
  | .int n => n ≠ 0
  | .uint n => n ≠ 0
  | .real q => q ≠ 0
  | _ => false

def decimal (n : Int) : Bytes := (toString n).toUTF8.toList

def toText (realText : Rat → Bytes) : Value → Bytes
  | .boolean b => (if b then "true" else "false").toUTF8.toList
  | .int n => decimal n.toInt
  | .uint n => decimal n.toNat
  | .real q => realText q
  | .string s => s
  | _ => []

def converting {α : Type} (c : Conversion) (convert : Value → α) (v : Value) :
    Except JsonException α :=
  if convertible c v then .ok (convert v) else .error .runtimeError

theorem convertingReturns {α : Type} (c : Conversion) (convert : Value → α) (v : Value) :
    Returns (converting c convert v) ↔ convertible c v = true := by
  unfold converting
  split
  · rename_i converts
    exact ⟨fun _ => converts,fun _ => ⟨_,rfl⟩⟩
  · rename_i unconvertible
    constructor
    · rintro ⟨a,found⟩
      cases found
    · intro converts
      exact absurd converts unconvertible

def documented (parse : Bytes → Option Value) (realText : Rat → Bytes) : Library where
  parse := parse
  find := fun v key => looking v ((membersOf v).lookup key)
  get := fun v key defaultValue => looking v (((membersOf v).lookup key).getD defaultValue)
  member := fun v key => looking v (memberOf v key)
  assign := assigning
  asDouble := converting .asDouble toReal
  asString := converting .asString (toText realText)
  asBool := converting .asBool toBool
  asUInt := converting .asUInt (fun v => UInt32.ofInt (toInteger v))
  asInt64 := converting .asInt64 (fun v => Int64.ofInt (toInteger v))
  asInt := converting .asInt (fun v => Int32.ofInt (toInteger v))
  findReturns := fun v _ => lookingReturns v _
  findMember := fun _ container => lookingOk container _
  getReturns := fun v _ _ => lookingReturns v _
  getMember := fun _ _ container => lookingOk container _
  memberReturns := fun v _ => lookingReturns v _
  memberIs := fun _ container => lookingOk container _
  assigned := lookupAssigning
  asDoubleReturns := convertingReturns _ _
  asStringReturns := convertingReturns _ _
  asBoolReturns := convertingReturns _ _
  asUIntReturns := convertingReturns _ _
  asInt64Returns := convertingReturns _ _
  asIntReturns := convertingReturns _ _

def readsTwo (text : Bytes) : Option Value :=
  if text = [123,125] then some (.object [])
  else if text = [53] then some (.int 5)
  else none

end Chambermaid.Json
