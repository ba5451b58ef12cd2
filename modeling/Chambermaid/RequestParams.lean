import Mathlib.Data.List.Basic

/-! Request parameters, from the POST and the GET data. One of the six accessors reads
the other kind of data than its name says. -/
namespace Chambermaid.RequestParams

abbrev Values := List (String × List String)

structure Request where
  posts : Values
  gets : Values
  deriving DecidableEq, Repr

def notFound : List String := [""]

def requestFind (values : Values) (search : String) (empty : List String) : List String :=
  match values.lookup search with
  | none => empty
  | some ret => if ret.isEmpty then empty else ret

def getGets (r : Request) (search : String) : List String := requestFind r.gets search notFound

def getParams (r : Request) (search : String) : List String :=
  let fromGets := match r.gets.lookup search with
    | none => notFound
    | some ret2 => if ret2.isEmpty then notFound else ret2
  match r.posts.lookup search with
  | none => fromGets
  | some ret1 => if ret1.isEmpty then fromGets else ret1

def getPosts (r : Request) (search : String) : List String := requestFind r.posts search notFound

-- front() of an empty list is undefined.
def front (values : List String) : Option String := values.head?

def getPost (r : Request) (search : String) : Option String := front (getPosts r search)

def getGet (r : Request) (search : String) : Option String := front (getPosts r search)

def getParam (r : Request) (search : String) : Option String := front (getParams r search)

def Has (values : Values) (key : String) : Prop :=
  ∃ found, values.lookup key = some found ∧ found ≠ []

inductive Given (values : Values) (key : String) : List String → Prop where
  | found {list : List String} (there : values.lookup key = some list) (filled : list ≠ []) :
      Given values key list
  | missing (none : ¬ Has values key) : Given values key [""]

def FirstGiven (values : Values) (key : String) (first : Option String) : Prop :=
  ∃ value rest, first = some value ∧ Given values key (value::rest)

def Preferred (P : Values → Prop) (r : Request) (key : String) : Prop :=
  (Has r.posts key → P r.posts) ∧ (¬ Has r.posts key → P r.gets)

structure RightSource (r : Request) (key : String) : Prop where
  posts : Given r.posts key (getPosts r key)
  gets : Given r.gets key (getGets r key)
  params : Preferred (fun values => Given values key (getParams r key)) r key
  post : FirstGiven r.posts key (getPost r key)
  get : FirstGiven r.gets key (getGet r key)
  param : Preferred (fun values => FirstGiven values key (getParam r key)) r key

theorem givenUnique {values : Values} {key : String} {list other : List String}
    (first : Given values key list) (second : Given values key other) : list = other := by
  cases first with
  | found there filled =>
    cases second with
    | found there' _ => exact Option.some.inj (there.symm.trans there')
    | missing none => exact absurd ⟨_,there,filled⟩ none
  | missing none =>
    cases second with
    | found there filled => exact absurd ⟨_,there,filled⟩ none
    | missing _ => rfl

theorem frontGiven {values : Values} {key : String} {list : List String}
    (given : Given values key list) : FirstGiven values key (front list) := by
  cases list with
  | nil =>
    cases given with
    | found _ filled => exact absurd rfl filled
  | cons value rest => exact ⟨value,rest,rfl,given⟩

theorem firstUnique {values : Values} {key : String} {first second : Option String}
    (one : FirstGiven values key first) (other : FirstGiven values key second) : first = second := by
  obtain ⟨value,rest,rfl,given⟩ := one
  obtain ⟨value',rest',rfl,given'⟩ := other
  exact congrArg some (List.cons.inj (givenUnique given given')).1

theorem requestFindElse {values : Values} {key : String} (none : ¬ Has values key)
    (empty : List String) : requestFind values key empty = empty := by
  unfold requestFind
  split
  · rfl
  · rename_i ret there
    exact if_pos (by_contra fun filled => none ⟨ret,there,fun same => filled (by rw [same]; rfl)⟩)

theorem requestFindThere {values : Values} {key : String} (has : Has values key)
    (empty : List String) : Given values key (requestFind values key empty) := by
  obtain ⟨found,there,filled⟩ := has
  have same : requestFind values key empty = found := by
    unfold requestFind
    rw [there]
    exact if_neg fun none => filled (List.isEmpty_iff.mp none)
  rw [same]
  exact .found there filled

theorem requestFindGiven (values : Values) (key : String) :
    Given values key (requestFind values key notFound) := by
  by_cases has : Has values key
  · exact requestFindThere has notFound
  · rw [requestFindElse has]
    exact .missing has

theorem getParamsPreferred (r : Request) (key : String) :
    getParams r key = requestFind r.posts key (getGets r key) := rfl

theorem paramsGiven (r : Request) (key : String) :
    Preferred (fun values => Given values key (getParams r key)) r key := by
  rw [getParamsPreferred]
  refine ⟨fun has => requestFindThere has _,fun none => ?_⟩
  rw [requestFindElse none]
  exact requestFindGiven r.gets key

theorem rightSource (r : Request) (key : String) : RightSource r key ↔
    ∃ first, FirstGiven r.posts key first ∧ FirstGiven r.gets key first := by
  have post : FirstGiven r.posts key (getGet r key) := frontGiven (requestFindGiven r.posts key)
  constructor
  · exact fun right => ⟨_,post,right.get⟩
  · rintro ⟨first,posts,gets⟩
    obtain ⟨there,elsewhere⟩ := paramsGiven r key
    refine ⟨requestFindGiven r.posts key,requestFindGiven r.gets key,⟨there,elsewhere⟩,post,?_,?_⟩
    · rw [firstUnique post posts]
      exact gets
    · exact ⟨fun has => frontGiven (there has),fun none => frontGiven (elsewhere none)⟩

def both : Request := ⟨[("G",["1"])],[("G",["2"])]⟩

theorem getReadsPost : ¬ RightSource both "G" := by
  rintro ⟨_,_,_,_,⟨value,rest,first,given⟩,_⟩
  have posted : getGet both "G" = some "1" := by decide
  cases Option.some.inj (posted.symm.trans first)
  have twos : Given both.gets "G" ["2"] := .found rfl (List.cons_ne_nil _ _)
  exact absurd (List.cons.inj (givenUnique given twos)).1 (by decide)

end Chambermaid.RequestParams
