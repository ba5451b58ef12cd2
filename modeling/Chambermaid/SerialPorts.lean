import Mathlib.Data.List.Sort
import Mathlib.Data.String.Basic

/-! The serial ports of the machine. Whatever the file system throws ends the listing, with
the ports found by then. -/
namespace Chambermaid.SerialPorts

section
structure OrderedSet (α : Type) [LinearOrder α] where
  items : List α
  ascending : items.Pairwise (· < ·)

variable {α : Type} [LinearOrder α]

def empty : OrderedSet α := ⟨[],List.Pairwise.nil⟩

theorem insertAscending {x : α} {items : List α} (ascending : items.Pairwise (· < ·))
    (absent : x ∉ items) : (items.orderedInsert (· ≤ ·) x).Pairwise (· < ·) := by
  have weak : items.Pairwise (· ≤ ·) := ascending.imp fun below => le_of_lt below
  have sorted : (items.orderedInsert (· ≤ ·) x).Pairwise (· ≤ ·) := weak.orderedInsert x items
  have once : (x::items).Nodup := List.nodup_cons.mpr ⟨absent,ascending.imp fun below => ne_of_lt below⟩
  have distinct : (items.orderedInsert (· ≤ ·) x).Nodup :=
    (List.perm_orderedInsert (· ≤ ·) x items).nodup_iff.mpr once
  exact (sorted.and distinct).imp fun both => lt_of_le_of_ne both.1 both.2

def emplace (s : OrderedSet α) (x : α) : OrderedSet α :=
  if absent : x ∉ s.items then ⟨s.items.orderedInsert (· ≤ ·) x,insertAscending s.ascending absent⟩ else s

theorem memEmplace (s : OrderedSet α) (x y : α) :
    y ∈ (emplace s x).items ↔ y = x ∨ y ∈ s.items := by
  unfold emplace
  split
  · exact List.mem_orderedInsert (· ≤ ·)
  · rename_i there
    refine ⟨.inr,fun either => either.elim (fun same => ?_) id⟩
    rw [same]
    exact Classical.not_not.mp there

theorem sameItems (s t : OrderedSet α) (same : ∀ x, x ∈ s.items ↔ x ∈ t.items) :
    s.items = t.items :=
  s.ascending.eq_of_mem_iff t.ascending same

end

/-! A directory gives the names of its entries, and maybe an exception where more would
come. -/
structure Directory where
  names : List String
  broken : Option String
  deriving DecidableEq, Repr

structure FileSystem where
  isDirectory : String → Except String Bool
  directory : String → Except String Directory
  isOther : String → Except String Bool
  isSymlink : String → Except String Bool
  canonical : String → Except String String

def folder : String := "/sys/class/tty"

-- is_other(p) || is_symlink(p)
def deviceThere (fs : FileSystem) (path : String) : Except String Bool := do
  if ← fs.isOther path then return true
  fs.isSymlink path

-- The body of the loop over the entries, up to what it puts into the set.
def portOf (fs : FileSystem) (name : String) : Except String (Option String) := do
  if ← deviceThere fs (folder ++ "/" ++ name ++ "/device") then
    if ← deviceThere fs ("/dev/" ++ name) then
      return some (← fs.canonical ("/dev/" ++ name))
  return none

def visitAll (fs : FileSystem) (found : OrderedSet String) (broken : Option String) :
    List String → OrderedSet String × Option String
  | [] => (found,broken)
  | name::names => match portOf fs name with
    | .error what => (found,some what)
    | .ok none => visitAll fs found broken names
    | .ok (some port) => visitAll fs (emplace found port) broken names

structure Listing where
  ports : List String
  errors : List String
  deriving DecidableEq, Repr

def tryBlock (fs : FileSystem) : OrderedSet String × Option String :=
  match fs.isDirectory folder with
  | .error what => (empty,some what)
  | .ok false => (empty,none)
  | .ok true => match fs.directory folder with
    | .error what => (empty,some what)
    | .ok directory => visitAll fs empty directory.broken directory.names

def listSerialPorts (fs : FileSystem) : Listing :=
  let (found,thrown) := tryBlock fs
  ⟨found.items,(thrown.map fun what => "Error enumerating serial ports: " ++ what).toList⟩

def Reached (fs : FileSystem) (names : List String) (name : String) : Prop :=
  ∃ before after, names = before ++ name::after ∧ ∀ b ∈ before, ∃ r, portOf fs b = .ok r

theorem reachedNext {fs : FileSystem} {first name : String} {names : List String} :
    Reached fs (first::names) name ↔
      name = first ∨ (∃ r, portOf fs first = .ok r) ∧ Reached fs names name := by
  constructor
  · rintro ⟨before,after,split,quiet⟩
    cases before with
    | nil =>
      cases split
      exact .inl rfl
    | cons b before =>
      cases split
      obtain ⟨here,others⟩ := List.forall_mem_cons.mp quiet
      exact .inr ⟨here,before,after,rfl,others⟩
  · rintro (rfl | ⟨here,before,after,rfl,quiet⟩)
    · exact ⟨[],names,rfl,fun b member => absurd member List.not_mem_nil⟩
    · exact ⟨first::before,after,rfl,List.forall_mem_cons.mpr ⟨here,quiet⟩⟩

theorem reachedNone {fs : FileSystem} {name : String} : ¬Reached fs [] name := by
  rintro ⟨before,after,split,_⟩
  cases before <;> cases split

theorem portFound {fs : FileSystem} {names : List String} {found : OrderedSet String}
    {broken : Option String} {port : String} :
    port ∈ (visitAll fs found broken names).1.items ↔
      port ∈ found.items ∨ ∃ name, Reached fs names name ∧ portOf fs name = .ok (some port) := by
  induction names generalizing found with
  | nil =>
    refine ⟨.inl,fun either => either.elim id fun ⟨_,reached,_⟩ => ?_⟩
    exact absurd reached reachedNone
  | cons name names ih =>
    simp only [reachedNext,or_and_right,exists_or,exists_eq_left]
    unfold visitAll
    cases here : portOf fs name with
    | error what => simp
    | ok result =>
      cases result with
      | none => simp [ih]
      | some first =>
        dsimp only
        rw [ih,memEmplace]
        have turned : first = port ↔ port = first := eq_comm
        simp only [Except.ok.injEq,Option.some.injEq,exists_eq',true_and,turned]
        rw [or_comm (a := port = first),or_assoc]

theorem portThrown {fs : FileSystem} {names : List String} {found : OrderedSet String}
    {broken : Option String} {what : String} :
    (visitAll fs found broken names).2 = some what ↔
      (∃ name, Reached fs names name ∧ portOf fs name = .error what) ∨
        broken = some what ∧ ∀ name ∈ names, ∃ r, portOf fs name = .ok r := by
  induction names generalizing found with
  | nil =>
    refine ⟨fun ends => .inr ⟨ends,fun name member => absurd member List.not_mem_nil⟩,?_⟩
    rintro (⟨_,reached,_⟩ | ⟨ends,_⟩)
    · exact absurd reached reachedNone
    · exact ends
  | cons name names ih =>
    simp only [reachedNext,or_and_right,exists_or,exists_eq_left,List.forall_mem_cons]
    unfold visitAll
    cases here : portOf fs name with
    | error first => simp
    | ok result => cases result <;> simp [ih]

theorem tryVisits {fs : FileSystem} {directory : Directory}
    (there : fs.isDirectory folder = .ok true) (opened : fs.directory folder = .ok directory) :
    tryBlock fs = visitAll fs empty directory.broken directory.names := by
  unfold tryBlock
  rw [there]
  dsimp only
  rw [opened]

theorem listed {fs : FileSystem} {directory : Directory}
    (there : fs.isDirectory folder = .ok true) (opened : fs.directory folder = .ok directory) :
    (listSerialPorts fs).ports.Pairwise (· < ·) ∧
    (∀ port, port ∈ (listSerialPorts fs).ports ↔
      ∃ name, Reached fs directory.names name ∧ portOf fs name = .ok (some port)) ∧
    ∀ line, line ∈ (listSerialPorts fs).errors ↔
      ∃ what, line = "Error enumerating serial ports: " ++ what ∧
        ((∃ name, Reached fs directory.names name ∧ portOf fs name = .error what) ∨
          directory.broken = some what ∧ ∀ name ∈ directory.names, ∃ r, portOf fs name = .ok r) := by
  unfold listSerialPorts
  rw [tryVisits there opened]
  refine ⟨OrderedSet.ascending _,fun port => ?_,fun line => ?_⟩
  · refine portFound.trans ⟨fun either => either.elim (fun member => ?_) id,.inr⟩
    exact absurd member List.not_mem_nil
  · dsimp only
    rw [Option.mem_toList,Option.map_eq_some_iff]
    simp only [portThrown]
    exact exists_congr fun what => by rw [and_comm,eq_comm]

def twoNames : FileSystem :=
  ⟨fun _ => .ok true,fun _ => .ok ⟨["console","ttyS0","ttyX","ttyS1"],none⟩,
    fun path => if path = "/dev/ttyX" then .error "denied" else .ok true,fun _ => .ok false,
    fun path => .ok (if path = "/dev/console" then "/dev/ttyS0" else path)⟩

theorem listedTwo : "/dev/ttyS0" ∈ (listSerialPorts twoNames).ports ∧
    "Error enumerating serial ports: denied" ∈ (listSerialPorts twoNames).errors := by
  obtain ⟨_,ports,errors⟩ := @listed twoNames ⟨["console","ttyS0","ttyX","ttyS1"],none⟩ rfl rfl
  have quiet : ∀ b ∈ ["console","ttyS0"], ∃ r, portOf twoNames b = .ok r :=
    List.forall_mem_cons.mpr ⟨⟨_,rfl⟩,List.forall_mem_singleton.mpr ⟨_,rfl⟩⟩
  exact ⟨(ports _).mpr ⟨"console",⟨[],_,rfl,fun b member => absurd member List.not_mem_nil⟩,rfl⟩,
    (errors _).mpr ⟨"denied",rfl,.inl ⟨"ttyX",⟨["console","ttyS0"],_,rfl,quiet⟩,rfl⟩⟩⟩

theorem reachedQuiet {fs : FileSystem} {names : List String}
    (quiet : ∀ name ∈ names, ∃ r, portOf fs name = .ok r) (name : String) :
    Reached fs names name ↔ name ∈ names := by
  constructor
  · rintro ⟨before,after,rfl,_⟩
    exact List.mem_append_right before List.mem_cons_self
  · intro member
    obtain ⟨before,after,rfl⟩ := List.append_of_mem member
    exact ⟨before,after,rfl,fun b earlier => quiet b (List.mem_append_left _ earlier)⟩

theorem quietVisit {fs : FileSystem} {names : List String} {found : OrderedSet String}
    {broken : Option String} (quiet : ∀ name ∈ names, ∃ r, portOf fs name = .ok r) :
    (visitAll fs found broken names).2 = broken := by
  induction names generalizing found with
  | nil => rfl
  | cons name names ih =>
    obtain ⟨⟨r,here⟩,others⟩ := List.forall_mem_cons.mp quiet
    unfold visitAll
    rw [here]
    cases r with
    | none => exact ih others
    | some port => exact ih others

def reading (fs : FileSystem) (directory : Directory) : FileSystem :=
  {fs with directory := fun _ => .ok directory}

theorem listedAnyOrder {fs : FileSystem} {directory : Directory} {others : List String}
    (there : fs.isDirectory folder = .ok true) (opened : fs.directory folder = .ok directory)
    (perm : directory.names.Perm others)
    (quiet : ∀ name ∈ directory.names, ∃ r, portOf fs name = .ok r) :
    listSerialPorts (reading fs ⟨others,directory.broken⟩) = listSerialPorts fs := by
  have also : ∀ name ∈ others, ∃ r, portOf (reading fs ⟨others,directory.broken⟩) name = .ok r :=
    fun name member => quiet name (perm.mem_iff.mpr member)
  have ports : (visitAll (reading fs ⟨others,directory.broken⟩) empty directory.broken others).1.items =
      (visitAll fs empty directory.broken directory.names).1.items := by
    refine sameItems _ _ fun port => ?_
    rw [portFound,portFound]
    simp only [reachedQuiet quiet,reachedQuiet also]
    exact or_congr_right (exists_congr fun name => and_congr_left' perm.mem_iff.symm)
  unfold listSerialPorts
  rw [tryVisits there opened,@tryVisits (reading fs ⟨others,directory.broken⟩) ⟨others,directory.broken⟩ there rfl]
  dsimp only
  rw [ports,quietVisit quiet,quietVisit also]

theorem listedAnyOrderTwo :
    listSerialPorts (reading twoNames ⟨["ttyS1","console","ttyS0"],none⟩) =
      listSerialPorts (reading twoNames ⟨["console","ttyS1","ttyS0"],none⟩) :=
  @listedAnyOrder (reading twoNames ⟨["console","ttyS1","ttyS0"],none⟩)
    ⟨["console","ttyS1","ttyS0"],none⟩ ["ttyS1","console","ttyS0"] rfl rfl (.swap _ _ _)
    (List.forall_mem_cons.mpr ⟨⟨_,rfl⟩,List.forall_mem_cons.mpr ⟨⟨_,rfl⟩,
      List.forall_mem_singleton.mpr ⟨_,rfl⟩⟩⟩)

end Chambermaid.SerialPorts
