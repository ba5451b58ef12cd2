import Chambermaid.AddressPrint
import Chambermaid.Occurrence

/-! The hexadecimal text as others read it. `readRfc` is the usual reading of `::`,
written down without the parser's pieces; every spelling is read by it, and the
printed one is in lower case without leading zeros. Of several zero runs the scan
keeps the longest, except that a run up to the end replaces it unseen. -/
namespace Chambermaid.AddressCanonical
open Digits CStdlib Occurrence Address AddressParse AddressPrint

def readGroup (s : Text) : Option Nat :=
  if s ≠ [] ∧ s.length ≤ 4 ∧ s.all (isDigit 16) then some (valueOf 16 s) else none

def readGroups (s : Text) : Option (List Nat) :=
  if s = [] then some [] else (s.splitOn ':').mapM readGroup

def readRfc (text : Text) : Option (List Nat) :=
  match firstOccurrence [':',':'] text with
  | none => do
      let all ← readGroups text
      if all.length = 8 then some all else none
  | some i => do
      let front ← readGroups (text.take i)
      let back ← readGroups (text.drop (i+2))
      if front.length + back.length < 8 then
        some (front ++ List.replicate (8 - (front.length + back.length)) 0 ++ back)
      else none

theorem groupRead {g : Nat} {s : Text} (group : HexGroup g s) : readGroup s = some g := by
  obtain ⟨some,short,digits,rfl⟩ := group
  exact if_pos ⟨some,short,List.all_eq_true.mpr digits⟩

theorem groupsMapped {groups : List Nat} {spelled : List Text}
    (each : List.Forall₂ HexGroup groups spelled) : spelled.mapM readGroup = some groups := by
  induction each with
  | nil => rfl
  | cons head tail ih => simp [groupRead head,ih]

theorem groupNoColon {g : Nat} {s : Text} (group : HexGroup g s) : ':' ∉ s :=
  plainAbsent group.2.2.1 (by decide)

theorem groupsNoColon {groups : List Nat} {spelled : List Text}
    (each : List.Forall₂ HexGroup groups spelled) : ∀ p ∈ spelled, ':' ∉ p := fun p member =>
  eachRight (fun _ _ group => groupNoColon group) each p member

theorem joinedStart (p : Text) (rest : List Text) :
    ∃ behind, [':'].intercalate (p::rest) = p ++ behind := by
  by_cases last : rest = []
  · exact ⟨[],by simp [last]⟩
  · rw [List.intercalate_cons_of_ne_nil last,List.append_assoc]
    exact ⟨_,rfl⟩

theorem groupsRead {groups : List Nat} {spelled : List Text}
    (each : List.Forall₂ HexGroup groups spelled) :
    readGroups ([':'].intercalate spelled) = some groups := by
  cases each with
  | nil => rfl
  | @cons g p groups spelled head tail =>
    obtain ⟨behind,start⟩ := joinedStart p spelled
    have some : [':'].intercalate (p::spelled) ≠ [] := by
      rw [start]
      exact List.append_ne_nil_of_left_ne_nil head.1 _
    rw [readGroups,if_neg some,
      List.splitOn_intercalate ':' (groupsNoColon (.cons head tail)) (List.cons_ne_nil _ _)]
    exact groupsMapped (.cons head tail)

theorem occursPair {s : Text} {i : Nat} :
    OccursAt [':',':'] s i ↔ s[i]? = some ':' ∧ s[i+1]? = some ':' := by
  unfold OccursAt
  rw [← List.getElem?_drop (i := i) (j := 1),show s[i]? = (s.drop i)[0]? by simp]
  cases s.drop i with
  | nil => simp
  | cons a rest =>
    cases rest with
    | nil => simp [List.cons_prefix_cons]
    | cons b rest => simp [List.cons_prefix_cons,eq_comm]

theorem noPair {groups : List Nat} {spelled : List Text}
    (each : List.Forall₂ HexGroup groups spelled) (rest : Text) :
    ∀ j < ([':'].intercalate spelled).length,
      ¬ OccursAt [':',':'] ([':'].intercalate spelled ++ rest) j := by
  induction each with
  | nil => simp
  | @cons g p groups spelled head tail ih =>
    have inHead : ∀ {text : Text} {j}, j < p.length → ¬ OccursAt [':',':'] (p ++ text) j := by
      intro text j inside occurs
      have here := (occursPair.mp occurs).1
      rw [List.getElem?_append_left inside] at here
      exact groupNoColon head (List.mem_of_getElem? here)
    cases tail with
    | nil =>
      rw [List.intercalate_singleton]
      exact fun j inside => inHead inside
    | @cons h q groups spelled next later =>
      have joined : [':'].intercalate (p::q::spelled) =
          p ++ ':' :: [':'].intercalate (q::spelled) := by
        rw [List.intercalate_cons_of_ne_nil (by simp)]
        simp
      obtain ⟨behind,start⟩ := joinedStart q spelled
      obtain ⟨c,others,digits⟩ := List.exists_cons_of_ne_nil next.1
      intro j inside
      rw [joined,List.append_assoc,List.cons_append]
      rcases Nat.lt_trichotomy j p.length with low | middle | high
      · exact inHead low
      · -- the colon between two groups is followed by the first digit of the second
        intro occurs
        have after := (occursPair.mp occurs).2
        rw [List.getElem?_append_right (by omega),show j + 1 - p.length = 1 by omega,start,
          digits] at after
        have colon : c = ':' := by simpa using after
        exact groupNoColon next (by simp [digits,colon])
      · intro occurs
        rw [joined,List.length_append,List.length_cons] at inside
        apply ih (j - (p.length+1)) (by omega)
        unfold OccursAt at occurs ⊢
        rwa [show j = p.length + 1 + (j - (p.length+1)) by omega,← List.drop_drop,
          ← List.drop_drop,List.drop_left,List.drop_one,List.tail_cons] at occurs

theorem firstPair {groups : List Nat} {front : List Text}
    (each : List.Forall₂ HexGroup groups front) (rest : Text) :
    firstOccurrence [':',':'] ([':'].intercalate front ++ [':',':'] ++ rest) =
      some ([':'].intercalate front).length := by
  apply (firstOccurrenceExact _ _ _).mpr
  refine ⟨by simp,⟨rest,by simp⟩,?_⟩
  rw [List.append_assoc]
  exact noPair each _

theorem spellingRead {groups : List Nat} {text : Text} (spelling : HexText groups text) :
    readRfc text = some groups := by
  cases spelling with
  | @full groups spelled eight each =>
    have none : firstOccurrence [':',':'] ([':'].intercalate spelled) = none := by
      apply (firstOccurrenceNone _ _).mpr
      intro i inside occurs
      have here := (occursPair.mp occurs).1
      have low := (List.getElem?_eq_some_iff.mp here).1
      have absent := noPair each [] i low
      rw [List.append_nil] at absent
      exact absent occurs
    unfold readRfc
    rw [none]
    simp [groupsRead each,eight]
  | @compressed before after front back zeros block eight head tail =>
    unfold readRfc
    rw [firstPair head]
    have zeroCount : 8 - (before.length + after.length) = zeros := by omega
    have room : before.length + after.length < 8 := by omega
    simp [groupsRead head,groupsRead tail,zeroCount,room]

def LowerGroup (s : Text) : Prop := s ≠ [] ∧ s.length ≤ 4 ∧
  (∀ c ∈ s, c ∈ "0123456789abcdef".toList) ∧ (s.head? = some '0' → s = ['0'])

def WellFormed (text : Text) : Prop :=
  (∃ spelled : List Text, spelled.length = 8 ∧ (∀ s ∈ spelled, LowerGroup s) ∧
    text = [':'].intercalate spelled) ∨
  ∃ front back : List Text, front.length + back.length < 8 ∧
    (∀ s ∈ front ++ back, LowerGroup s) ∧
    text = [':'].intercalate front ++ [':',':'] ++ [':'].intercalate back

theorem writtenLower (n : Nat) : ∀ c ∈ printHex n, c ∈ "0123456789abcdef".toList := by
  have digit : ∀ m < 16, m.digitChar ∈ "0123456789abcdef".toList := by decide
  induction n using Nat.strongRecOn with
  | _ n ih =>
    intro c member
    rw [printHex,Nat.toDigits_eq_if (by omega)] at member
    split at member
    · rename_i single
      cases List.mem_singleton.mp member
      exact digit n single
    · rcases List.mem_append.mp member with front | last
      · exact ih (n / 16) (by omega) c front
      · cases List.mem_singleton.mp last
        exact digit _ (Nat.mod_lt _ (by omega))

theorem writtenZero {n : Nat} (zero : (printHex n).head? = some '0') : n = 0 := by
  have digit : ∀ m < 16, m.digitChar = '0' → m = 0 := by decide
  induction n using Nat.strongRecOn with
  | _ n ih =>
    rw [printHex,Nat.toDigits_eq_if (by omega)] at zero
    split at zero
    · rename_i single
      exact digit n single (Option.some.inj zero)
    · rename_i several
      rw [List.head?_append_of_ne_nil _ Nat.toDigits_ne_nil] at zero
      have front := ih (n / 16) (by omega) zero
      omega

theorem lowerPrinted (d : Ip) (i : Nat) : LowerGroup (printHex (group d i)) := by
  obtain ⟨some,short,_,_⟩ := printedGroup d i
  refine ⟨some,short,writtenLower _,?_⟩
  intro zero
  rw [writtenZero zero]
  rfl

theorem lowerGroups (d : Ip) (first count : Nat) :
    ∀ s ∈ printedGroups d first count, LowerGroup s := by
  intro s member
  obtain ⟨i,_,rfl⟩ := List.mem_map.mp member
  exact lowerPrinted d i

theorem segmentsWellFormed (d : Ip) : WellFormed ([':'].intercalate (segments d)) := by
  obtain ⟨a,b,run,order,inside,_⟩ := longestRunBlock d
  rw [segmentsText d run order inside]
  split
  · exact Or.inl ⟨_,printedGroupsLength d 0 8,lowerGroups d 0 8,rfl⟩
  · refine Or.inr ⟨_,_,?_,?_,rfl⟩
    · rw [printedGroupsLength,printedGroupsLength]
      omega
    · intro s member
      exact (List.mem_append.mp member).elim (lowerGroups d 0 a s) (lowerGroups d b (8 - b) s)

theorem joinedShort {pieces : List Text} (short : ∀ s ∈ pieces, s.length ≤ 4) :
    ([':'].intercalate pieces).length ≤ 5 * pieces.length - 1 := by
  induction pieces with
  | nil => simp
  | cons p rest ih =>
    have head : p.length ≤ 4 := short p (by simp)
    by_cases last : rest = []
    · simp [last]
      omega
    · have tail := ih (fun s member => short s (by simp [member]))
      have some := List.length_pos_iff.mpr last
      rw [List.intercalate_cons_of_ne_nil last]
      simp only [List.length_append,List.length_cons,List.length_nil]
      omega

theorem wellFormedShort {text : Text} (formed : WellFormed text) : text.length ≤ 39 := by
  rcases formed with ⟨spelled,eight,lower,rfl⟩ | ⟨front,back,room,lower,rfl⟩
  · have short := joinedShort fun s member => (lower s member).2.1
    omega
  · have left := joinedShort fun s member => (lower s (List.mem_append_left back member)).2.1
    have right := joinedShort fun s member => (lower s (List.mem_append_right front member)).2.1
    simp only [List.length_append,List.length_cons,List.length_nil]
    omega

theorem printedHexText {d : Ip} (other : ipv4Map.matches d = false) :
    toText d = [':'].intercalate (segments d) := if_neg (by simp [other])

theorem printedReading (d : Ip) (other : ipv4Map.matches d = false) :
    (toText d).length ≤ 39 ∧ WellFormed (toText d) ∧ readRfc (toText d) = some (groups d) := by
  rw [printedHexText other]
  have formed := segmentsWellFormed d
  exact ⟨wellFormedShort formed,formed,spellingRead (printedSpelling d)⟩

theorem printedReadingLoopback :
    (toText ⟨[0,0,0,0,0,0,0,0,0,0,0,0,0,0,0,1],rfl⟩).length ≤ 39 ∧
      WellFormed (toText ⟨[0,0,0,0,0,0,0,0,0,0,0,0,0,0,0,1],rfl⟩) ∧
      readRfc (toText ⟨[0,0,0,0,0,0,0,0,0,0,0,0,0,0,0,1],rfl⟩) = some [0,0,0,0,0,0,0,1] :=
  printedReading ⟨[0,0,0,0,0,0,0,0,0,0,0,0,0,0,0,1],rfl⟩ (by decide)

def ZeroGroup (d : Ip) (j : Nat) : Prop := byte d (2*j) = 0 ∧ byte d (2*j+1) = 0
instance (d j) : Decidable (ZeroGroup d j) := by unfold ZeroGroup; infer_instance

def Maximal (d : Ip) (a b : Nat) : Prop :=
  ZeroBlock d a b ∧ (a = 0 ∨ ¬ ZeroGroup d (a-1)) ∧ (b = 8 ∨ ¬ ZeroGroup d b)

def LongestWithin (d : Ip) (n a b : Nat) : Prop := ∀ x y, y ≤ n → ZeroBlock d x y → y - x ≤ b - a

def Best (d : Ip) (n : Nat) (r : Runs) : Prop :=
  ∃ a b, r.longestStart = 2*a ∧ r.longestEnd = 2*b ∧ a ≤ b ∧ b ≤ n ∧ (a < b → Maximal d a b) ∧
    LongestWithin d n a b

inductive Compared (d : Ip) (n : Nat) (r : Runs) : Prop where
  | idle (closed : r.currentStart = 16) (ended : n = 0 ∨ ¬ ZeroGroup d (n-1)) (best : Best d n r)
  | running (c : Nat) (opened : r.currentStart = 2*c) (before : c < n) (run : ZeroBlock d c n)
      (starts : c = 0 ∨ ¬ ZeroGroup d (c-1)) (best : Best d c r)

theorem blockPast {d : Ip} {n x y : Nat} (block : ZeroBlock d x y) (nonzero : ¬ ZeroGroup d n)
    (before : x ≤ n) : y ≤ n := by
  by_contra past
  exact nonzero (block n before (by omega))

theorem longestPast {d : Ip} {n a b : Nat} (nonzero : ¬ ZeroGroup d n)
    (longest : LongestWithin d n a b) : LongestWithin d (n+1) a b := by
  intro x y inside block
  by_cases before : x ≤ n
  · exact longest x y (blockPast block nonzero before) block
  · omega

/- A run that starts before the last one has ended before it. -/
theorem longestJoined {d : Ip} {n c a b : Nat} (starts : c = 0 ∨ ¬ ZeroGroup d (c-1))
    (longest : LongestWithin d c a b) (wide : n - c ≤ b - a) : LongestWithin d n a b := by
  intro x y inside block
  by_cases later : c ≤ x
  · omega
  · rcases starts with zero | nonzero
    · omega
    · have ended := blockPast block nonzero (by omega)
      exact longest x y (by omega) block

theorem scanGroupCompared {d : Ip} {n : Nat} {r : Runs} (room : n < 8) (compared : Compared d n r) :
    Compared d (n+1) (scanGroup d r (2*n)) := by
  cases compared with
  | idle closed ended best =>
    unfold scanGroup
    rw [if_neg (by omega)]
    split
    · rename_i zero
      refine .running n rfl (by omega) ?_ ended best
      exact zeroBlockExtend (fun j low high => by omega) zero
    · rename_i nonzero
      obtain ⟨a,b,start,stop,order,inside,maximal,longest⟩ := best
      exact .idle closed (Or.inr nonzero)
        ⟨a,b,start,stop,order,by omega,maximal,longestPast nonzero longest⟩
  | running c opened before run starts best =>
    unfold scanGroup
    rw [if_pos (by omega)]
    obtain ⟨a,b,start,stop,order,inside,maximal,longest⟩ := best
    split
    · rename_i finished
      have nonzero : ¬ ZeroGroup d n := fun zero => finished.elim (· zero.1) (· zero.2)
      split
      · rename_i longer
        have shorter : b - a < n - c := by omega
        refine .idle rfl (Or.inr nonzero) ⟨c,n,opened,rfl,by omega,by omega,?_,?_⟩
        · exact fun _ => ⟨run,starts,Or.inr nonzero⟩
        · apply longestPast nonzero
          refine longestJoined starts ?_ (Nat.le_refl _)
          intro x y before block
          have := longest x y before block
          omega
      · rename_i notLonger
        have wide : n - c ≤ b - a := by omega
        exact .idle rfl (Or.inr nonzero) ⟨a,b,start,stop,order,by omega,maximal,
          longestPast nonzero (longestJoined starts longest wide)⟩
    · rename_i going
      simp only [ne_eq,not_or,not_not] at going
      exact .running c opened (by omega) (zeroBlockExtend run going) starts
        ⟨a,b,start,stop,order,inside,maximal,longest⟩

theorem scanCompared (d : Ip) {n : Nat} (room : n ≤ 8) : Compared d n (scanRuns d n) := by
  induction n with
  | zero =>
    refine .idle rfl (Or.inl rfl) ⟨0,0,rfl,rfl,by omega,by omega,fun low => by omega,?_⟩
    intro x y inside block
    omega
  | succ n ih =>
    have step := scanGroupCompared (by omega) (ih (by omega))
    simpa [scanRuns,List.range'_concat,List.foldl_append] using step

/- A run up to the end is taken whatever came before; any other is a longest one. -/
theorem longestRunCases (d : Ip) :
    (∃ a b, longestRun d = (2*a,2*b) ∧ a ≤ b ∧ b ≤ 8 ∧ ¬ ZeroGroup d 7 ∧ (a < b → Maximal d a b) ∧
      LongestWithin d 8 a b) ∨
    ∃ c < 8, longestRun d = (2*c,2*8) ∧ Maximal d c 8 := by
  unfold longestRun
  dsimp only
  cases scanCompared d (Nat.le_refl 8) with
  | idle closed ended best =>
    obtain ⟨a,b,start,stop,order,inside,maximal,longest⟩ := best
    rw [if_neg (by omega),start,stop]
    exact Or.inl ⟨a,b,rfl,order,inside,ended.resolve_left (by omega),maximal,longest⟩
  | running c opened before run starts best =>
    rw [if_pos (by omega),opened]
    exact Or.inr ⟨c,before,rfl,run,starts,Or.inl rfl⟩

def Replaced (d : Ip) (a b : Nat) : Prop := a < b ∧ b ≤ 8 ∧
  toText d = [':'].intercalate (printedGroups d 0 a) ++ [':',':'] ++
    [':'].intercalate (printedGroups d b (8 - b))

def LongestReplaced (d : Ip) : Prop :=
  (∃ j < 8, ZeroGroup d j) → ∃ a b, Replaced d a b ∧ Maximal d a b ∧ LongestWithin d 8 a b

def TrailingLongest (d : Ip) : Prop :=
  ¬ ZeroGroup d 7 ∨ ∃ c < 8, ZeroBlock d c 8 ∧ LongestWithin d 8 c 8

theorem replacedUnique {d : Ip} {a b x y : Nat} (first : Replaced d a b) (second : Replaced d x y) :
    a = x ∧ b = y := by
  obtain ⟨order,inside,text⟩ := first
  obtain ⟨below,within,again⟩ := second
  have same := text.symm.trans again
  have left := firstPair (groupsPrinted d (List.range' (2*0) a 2))
    ([':'].intercalate (printedGroups d b (8 - b)))
  have right := firstPair (groupsPrinted d (List.range' (2*0) x 2))
    ([':'].intercalate (printedGroups d y (8 - y)))
  change firstOccurrence _ ([':'].intercalate (printedGroups d 0 a) ++ _ ++ _) = _ at left
  change firstOccurrence _ ([':'].intercalate (printedGroups d 0 x) ++ _ ++ _) = _ at right
  rw [same,right] at left
  have width := Option.some.inj left.symm
  rw [List.append_assoc,List.append_assoc] at same
  obtain ⟨fronts,backs⟩ := List.append_inj same width
  have tails := List.append_cancel_left backs
  have counts : ∀ {i j m n : Nat}, [':'].intercalate (printedGroups d i m) =
      [':'].intercalate (printedGroups d j n) → m = n := by
    intro i j m n joined
    have here := groupsRead (groupsPrinted d (List.range' (2*i) m 2))
    have there := groupsRead (groupsPrinted d (List.range' (2*j) n 2))
    change readGroups ([':'].intercalate (printedGroups d i m)) = _ at here
    change readGroups ([':'].intercalate (printedGroups d j n)) = _ at there
    rw [joined,there] at here
    have lengths := congrArg List.length (Option.some.inj here)
    simpa using lengths.symm
  have before := counts fronts
  have after := counts tails
  exact ⟨before,by omega⟩

theorem runReplaced {d : Ip} {a b : Nat} (other : ipv4Map.matches d = false)
    (run : longestRun d = (2*a,2*b)) (order : a < b) (inside : b ≤ 8) : Replaced d a b := by
  refine ⟨order,inside,?_⟩
  rw [printedHexText other,segmentsText d run (by omega) inside,if_neg (by omega)]

theorem endedReplaced {d : Ip} {a b : Nat} (other : ipv4Map.matches d = false)
    (run : longestRun d = (2*a,2*b)) (inside : b ≤ 8) (maximal : a < b → Maximal d a b)
    (longest : LongestWithin d 8 a b) : LongestReplaced d := by
  rintro ⟨j,small,zero⟩
  -- the zero group is itself a run, so the longest one is not empty
  have wide := longest j (j+1) (by omega) (fun i low high => by
    rw [show i = j by omega]
    exact zero)
  have some : a < b := by omega
  exact ⟨a,b,runReplaced other run some inside,maximal some,longest⟩

theorem trailingLongest {d : Ip} {c : Nat} (before : c < 8) (replaced : Replaced d c 8)
    (maximal : Maximal d c 8) (property : LongestReplaced d) : LongestWithin d 8 c 8 := by
  obtain ⟨a,b,shown,_,longest⟩ := property ⟨7,by omega,maximal.1 7 (by omega) (by omega)⟩
  obtain ⟨rfl,rfl⟩ := replacedUnique replaced shown
  exact longest

theorem trailingReplaced {d : Ip} {c : Nat} (before : c < 8) (replaced : Replaced d c 8)
    (maximal : Maximal d c 8) (trailing : TrailingLongest d) : LongestReplaced d := by
  intro _
  rcases trailing with none | ⟨x,low,block,longest⟩
  · exact absurd (maximal.1 7 (by omega) (by omega)) none
  · refine ⟨c,8,replaced,maximal,?_⟩
    intro u v bound run
    have shorter := longest u v bound run
    have start : c ≤ x := by
      by_contra earlier
      rcases maximal.2.1 with zero | nonzero
      · omega
      · exact nonzero (block (c-1) (by omega) (by omega))
    omega

theorem longestCompressed (d : Ip) (other : ipv4Map.matches d = false) :
    LongestReplaced d ↔ TrailingLongest d := by
  rcases longestRunCases d with ⟨a,b,run,order,inside,ended,maximal,longest⟩ | ⟨c,before,run,maximal⟩
  · exact ⟨fun _ => Or.inl ended,fun _ => endedReplaced other run inside maximal longest⟩
  · have replaced := runReplaced other run before (Nat.le_refl 8)
    exact ⟨fun property => Or.inr ⟨c,before,maximal.1,trailingLongest before replaced maximal property⟩,
      trailingReplaced before replaced maximal⟩

theorem longestCompressedLoopback :
    LongestReplaced ⟨[0,0,0,0,0,0,0,0,0,0,0,0,0,0,0,1],rfl⟩ ↔
      TrailingLongest ⟨[0,0,0,0,0,0,0,0,0,0,0,0,0,0,0,1],rfl⟩ :=
  longestCompressed ⟨[0,0,0,0,0,0,0,0,0,0,0,0,0,0,0,1],rfl⟩ (by decide)

-- 1:0:0:0:2:3:4:0 prints as 1:0:0:0:2:3:4:: although its first run is longer.
def shadowed : Ip := ⟨[0,1,0,0,0,0,0,0,0,2,0,3,0,4,0,0],rfl⟩

theorem longestCompressedFails : ¬ ∀ d, ipv4Map.matches d = false → LongestReplaced d := by
  intro all
  have block : ZeroBlock shadowed 1 4 := fun j low high => by interval_cases j <;> decide
  have maximal : Maximal shadowed 7 8 :=
    ⟨fun j low high => by interval_cases j; decide,Or.inr (by decide),Or.inl rfl⟩
  have replaced : Replaced shadowed 7 8 :=
    runReplaced (by decide) (by decide) (by decide) (Nat.le_refl 8)
  have wide := trailingLongest (by decide) replaced maximal (all shadowed (by decide)) 1 4 (by decide) block
  exact absurd wide (by decide)

end Chambermaid.AddressCanonical
