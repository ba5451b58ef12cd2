import Chambermaid.CStdlib
import Chambermaid.Locations

/-! Firmware version codes: dotted text, 16-bit components, and the comparison
the daemon decides an upgrade with. The comparison loop has no exit for a greater
component, and what it returns after the loop is the wrong way round. -/
namespace Chambermaid.Version
open Digits CStdlib Locations

structure VersionCode where
  codes : List UInt16
  deriving DecidableEq, Repr

-- The components as written, before they are narrowed to 16 bits.
def components (s : Text) : List Int := (s.splitOn '.').map (fun c => atoi (cStr c))

def versionCode (s : Text) : VersionCode := ⟨(components s).map UInt16.ofInt⟩

def toText (v : VersionCode) : Text :=
  ['.'].intercalate (v.codes.map (fun code => printUnsigned code.toNat))

-- The loop of operator<, on what is left of the two vectors.
def lessLoop : List UInt16 → List UInt16 → Bool
  | l::codes,r::rhs => if l < r then true else lessLoop codes rhs
  | _,rhs => rhs.isEmpty

def less (v rhs : VersionCode) : Bool := lessLoop v.codes rhs.codes

def numbers (codes : List UInt16) : List Int := codes.map (fun code => (code.toNat : Int))

def InRange (s : Text) : Prop := ∀ n ∈ components s, 0 ≤ n ∧ n ≤ 65535
instance (s) : Decidable (InRange s) := by unfold InRange; infer_instance

def NoneLess (a b : List Int) : Prop := ∀ (i : Nat) (x y : Int), a[i]? = some x → b[i]? = some y → ¬ x < y

def ShorterNotLess (a b : List Int) : Prop := a.length < b.length ∧ NoneLess a b

def DifferenceDecides (a b : List Int) : Prop :=
  ∃ (same : List Int) (x y : Int) (as bs : List Int), a = same ++ x::as ∧ b = same ++ y::bs ∧
    (x < y ∨ (y < x ∧ as.length < bs.length ∧ NoneLess as bs))

theorem lessLoopFalse (a b : List UInt16) : lessLoop a b = false ↔
    a.length < b.length ∧ NoneLess (numbers a) (numbers b) := by
  induction a generalizing b with
  | nil => cases b <;> simp [lessLoop,numbers,NoneLess]
  | cons l codes ih =>
    cases b with
    | nil => simp [lessLoop]
    | cons r rhs =>
      unfold lessLoop
      split
      · rename_i smaller
        have below : (l.toNat : Int) < r.toNat := by
          have := UInt16.lt_iff_toNat_lt.mp smaller
          omega
        simp only [Bool.true_eq_false,false_iff,not_and]
        intro _ none
        exact none 0 l.toNat r.toNat rfl rfl below
      · rename_i notSmaller
        have above : ¬ (l.toNat : Int) < r.toNat := by
          have := mt UInt16.lt_iff_toNat_lt.mpr notSmaller
          omega
        rw [ih]
        constructor
        · rintro ⟨shorter,none⟩
          refine ⟨by simpa using shorter,?_⟩
          intro i x y hx hy
          cases i with
          | zero => cases hx; cases hy; exact above
          | succ i => exact none i x y hx hy
        · rintro ⟨shorter,none⟩
          exact ⟨by simpa using shorter,fun i x y hx hy => none (i+1) x y hx hy⟩

theorem differenceEqual (x : Int) (a b : List Int) :
    DifferenceDecides (x::a) (x::b) ↔ DifferenceDecides a b := by
  constructor
  · rintro ⟨same,u,v,as,bs,ha,hb,decided⟩
    cases same with
    | nil =>
      obtain ⟨rfl,rfl⟩ := List.cons.inj ha
      obtain ⟨rfl,rfl⟩ := List.cons.inj hb
      rcases decided with h | h <;> omega
    | cons w same =>
      exact ⟨same,u,v,as,bs,(List.cons.inj ha).2,(List.cons.inj hb).2,decided⟩
  · rintro ⟨same,u,v,as,bs,rfl,rfl,decided⟩
    exact ⟨x::same,u,v,as,bs,rfl,rfl,decided⟩

theorem differenceFirst {x y : Int} (differ : x ≠ y) (a b : List Int) :
    DifferenceDecides (x::a) (y::b) ↔ x < y ∨ (y < x ∧ a.length < b.length ∧ NoneLess a b) := by
  constructor
  · rintro ⟨same,u,v,as,bs,ha,hb,decided⟩
    cases same with
    | nil =>
      obtain ⟨rfl,rfl⟩ := List.cons.inj ha
      obtain ⟨rfl,rfl⟩ := List.cons.inj hb
      exact decided
    | cons w same => exact absurd ((List.cons.inj ha).1.trans (List.cons.inj hb).1.symm) differ
  · intro decided
    exact ⟨[],x,y,a,b,rfl,rfl,decided⟩

theorem lessLoopExact (a b : List UInt16) :
    (lessLoop a b = true ↔ numbers a < numbers b) ↔
    DifferenceDecides (numbers a) (numbers b) := by
  induction a generalizing b with
  | nil =>
    have undecided : ∀ b : List Int, ¬ DifferenceDecides [] b := by
      rintro b ⟨same,x,y,as,bs,empty,_⟩
      simp at empty
    cases b <;> simp [lessLoop,numbers,undecided]
  | cons l codes ih =>
    cases b with
    | nil =>
      have undecided : ∀ a : List Int, ¬ DifferenceDecides a [] := by
        rintro a ⟨same,x,y,as,bs,_,empty,_⟩
        simp at empty
      simp [lessLoop,numbers,undecided]
    | cons r rhs =>
      simp only [numbers,List.map_cons,List.cons_lt_cons_iff] at ih ⊢
      by_cases equal : l = r
      · subst equal
        have notSmaller : ¬ l < l := UInt16.lt_irrefl l
        simp only [lessLoop,if_neg notSmaller,Int.lt_irrefl,false_or,true_and,differenceEqual]
        exact ih rhs
      · have differ : (l.toNat : Int) ≠ r.toNat := by
          intro same
          exact equal (UInt16.toNat_inj.mp (by omega))
        rw [differenceFirst differ]
        by_cases smaller : l < r
        · have below : (l.toNat : Int) < r.toNat := by
            have := UInt16.lt_iff_toNat_lt.mp smaller
            omega
          simp [lessLoop,smaller,below]
        · have above : (r.toNat : Int) < l.toNat := by
            have := mt UInt16.lt_iff_toNat_lt.mpr smaller
            omega
          have exitFalse := lessLoopFalse codes rhs
          simp only [lessLoop,if_neg smaller,differ,false_and,or_false,above,true_and,
            show ¬ (l.toNat : Int) < r.toNat by omega,iff_false,false_or,List.length_map,
            Bool.not_eq_true]
          exact exitFalse

theorem codeNumbers {s : Text} (range : InRange s) : numbers (versionCode s).codes = components s := by
  have kept : ∀ n ∈ components s, ((UInt16.ofInt n).toNat : Int) = n := by
    intro n member
    have bounds := range n member
    rw [UInt16.ofInt,UInt16.toNat_ofNat']
    omega
  rw [numbers,versionCode,List.map_map]
  exact (List.map_congr_left kept).trans (List.map_id' _)

theorem codeLength (s : Text) : (versionCode s).codes.length = (components s).length :=
  List.length_map _

theorem lessExact {s t : Text} (left : InRange s) (right : InRange t) :
    less (versionCode s) (versionCode t) = true ↔
      ¬ ShorterNotLess (components s) (components t) := by
  have loop := lessLoopFalse (versionCode s).codes (versionCode t).codes
  rw [codeNumbers left,codeNumbers right,codeLength,codeLength] at loop
  rw [← Bool.not_eq_false]
  exact not_congr loop

theorem lessSelf {s : Text} (range : InRange s) : less (versionCode s) (versionCode s) = true :=
  (lessExact range range).mpr (fun shorter => Nat.lt_irrefl _ shorter.1)

/- Comparison is right exactly where the first difference decides. Every version is
less than itself; the other two laws rest on the one case in which the loop finds a
version not to be less. -/
theorem versionCompare {s t u : Text} (left : InRange s) (right : InRange t) (third : InRange u) :
    ((less (versionCode s) (versionCode t) = true ↔ components s < components t) ↔
      DifferenceDecides (components s) (components t)) ∧
    less (versionCode s) (versionCode s) = true ∧
    ((less (versionCode s) (versionCode t) = true → less (versionCode t) (versionCode s) = false) ↔
      ShorterNotLess (components s) (components t) ∨
      ShorterNotLess (components t) (components s)) ∧
    ((less (versionCode s) (versionCode t) = true → less (versionCode t) (versionCode u) = true →
      less (versionCode s) (versionCode u) = true) ↔
      ShorterNotLess (components s) (components t) ∨ ShorterNotLess (components t) (components u) ∨
      ¬ ShorterNotLess (components s) (components u)) := by
  have pair := lessLoopExact (versionCode s).codes (versionCode t).codes
  rw [codeNumbers left,codeNumbers right] at pair
  refine ⟨pair,lessSelf left,?_,?_⟩
  · rw [← Bool.not_eq_true,lessExact left right,lessExact right left,not_not]
    exact or_iff_not_imp_left.symm
  · rw [lessExact left right,lessExact right third,lessExact left third]
    rw [← or_iff_not_imp_left,← or_iff_not_imp_left]

def compatibleFwVersion : Text := ['0','.','2','.','4']
def older : Text := ['0','.','2','.','3']

theorem versionCompareSmaller :
    (less (versionCode older) (versionCode compatibleFwVersion) = true ↔
      components older < components compatibleFwVersion) ∧
    less (versionCode older) (versionCode older) = true ∧
    ¬ (less (versionCode older) (versionCode compatibleFwVersion) = true →
      less (versionCode compatibleFwVersion) (versionCode older) = false) := by
  obtain ⟨pair,self,asymmetric,_⟩ := versionCompare (s := older) (t := compatibleFwVersion)
    (u := older) (by decide) (by decide) (by decide)
  refine ⟨pair.mpr ⟨[0,2],3,4,[],[],by decide,by decide,.inl (by decide)⟩,self,?_⟩
  rw [asymmetric]
  rintro (⟨shorter,_⟩ | ⟨shorter,_⟩)
  · exact absurd shorter (by decide)
  · exact absurd shorter (by decide)

theorem versionCompareFails : (¬ ∀ s t, InRange s → InRange t →
      (less (versionCode s) (versionCode t) = true ↔ components s < components t)) ∧
    less (versionCode compatibleFwVersion) (versionCode compatibleFwVersion) = true := by
  refine ⟨?_,by decide⟩
  intro all
  have wrong := (all ['1','.','0','.','0'] compatibleFwVersion (by decide) (by decide)).mp (by decide)
  exact absurd wrong (by decide)

def Numeral (s : Text) : Prop :=
  s ≠ [] ∧ (∀ c ∈ s, isDigit 10 c = true) ∧ (s.head? = some '0' → s = ['0']) ∧ valueOf 10 s ≤ 65535
instance (s) : Decidable (Numeral s) :=
  have : Decidable (∀ c ∈ s, isDigit 10 c = true) := List.decidableBAll _ s
  inferInstanceAs (Decidable (_ ∧ _ ∧ _ ∧ _))

theorem numeralNoDot {s : Text} (numeral : Numeral s) : '.' ∉ s := fun member =>
  digitNe (numeral.2.1 '.' member) (by decide) rfl

theorem numeralWritten {s : Text} (numeral : Numeral s) : printUnsigned (valueOf 10 s) = s :=
  (writtenBack (by decide) (by decide) numeral.1 numeral.2.1 numeral.2.2.1).1

theorem numeralRead {s : Text} (numeral : Numeral s) : atoi (cStr s) = valueOf 10 s := by
  obtain ⟨nonempty,digits,_,small⟩ := numeral
  have read := atoiNumeral s [] nonempty digits (by simp) (by omega)
  rw [List.append_nil] at read
  rw [cStrClean fun c member => digitNonzero (digits c member),read]

theorem codeNumeral (code : UInt16) : Numeral (printUnsigned code.toNat) := by
  have small := code.toNat_lt
  refine ⟨Nat.toDigits_ne_nil,writtenDigits (by decide) (by decide) _,?_,?_⟩
  · exact writtenPlain (by decide) (by decide) _
  · rw [printUnsigned,writtenValue (by decide) (by decide)]
    omega

theorem joinedCodes {numerals : List Text} (nonempty : numerals ≠ [])
    (each : ∀ s ∈ numerals, Numeral s) : (versionCode (['.'].intercalate numerals)).codes =
      numerals.map (fun s => UInt16.ofNat (valueOf 10 s)) := by
  unfold versionCode components
  rw [List.splitOn_intercalate '.' (fun s member => numeralNoDot (each s member)) nonempty,
    List.map_map]
  refine List.map_congr_left fun s member => ?_
  have small := (each s member).2.2.2
  rw [Function.comp_apply,numeralRead (each s member),UInt16.ofInt]
  congr 1
  omega

theorem codesRead {codes : List UInt16} (nonempty : codes ≠ []) :
    (versionCode (toText ⟨codes⟩)).codes = codes := by
  have numerals : ∀ s ∈ codes.map (fun code => printUnsigned code.toNat), Numeral s := by
    intro s member
    obtain ⟨code,_,rfl⟩ := List.mem_map.mp member
    exact codeNumeral code
  rw [toText,joinedCodes (by simpa using nonempty) numerals,List.map_map]
  refine (List.map_congr_left fun code _ => ?_).trans (List.map_id codes)
  rw [Function.comp_apply,printUnsigned,writtenValue (by decide) (by decide)]
  exact UInt16.ofNat_toNat

theorem versionRoundTrip (s : Text) {numerals : List Text} (nonempty : numerals ≠ [])
    (each : ∀ n ∈ numerals, Numeral n) :
    (versionCode s).codes.length = s.count '.' + 1 ∧
    (versionCode (toText (versionCode s))).codes = (versionCode s).codes ∧
    toText (versionCode (['.'].intercalate numerals)) = ['.'].intercalate numerals := by
  have length : (versionCode s).codes.length = s.count '.' + 1 := by
    rw [codeLength,components,List.length_map,splitCount]
  refine ⟨length,codesRead ?_,?_⟩
  · exact List.ne_nil_of_length_eq_add_one length
  · rw [toText,joinedCodes nonempty each,List.map_map]
    congr 1
    refine (List.map_congr_left fun s member => ?_).trans (List.map_id numerals)
    have small := (each s member).2.2.2
    rw [Function.comp_apply,UInt16.toNat_ofNat_of_lt' (Nat.lt_succ_of_le small)]
    exact numeralWritten (each s member)

theorem versionRoundTripReleased :
    (versionCode ['0','.','x','.']).codes.length = ['0','.','x','.'].count '.' + 1 ∧
    (versionCode (toText (versionCode ['0','.','x','.']))).codes = (versionCode ['0','.','x','.']).codes ∧
    toText (versionCode (['.'].intercalate [['0'],['6','5','5','3','5']])) =
      ['.'].intercalate [['0'],['6','5','5','3','5']] :=
  versionRoundTrip ['0','.','x','.'] (List.cons_ne_nil _ _) (by decide)

end Chambermaid.Version
