import Chambermaid.Json
import Mathlib.Algebra.Order.Ring.Rat
import Mathlib.Tactic.NormNum

/-! JSON objects built member by member, and text that is read back. The reader may give
a number in another representation, but of the same value; what conversions give for
null, text and numbers is the documented value. -/
namespace Chambermaid.Json

/-! Assignment: root[key] = value, on null or an object. -/
def setMember (lib : Library) (key : String) (value root : Value) : Value :=
  .object (lib.assign key value (membersOf root))

@[simp] theorem lookupSet (lib : Library) (key other : String) (value root : Value) :
    (membersOf (setMember lib key value root)).lookup other =
      if other = key then some value else (membersOf root).lookup other :=
  lib.assigned key value (membersOf root) other

@[simp] theorem lookupNull (key : String) : (membersOf .null).lookup key = none := rfl

def number : Value → Option Rat
  | .int n => some n.toInt
  | .uint n => some n.toNat
  | .real q => some q
  | _ => none

inductive Same : Value → Value → Prop where
  | null : Same .null .null
  | string (s : Bytes) : Same (.string s) (.string s)
  | number {v w : Value} {q : Rat} (written : number v = some q) (read : number w = some q) : Same v w

inductive SameMember : Option Value → Option Value → Prop where
  | absent : SameMember none none
  | present {v w : Value} (same : Same v w) : SameMember (some v) (some w)

def ReadsBack (lib : Library) (write : Value → Bytes) (root : Value) : Prop :=
  ∃ members, lib.parse (write root) = some (.object members) ∧
    ∀ key, SameMember ((membersOf root).lookup key) (members.lookup key)

structure Converts (lib : Library) : Prop where
  doubleNull : lib.asDouble .null = .ok 0
  double : ∀ {v q}, number v = some q → lib.asDouble v = .ok q
  stringNull : lib.asString .null = .ok []
  string : ∀ s, lib.asString (.string s) = .ok s
  bool : ∀ {v q}, number v = some q → lib.asBool v = .ok (decide (q ≠ 0))
  uint : ∀ {v} {n : UInt32}, number v = some (n.toNat : Rat) → lib.asUInt v = .ok n
  int64 : ∀ {v} {n : Int64}, number v = some (n.toInt : Rat) → lib.asInt64 v = .ok n
  int : ∀ {v} {n : Int32}, number v = some (n.toInt : Rat) → lib.asInt v = .ok n

theorem truncateInteger (n : Int) : truncate (n : Rat) = n := by
  simp [truncate]

theorem numberReal {v : Value} {q : Rat} (found : number v = some q) : toReal v = q := by
  cases v <;> cases found <;> rfl

theorem numberInteger {v : Value} {n : Int} (found : number v = some (n : Rat)) : toInteger v = n := by
  cases v with
  | int m => exact Int.cast_injective (Option.some.inj found)
  | uint m =>
    have same : ((m.toNat : Int) : Rat) = n := Option.some.inj found
    exact Int.cast_injective same
  | real q =>
    cases found
    exact truncateInteger n
  | _ => contradiction

theorem numberConvertible {v : Value} {q : Rat} (found : number v = some q) {c : Conversion}
    (free : ranges c = none) : convertible c v = true := by
  cases v <;> first | contradiction | simp [convertible,free]

theorem integerConvertible {v : Value} {n : Int} (found : number v = some (n : Rat)) {c : Conversion}
    {own real : Range} (bounds : ranges c = some (own,real)) (low : own.least ≤ n)
    (high : n ≤ own.greatest) (below : real.least ≤ own.least) (above : own.greatest ≤ real.greatest) :
    convertible c v = true := by
  have inside : inRange own (toInteger v) = true := by
    rw [numberInteger found]
    simp [inRange,low,high]
  cases v with
  | int m =>
    simp only [convertible,bounds,Option.all_some]
    exact inside
  | uint m =>
    simp only [convertible,bounds,Option.all_some]
    exact inside
  | real q =>
    cases found
    have least : real.least ≤ n := below.trans low
    have greatest : n ≤ real.greatest := high.trans above
    simp [convertible,bounds,inRangeReal,least,greatest]
  | _ => contradiction

theorem numberBool {v : Value} {q : Rat} (found : number v = some q) : toBool v = decide (q ≠ 0) := by
  cases v with
  | int n =>
    cases found
    have zero : n = 0 ↔ (n.toInt : Rat) = 0 := by
      rw [← Int64.toInt_inj]
      exact Int.cast_eq_zero.symm
    simp [toBool,zero]
  | uint n =>
    cases found
    have zero : n = 0 ↔ (n.toNat : Rat) = 0 := by
      rw [← UInt64.toNat_inj]
      exact Nat.cast_eq_zero.symm
    simp [toBool,zero]
  | real q =>
    cases found
    rfl
  | _ => contradiction

theorem convertingTo {α : Type} {c : Conversion} {v : Value} {a : α} (convert : Value → α)
    (converts : convertible c v = true) (result : convert v = a) : converting c convert v = .ok a := by
  rw [converting,if_pos converts,result]

theorem documentedConverts (parse : Bytes → Option Value) (realText : Rat → Bytes) :
    Converts (documented parse realText) where
  doubleNull := rfl
  double := fun found => convertingTo _ (numberConvertible found rfl) (numberReal found)
  stringNull := rfl
  string := fun _ => rfl
  bool := fun found => convertingTo _ (numberConvertible found rfl) (numberBool found)
  uint := fun {v n} found => by
    have small := n.toNat_lt
    have whole : number v = some ((n.toNat : Int) : Rat) := found
    have converts : convertible .asUInt v = true :=
      integerConvertible (c := .asUInt) whole rfl (by dsimp only; omega) (by dsimp only; omega)
        (by decide) (by decide)
    refine convertingTo (fun v => UInt32.ofInt (toInteger v)) converts ?_
    rw [numberInteger whole,UInt32.ofInt,← UInt32.toNat_inj,UInt32.toNat_ofNat']
    omega
  int64 := fun {v n} found => by
    have low := n.le_toInt
    have high := n.toInt_lt
    have converts : convertible .asInt64 v = true :=
      integerConvertible (c := .asInt64) found rfl low (by dsimp only; omega) (by decide) (by decide)
    refine convertingTo (fun v => Int64.ofInt (toInteger v)) converts ?_
    rw [numberInteger found]
    exact n.ofInt_toInt
  int := fun {v n} found => by
    have low := n.le_toInt
    have high := n.toInt_lt
    have converts : convertible .asInt v = true :=
      integerConvertible (c := .asInt) found rfl low (by dsimp only; omega) (by decide) (by decide)
    refine convertingTo (fun v => Int32.ofInt (toInteger v)) converts ?_
    rw [numberInteger found]
    exact n.ofInt_toInt

end Chambermaid.Json
