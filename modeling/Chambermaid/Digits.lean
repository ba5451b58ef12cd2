import Mathlib.Data.List.Induction
import Mathlib.Algebra.Ring.Int.Defs
import Mathlib.Algebra.Ring.Nat

/-! Positional numerals as text, for any base up to sixteen. Either case of a
letter digit has the same value; the written form is `Nat.toDigits`, which is
lower case and has no leading zero. -/
namespace Chambermaid.Digits

abbrev Text := List Char

def digitOf (c : Char) : Option Nat :=
  if '0'.toNat ≤ c.toNat ∧ c.toNat ≤ '9'.toNat then some (c.toNat - '0'.toNat)
  else if 'a'.toNat ≤ c.toNat ∧ c.toNat ≤ 'f'.toNat then some (c.toNat - 'a'.toNat + 10)
  else if 'A'.toNat ≤ c.toNat ∧ c.toNat ≤ 'F'.toNat then some (c.toNat - 'A'.toNat + 10)
  else none

def isDigit (base : Nat) (c : Char) : Bool :=
  match digitOf c with
  | some value => value < base
  | none => false

def valueOf (base : Nat) (s : Text) : Nat :=
  s.foldl (fun value c => base * value + (digitOf c).getD 0) 0

def leading (base : Nat) (s : Text) : Text := s.takeWhile (isDigit base)

theorem digitOfWritten {n : Nat} (small : n < 16) : digitOf n.digitChar = some n := by
  have all : ∀ m < 16, digitOf m.digitChar = some m := by decide
  exact all n small

theorem writtenIsDigit {base n : Nat} (low : n < base) (high : base ≤ 16) :
    isDigit base n.digitChar = true := by
  simp [isDigit,digitOfWritten (Nat.lt_of_lt_of_le low high),low]

theorem valueAppend (base : Nat) (s : Text) (c : Char) :
    valueOf base (s ++ [c]) = base * valueOf base s + (digitOf c).getD 0 := by
  simp [valueOf,List.foldl_append]

theorem valueSingle (base : Nat) (c : Char) : valueOf base [c] = (digitOf c).getD 0 := by
  simp [valueOf]

theorem writtenDigits {base : Nat} (low : 1 < base) (high : base ≤ 16) (n : Nat) :
    ∀ c ∈ Nat.toDigits base n, isDigit base c = true := by
  induction n using Nat.strongRecOn with
  | _ n ih =>
    intro c member
    rw [Nat.toDigits_eq_if low] at member
    split at member
    · rename_i single
      cases List.mem_singleton.mp member
      exact writtenIsDigit single high
    · rename_i several
      rcases List.mem_append.mp member with front | last
      · exact ih (n / base) (Nat.div_lt_self (by omega) low) c front
      · cases List.mem_singleton.mp last
        exact writtenIsDigit (Nat.mod_lt _ (by omega)) high

theorem writtenValue {base : Nat} (low : 1 < base) (high : base ≤ 16) (n : Nat) :
    valueOf base (Nat.toDigits base n) = n := by
  induction n using Nat.strongRecOn with
  | _ n ih =>
    rw [Nat.toDigits_eq_if low]
    split
    · rename_i single
      rw [valueSingle,digitOfWritten (by omega)]
      rfl
    · rename_i several
      have last : n % base < base := Nat.mod_lt _ (by omega)
      rw [valueAppend,ih (n / base) (Nat.div_lt_self (by omega) low),digitOfWritten (by omega)]
      exact Nat.div_add_mod n base

theorem writtenPlain {base : Nat} (low : 1 < base) (high : base ≤ 16) (n : Nat)
    (zero : (Nat.toDigits base n).head? = some '0') : Nat.toDigits base n = ['0'] := by
  induction n using Nat.strongRecOn with
  | _ n ih =>
    rw [Nat.toDigits_eq_if low] at zero ⊢
    split at zero
    · rename_i single
      rw [if_pos single]
      exact congrArg (· :: []) (Option.some.inj zero)
    · rename_i several
      have front : (Nat.toDigits base (n / base)).head? = some '0' := by
        rwa [List.head?_append,List.head?_eq_some_head Nat.toDigits_ne_nil,Option.some_or,
          ← List.head?_eq_some_head Nat.toDigits_ne_nil] at zero
      have value := writtenValue low high (n / base)
      rw [ih (n / base) (Nat.div_lt_self (by omega) low) front] at value
      have empty : n / base = 0 := value.symm.trans (valueSingle base '0')
      rcases Nat.div_eq_zero_iff.mp empty with none | small
      · omega
      · contradiction

/-! Up to base ten no digit is a letter, so a numeral without a leading zero is the
written form of its value. -/
theorem digitWritten {base : Nat} (high : base ≤ 10) {c : Char} (digit : isDigit base c = true) :
    ∃ value < base, digitOf c = some value ∧ value.digitChar = c := by
  unfold isDigit at digit
  split at digit
  · rename_i value found
    have small : value < base := of_decide_eq_true digit
    refine ⟨value,small,found,?_⟩
    have written : ∀ m < 10, m.digitChar.toNat = m + 48 := by decide
    rw [← Char.toNat_inj,written value (by omega)]
    simp only [digitOf,Char.reduceToNat] at found
    split at found
    · cases found
      omega
    · split at found
      · cases found
        omega
      · split at found
        · cases found
          omega
        · contradiction
  · contradiction

theorem writtenBack {base : Nat} (low : 1 < base) (high : base ≤ 10) {s : Text} (nonempty : s ≠ [])
    (digits : ∀ c ∈ s, isDigit base c = true) (plain : s.head? = some '0' → s = ['0']) :
    Nat.toDigits base (valueOf base s) = s ∧ (s ≠ ['0'] → 0 < valueOf base s) := by
  induction s using List.reverseRecOn with
  | nil => contradiction
  | append_singleton s c ih =>
    obtain ⟨value,small,found,written⟩ := digitWritten high (digits c (by simp))
    rw [valueAppend,found,Option.getD_some]
    by_cases single : s = []
    · subst single
      have zero : valueOf base [] = 0 := rfl
      rw [zero,Nat.mul_zero,Nat.zero_add,Nat.toDigits_of_lt_base small,written]
      refine ⟨rfl,fun other => Nat.pos_of_ne_zero ?_⟩
      rintro rfl
      exact other (congrArg (· :: []) written.symm)
    · have nonzero : s ≠ ['0'] := by
        rintro rfl
        exact absurd (plain rfl) (by simp)
      have first : s.head? = some '0' → s = ['0'] := by
        intro zero
        have long := plain (by rw [List.head?_append,zero]; rfl)
        cases s with
        | nil => contradiction
        | cons x rest => simp at long
      obtain ⟨back,positive⟩ := ih single (fun x member => digits x (by simp [member])) first
      have front := positive nonzero
      have large : base ≤ base * valueOf base s := Nat.le_mul_of_pos_right base front
      rw [Nat.toDigits_eq_if low,if_neg (by omega),Nat.mul_add_div (by omega),
        Nat.div_eq_of_lt small,Nat.add_zero,back,Nat.mul_add_mod,Nat.mod_eq_of_lt small,written]
      exact ⟨rfl,fun _ => by omega⟩

theorem valueBound {base : Nat} (s : Text) (digits : ∀ c ∈ s, isDigit base c = true) :
    valueOf base s < base ^ s.length := by
  induction s using List.reverseRecOn with
  | nil => simp [valueOf]
  | append_singleton s c ih =>
    have front := ih (fun x member => digits x (by simp [member]))
    have last : (digitOf c).getD 0 < base := by
      have digit := digits c (by simp)
      unfold isDigit at digit
      cases found : digitOf c with
      | none => simp [found] at digit
      | some value => simpa [found] using digit
    rw [valueAppend,List.length_append,List.length_singleton,Nat.pow_succ]
    calc base * valueOf base s + (digitOf c).getD 0
        < base * valueOf base s + base := by omega
      _ = base * (valueOf base s + 1) := by rw [Nat.mul_succ]
      _ ≤ base * base ^ s.length := Nat.mul_le_mul_left _ front
      _ = base ^ s.length * base := Nat.mul_comm _ _

theorem leadingWhole {base : Nat} (s rest : Text) (digits : ∀ c ∈ s, isDigit base c = true)
    (stops : ∀ c, rest.head? = some c → isDigit base c = false) :
    leading base (s ++ rest) = s := by
  unfold leading
  rw [List.takeWhile_append_of_pos digits]
  cases rest with
  | nil => simp
  | cons c tail => simp [stops c rfl]

theorem leadingAll {base : Nat} (s : Text) (digits : ∀ c ∈ s, isDigit base c = true) :
    leading base s = s := by
  have whole := leadingWhole s [] digits (by simp)
  simpa using whole

end Chambermaid.Digits
