import Chambermaid.Digits
import Mathlib.Data.List.TakeWhile

/-! The C library calls the program reads and prints numbers with: `atoi`,
`sscanf` with `%x`, and the `%u` and `%x` conversions. Text is a C string
without its terminator. Out of range input follows glibc: `strtol` and
`strtoul` saturate at 64 bits and the result is then narrowed to 32. -/
namespace Chambermaid.CStdlib
open Digits

-- What a reader of c_str() sees: everything before the first NUL.
def cStr (s : Text) : Text := s.takeWhile (fun c => c.toNat != 0)

def isSpace (c : Char) : Bool := c.toNat == 32 || (9 ≤ c.toNat && c.toNat ≤ 13)

def splitSign : Text → Bool × Text
  | '-' :: rest => (true,rest)
  | '+' :: rest => (false,rest)
  | s => (false,s)

def strtol (s : Text) : Int :=
  let (negative,body) := splitSign (s.dropWhile isSpace)
  let value : Int := valueOf 10 (leading 10 body)
  if negative then max (-2^63) (-value) else min (2^63 - 1) value

def atoi (s : Text) : Int := (strtol s).bmod (2^32)

-- The digits %x reads. glibc leaves out the x of 0x and keeps its 0, so a lone 0x reads as 0.
def hexItem : Text → Text
  | '0' :: 'x' :: rest => '0' :: leading 16 rest
  | '0' :: 'X' :: rest => '0' :: leading 16 rest
  | s => leading 16 s

-- sscanf(s, "%x", &p): the value stored in p, or none when nothing is stored.
def sscanfHex (s : Text) : Option Nat :=
  let (negative,body) := splitSign (s.dropWhile isSpace)
  let item := hexItem body
  if item = [] then none else
    let value := valueOf 16 item
    let long := if 2^64 ≤ value then 2^64 - 1 else if negative then (2^64 - value) % 2^64 else value
    some (long % 2^32)

def printUnsigned (n : Nat) : Text := Nat.toDigits 10 n
def printHex (n : Nat) : Text := Nat.toDigits 16 n

theorem digitNe {base : Nat} {c other : Char} (digit : isDigit base c = true)
    (none : digitOf other = none) : c ≠ other := by
  rintro rfl
  simp [isDigit,none] at digit

theorem digitNonzero {base : Nat} {c : Char} (digit : isDigit base c = true) : c.toNat ≠ 0 := by
  intro zero
  have nul : digitOf c = none := by simp [digitOf,zero]
  exact digitNe digit nul rfl

theorem cStrClean {s : Text} (clean : ∀ c ∈ s, c.toNat ≠ 0) : cStr s = s := by
  apply List.takeWhile_eq_self_iff.mpr
  intro c member
  simpa using clean c member

theorem digitNotSpace {base : Nat} {c : Char} (digit : isDigit base c = true) :
    isSpace c = false := by
  unfold isDigit digitOf at digit
  have low : 48 ≤ c.toNat := by
    split at digit
    · rename_i value found
      split at found
      · rename_i range; exact range.1
      · split at found
        · rename_i range; exact Nat.le_trans (by decide) range.1
        · split at found
          · rename_i range; exact Nat.le_trans (by decide) range.1
          · contradiction
    · contradiction
  simp only [isSpace,Bool.or_eq_false_iff,Bool.and_eq_false_iff,beq_eq_false_iff_ne,
    decide_eq_false_iff_not]
  omega

theorem plainBody {base : Nat} {c : Char} (rest : Text) (digit : isDigit base c = true) :
    splitSign ((c :: rest).dropWhile isSpace) = (false,c :: rest) := by
  rw [List.dropWhile_cons_of_neg (by simp [digitNotSpace digit])]
  have minus : c ≠ '-' := digitNe digit (by decide)
  have plus : c ≠ '+' := digitNe digit (by decide)
  unfold splitSign
  split
  · rename_i same; exact absurd (List.cons.inj same).1 minus
  · rename_i same; exact absurd (List.cons.inj same).1 plus
  · rfl

theorem atoiNumeral (s rest : Text) (nonempty : s ≠ []) (digits : ∀ c ∈ s, isDigit 10 c = true)
    (stops : ∀ c, rest.head? = some c → isDigit 10 c = false) (small : valueOf 10 s < 2^31) :
    atoi (s ++ rest) = valueOf 10 s := by
  obtain ⟨c,tail,rfl⟩ := List.exists_cons_of_ne_nil nonempty
  have body := plainBody (tail ++ rest) (digits c (by simp))
  have whole := leadingWhole (c :: tail) rest digits stops
  simp only [List.cons_append] at whole ⊢
  unfold atoi strtol
  rw [body]
  simp only [whole,Bool.false_eq_true,if_false]
  rw [Int.min_eq_right (by omega)]
  exact Int.bmod_eq_of_le (by omega) (by omega)

theorem hexItemDigits {s : Text} (digits : ∀ c ∈ s, isDigit 16 c = true) : hexItem s = s := by
  have lower : ∀ c ∈ s, c ≠ 'x' := fun c member => digitNe (digits c member) (by decide)
  have upper : ∀ c ∈ s, c ≠ 'X' := fun c member => digitNe (digits c member) (by decide)
  unfold hexItem
  split
  · exact absurd rfl (lower 'x' (by simp))
  · exact absurd rfl (upper 'X' (by simp))
  · exact leadingAll s digits

theorem hexItemSome (s : Text) : hexItem s ≠ [] ↔ s.head?.any (isDigit 16) = true := by
  have zero : isDigit 16 '0' = true := by decide
  unfold hexItem
  split
  · simp [zero]
  · simp [zero]
  · cases s with
    | nil => simp [leading]
    | cons c rest => simp [leading,List.takeWhile_cons]

theorem sscanfHexSome (s : Text) : (sscanfHex s).isSome = true ↔
    (splitSign (s.dropWhile isSpace)).2.head?.any (isDigit 16) = true := by
  rw [← hexItemSome]
  unfold sscanfHex
  dsimp only
  split
  · rename_i empty; simp [empty]
  · rename_i digits; simp [digits]

theorem sscanfHexDigits {s : Text} (nonempty : s ≠ []) (short : s.length ≤ 4)
    (digits : ∀ c ∈ s, isDigit 16 c = true) : sscanfHex s = some (valueOf 16 s) := by
  have bound : valueOf 16 s < 16^4 :=
    Nat.lt_of_lt_of_le (valueBound s digits) (Nat.pow_le_pow_right (by decide) short)
  have item := hexItemDigits digits
  obtain ⟨c,tail,rfl⟩ := List.exists_cons_of_ne_nil nonempty
  unfold sscanfHex
  rw [plainBody tail (digits c (by simp))]
  simp only [item,reduceCtorEq,if_false,Bool.false_eq_true,Option.some.injEq]
  rw [if_neg (by omega)]
  exact Nat.mod_eq_of_lt (by omega)

theorem printedHexShort {n : Nat} (small : n < 65536) : (printHex n).length ≤ 4 :=
  (Nat.length_toDigits_le_iff (by decide) (by decide)).mpr (by omega)

theorem printedHexDigits (n : Nat) : ∀ c ∈ printHex n, isDigit 16 c = true :=
  writtenDigits (by decide) (by decide) n

theorem printedHexValue (n : Nat) : valueOf 16 (printHex n) = n :=
  writtenValue (by decide) (by decide) n

theorem printedOctetShort {n : Nat} (small : n < 256) : (printUnsigned n).length ≤ 3 :=
  (Nat.length_toDigits_le_iff (by decide) (by decide)).mpr (by omega)

end Chambermaid.CStdlib
