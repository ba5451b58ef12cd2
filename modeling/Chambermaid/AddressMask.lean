import Chambermaid.Address

/-! Prefix membership. The byte that holds the last prefix bits is complemented
(`~cidr`) where it should be shifted, so for every prefix length the last byte of
the mask is wrong. Membership is right exactly where that byte does not matter. -/
namespace Chambermaid.AddressMask
open Address

def prefixBit (d : Ip) (i : Nat) : Bool := (byte d (i / 8)).toNat.testBit (7 - i % 8)

def SamePrefix (c : Nat) (n x : Ip) : Prop := ∀ i < c, prefixBit n i = prefixBit x i
instance (c n x) : Decidable (SamePrefix c n x) := by unfold SamePrefix; infer_instance

def wholeBytes (c : Nat) : Nat := (c - 1) / 8
def leftOver (c : Nat) : Nat := c - 8 * wholeBytes c

theorem onesLoopWhole (k room r : Nat) (ret : Bytes) (small : 8 * k + r < 256)
    (positive : k = 0 ∨ 0 < r) :
    onesLoop (room + k) (UInt8.ofNat (8 * k + r)) ret =
      onesLoop room (UInt8.ofNat r) (ret ++ List.replicate k 0xFF) := by
  induction k generalizing ret with
  | zero => simp
  | succ k ih =>
    have value : (UInt8.ofNat (8 * (k+1) + r)).toNat = 8 * (k+1) + r := by
      rw [UInt8.toNat_ofNat']; omega
    have more : (8 : UInt8) < UInt8.ofNat (8 * (k+1) + r) := by
      rw [UInt8.lt_iff_toNat_lt,value]
      change 8 < _
      omega
    have less : UInt8.ofNat (8 * (k+1) + r) - 8 = UInt8.ofNat (8 * k + r) := by
      apply UInt8.toNat_inj.mp
      rw [UInt8.toNat_sub_of_le _ _ (UInt8.le_of_lt more),value,UInt8.toNat_ofNat']
      change 8 * (k+1) + r - 8 = _
      omega
    rw [← Nat.add_assoc,onesLoop,if_pos more,less,ih _ (by omega) (by omega)]
    simp [List.replicate_succ]

theorem onesLoopDone (room : Nat) {r : Nat} (ret : Bytes) (small : r ≤ 8) :
    onesLoop room (UInt8.ofNat r) ret = (UInt8.ofNat r,ret) := by
  cases room with
  | zero => rfl
  | succ room =>
    have stop : ¬ (8 : UInt8) < UInt8.ofNat r := by
      rw [UInt8.lt_iff_toNat_lt,UInt8.toNat_ofNat']
      change ¬ 8 < _
      omega
    rw [onesLoop,if_neg stop]

theorem maskShape {c : Nat} (range : c ≤ 128) :
    maskBytes (UInt8.ofNat c) = List.replicate (wholeBytes c) 0xFF ++
      ~~~UInt8.ofNat (leftOver c) :: List.replicate (15 - wholeBytes c) 0 := by
  have split : c = 8 * wholeBytes c + leftOver c := by unfold leftOver wholeBytes; omega
  have whole : wholeBytes c ≤ 15 := by unfold wholeBytes; omega
  have rest : leftOver c ≤ 8 := by unfold leftOver wholeBytes; omega
  have positive : wholeBytes c = 0 ∨ 0 < leftOver c := by unfold leftOver wholeBytes; omega
  have loop : onesLoop 16 (UInt8.ofNat c) [] =
      (UInt8.ofNat (leftOver c),List.replicate (wholeBytes c) 0xFF) := by
    have run := onesLoopWhole (wholeBytes c) (16 - wholeBytes c) (leftOver c) []
      (by omega) positive
    rw [Nat.sub_add_cancel (by omega),← split] at run
    rw [run,onesLoopDone _ _ rest,List.nil_append]
  unfold maskBytes
  rw [loop]
  simp only [List.length_replicate]
  rw [if_pos (by omega)]
  simp only [List.length_append,List.length_replicate,List.length_singleton,List.append_assoc,
    List.singleton_append]
  rw [show 16 - (wholeBytes c + 1) = 15 - wholeBytes c by omega]

theorem maskAt {c i : Nat} (range : c ≤ 128) :
    byte (ipFromCidr (UInt8.ofNat c)) i = if i < wholeBytes c then 0xFF
      else if i = wholeBytes c then ~~~UInt8.ofNat (leftOver c) else 0 := by
  unfold byte ipFromCidr
  simp only [maskShape range,List.getD_eq_getElem?_getD,List.getElem?_append,
    List.length_replicate,List.getElem?_replicate,List.getElem?_cons]
  split
  · rfl
  · rename_i past
    by_cases same : i = wholeBytes c
    · simp [same]
    · rw [if_neg (by omega),if_neg same]
      split <;> rfl

theorem maskedEqualAt {nm lhs rhs : Bytes} (left : nm.length = lhs.length)
    (right : nm.length = rhs.length) :
    maskedEqual nm lhs rhs = true ↔
      ∀ i < nm.length, nm.getD i 0 &&& lhs.getD i 0 = nm.getD i 0 &&& rhs.getD i 0 := by
  induction nm generalizing lhs rhs with
  | nil => simp [maskedEqual]
  | cons m nms ih =>
    obtain ⟨l,lhs,rfl⟩ := List.exists_of_length_succ lhs left.symm
    obtain ⟨r,rhs,rfl⟩ := List.exists_of_length_succ rhs right.symm
    have tail := @ih lhs rhs (by simpa using left) (by simpa using right)
    by_cases same : m &&& l = m &&& r
    · simp only [maskedEqual,ne_eq,same,not_true,if_false,tail,List.length_cons]
      constructor
      · intro all i inside
        cases i with
        | zero => simpa using same
        | succ i => simpa using all i (by omega)
      · intro all i inside
        simpa using all (i+1) (by omega)
    · simp only [maskedEqual,ne_eq,same,not_false_iff,if_true,Bool.false_eq_true,false_iff]
      intro all
      exact same (by simpa using all 0 (by simp))

theorem onesMask (b : UInt8) : 0xFF &&& b = b := by
  apply UInt8.toNat_inj.mp
  have low : b.toNat < 2^8 := b.toNat_lt
  simpa [Nat.and_comm] using (Nat.and_two_pow_sub_one_eq_mod b.toNat 8).trans (Nat.mod_eq_of_lt low)

theorem maskedSame (m a b : UInt8) : m &&& a = m &&& b ↔ m &&& (a ^^^ b) = 0 := by
  have distributes : m &&& (a ^^^ b) = (m &&& a) ^^^ (m &&& b) := by
    apply UInt8.toNat_inj.mp
    simp only [UInt8.toNat_and,UInt8.toNat_xor,Nat.and_xor_distrib_left]
  rw [distributes]
  exact UInt8.xor_eq_zero_iff.symm

theorem matchesExact {c : Nat} (range : c ≤ 128) (n x : Ip) :
    (netmask n (UInt8.ofNat c)).matches x = true ↔
      (∀ i < wholeBytes c, byte n i = byte x i) ∧
      ~~~UInt8.ofNat (leftOver c) &&& (byte n (wholeBytes c) ^^^ byte x (wholeBytes c)) = 0 := by
  have sizes : (ipFromCidr (UInt8.ofNat c)).data.length = 16 := (ipFromCidr _).size
  have whole : wholeBytes c < 16 := by unfold wholeBytes; omega
  unfold Netmask.matches netmask
  rw [maskedEqualAt (sizes.trans n.size.symm) (sizes.trans x.size.symm),sizes]
  change (∀ i < 16, byte (ipFromCidr (UInt8.ofNat c)) i &&& byte n i =
    byte (ipFromCidr (UInt8.ofNat c)) i &&& byte x i) ↔ _
  simp only [maskAt range]
  constructor
  · intro all
    refine ⟨?_,?_⟩
    · intro i inside
      have at_i := all i (by omega)
      simpa only [if_pos inside,onesMask] using at_i
    · have last := all (wholeBytes c) whole
      simpa [maskedSame] using last
  · rintro ⟨front,last⟩ i inside
    by_cases before : i < wholeBytes c
    · simp [before,onesMask,front i before]
    · by_cases same : i = wholeBytes c
      · subst same
        simpa [maskedSame] using last
      · simp [before,same]

theorem byteBits {a b : UInt8} (bits : ∀ j < 8, a.toNat.testBit (7 - j) = b.toNat.testBit (7 - j)) :
    a = b := by
  apply UInt8.toNat_inj.mp
  apply Nat.eq_of_testBit_eq
  intro i
  by_cases low : i < 8
  · simpa [show 7 - (7 - i) = i by omega] using bits (7 - i) (by omega)
  · have high : 2^8 ≤ 2^i := Nat.pow_le_pow_right (by omega) (by omega)
    rw [Nat.testBit_lt_two_pow (Nat.lt_of_lt_of_le a.toNat_lt high),
      Nat.testBit_lt_two_pow (Nat.lt_of_lt_of_le b.toNat_lt high)]

-- The leading r bits of two bytes agree exactly when their difference is below 2^(8-r).
theorem leadingBits {r : Nat} (small : r ≤ 8) (a b : UInt8) :
    (∀ j < r, a.toNat.testBit (7 - j) = b.toNat.testBit (7 - j)) ↔
      (a ^^^ b).toNat < 2^(8 - r) := by
  rw [UInt8.toNat_xor]
  constructor
  · intro bits
    apply Nat.lt_pow_two_of_testBit
    intro i high
    rw [Nat.testBit_xor]
    by_cases low : i < 8
    · have same := bits (7 - i) (by omega)
      rw [show 7 - (7 - i) = i by omega] at same
      simp [same]
    · have power : 2^8 ≤ 2^i := Nat.pow_le_pow_right (by omega) (by omega)
      rw [Nat.testBit_lt_two_pow (Nat.lt_of_lt_of_le a.toNat_lt power),
        Nat.testBit_lt_two_pow (Nat.lt_of_lt_of_le b.toNat_lt power)]
      rfl
  · intro bound j inside
    have clear : (a.toNat ^^^ b.toNat).testBit (7 - j) = false :=
      Nat.testBit_lt_two_pow (Nat.lt_of_lt_of_le bound (Nat.pow_le_pow_right (by omega) (by omega)))
    rw [Nat.testBit_xor] at clear
    simpa using clear

theorem samePrefixExact {c : Nat} (n x : Ip) :
    SamePrefix c n x ↔ (∀ i < wholeBytes c, byte n i = byte x i) ∧
      (byte n (wholeBytes c) ^^^ byte x (wholeBytes c)).toNat < 2^(8 - leftOver c) := by
  have split : c = 8 * wholeBytes c + leftOver c := by unfold leftOver wholeBytes; omega
  have rest : leftOver c ≤ 8 := by unfold leftOver wholeBytes; omega
  rw [← leadingBits rest]
  unfold SamePrefix prefixBit
  constructor
  · intro all
    refine ⟨?_,?_⟩
    · intro i inside
      apply byteBits
      intro j low
      have bit := all (8 * i + j) (by omega)
      rw [show (8 * i + j) / 8 = i by omega,show (8 * i + j) % 8 = j by omega] at bit
      exact bit
    · intro j inside
      by_cases low : j < 8
      · have bit := all (8 * wholeBytes c + j) (by omega)
        rw [show (8 * wholeBytes c + j) / 8 = wholeBytes c by omega,
          show (8 * wholeBytes c + j) % 8 = j by omega] at bit
        exact bit
      · omega
  · rintro ⟨front,last⟩ i inside
    by_cases before : i / 8 < wholeBytes c
    · rw [front (i / 8) before]
    · have same : i / 8 = wholeBytes c := by omega
      rw [same]
      exact last (i % 8) (by omega)

/- For each number of left-over bits, the differences of the last masked byte at
which the complemented mask and the wanted one come to the same answer. -/
def partialByteRight : Nat → Nat → Bool
  | 0,e => e == 0
  | 1,e => e ≤ 1 || 128 ≤ e
  | 2,e => e == 0 || e == 2 || 64 ≤ e
  | 3,e => e ≤ 3 || 32 ≤ e
  | 4,e => e == 0 || e == 4 || 16 ≤ e
  | 5,e => e ≤ 1 || e == 4 || e == 5 || 8 ≤ e
  | 6,e => e == 0 || e == 2 || e == 5 || 7 ≤ e
  | 7,e => e ≤ 1 || 8 ≤ e
  | _,e => e != 8

def MembershipRight (c : Nat) (n x : Ip) : Prop :=
  (∃ i < wholeBytes c, byte n i ≠ byte x i) ∨
    partialByteRight (leftOver c) (byte n (wholeBytes c) ^^^ byte x (wholeBytes c)).toNat = true
instance (c n x) : Decidable (MembershipRight c n x) := by unfold MembershipRight; infer_instance

theorem partialByte {r : Nat} (small : r ≤ 8) (e : UInt8) :
    (~~~UInt8.ofNat r &&& e = 0 ↔ e.toNat < 2^(8 - r)) ↔ partialByteRight r e.toNat = true := by
  have table : ∀ r ≤ 8, ∀ e < 256, (~~~UInt8.ofNat r &&& UInt8.ofNat e = 0 ↔ e < 2^(8 - r)) ↔
      partialByteRight r e = true := by decide +kernel
  have at_e := table r small e.toNat e.toNat_lt
  rwa [UInt8.ofNat_toNat] at at_e

theorem cidrMembership (c : Nat) (range : c ≤ 128) (n x : Ip) :
    ((netmask n (UInt8.ofNat c)).matches x = true ↔ SamePrefix c n x) ↔ MembershipRight c n x := by
  have rest : leftOver c ≤ 8 := by unfold leftOver wholeBytes; omega
  rw [matchesExact range,samePrefixExact,MembershipRight,← partialByte rest]
  by_cases front : ∀ i < wholeBytes c, byte n i = byte x i
  · have none : ¬ ∃ i < wholeBytes c, byte n i ≠ byte x i := by
      rintro ⟨i,inside,differ⟩
      exact differ (front i inside)
    simp only [none,false_or]
    exact ⟨fun right => ⟨fun zero => (right.mp ⟨front,zero⟩).2,fun low => (right.mpr ⟨front,low⟩).2⟩,
      fun right => and_congr_right fun _ => right⟩
  · have some : ∃ i < wholeBytes c, byte n i ≠ byte x i := by
      by_contra none
      exact front (fun i inside => by_contra fun differ => none ⟨i,inside,differ⟩)
    simp only [front,some,false_and,true_or]

-- ::fff7:0:0 passes the test against ::ffff:0:0/96 although bit 92 differs.
theorem cidrMembershipFails : ¬ ∀ (c : Nat) (n x : Ip), c ≤ 128 →
    ((netmask n (UInt8.ofNat c)).matches x = true ↔ SamePrefix c n x) := by
  intro all
  have wrong := (all 96 (mapped 0 0 0 0) ⟨[0,0,0,0,0,0,0,0,0,0,0xFF,0xF7,0,0,0,0],rfl⟩ (by omega)).mp
    (by decide)
  exact absurd (wrong 92 (by omega)) (by decide)

theorem cidrMembershipMapped : ((netmask (mapped 0 0 0 0) (UInt8.ofNat 96)).matches
    (mapped 10 0 0 1) = true ↔ SamePrefix 96 (mapped 0 0 0 0) (mapped 10 0 0 1)) ∧
    MembershipRight 96 (mapped 0 0 0 0) (mapped 10 0 0 1) :=
  ⟨(cidrMembership 96 (by omega) (mapped 0 0 0 0) (mapped 10 0 0 1)).mpr (by decide),by decide⟩

def wrongByte : Nat → UInt8
  | 1 | 5 | 7 => 2
  | 3 => 4
  | 8 => 8
  | _ => 1

theorem everyLengthErrs {c : Nat} (range : c ≤ 128) : ∃ n x, ¬ MembershipRight c n x := by
  have whole : wholeBytes c ≤ 15 := by unfold wholeBytes; omega
  have rest : leftOver c ≤ 8 := by unfold leftOver wholeBytes; omega
  have errs : ∀ r ≤ 8, partialByteRight r (wrongByte r).toNat = false := by decide
  refine ⟨⟨List.replicate 16 0,by simp⟩,⟨List.replicate (wholeBytes c) 0 ++
    wrongByte (leftOver c) :: List.replicate (15 - wholeBytes c) 0,by simp; omega⟩,?_⟩
  have zero : ∀ i, byte ⟨List.replicate 16 0,by simp⟩ i = 0 := by
    intro i
    simp only [byte,List.getD_eq_getElem?_getD,List.getElem?_replicate]
    split <;> rfl
  rintro (⟨i,inside,differ⟩ | right)
  · rw [zero] at differ
    apply differ
    simp only [byte,List.getD_eq_getElem?_getD]
    rw [List.getElem?_append_left (by simpa using inside),List.getElem?_replicate,if_pos inside]
    rfl
  · rw [zero] at right
    simp [byte,List.getD_eq_getElem?_getD,errs (leftOver c) rest] at right

end Chambermaid.AddressMask
