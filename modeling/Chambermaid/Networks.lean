import Chambermaid.AddressPrint

/-! Networks, as the masks the code makes have them. Those of one prefix length never overlap;
of two lengths the longer one is not always the smaller one. -/
namespace Chambermaid.Networks
open Address AddressMask AddressPrint

-- ip::operator&
def ipAnd (d e : Ip) : Ip := ⟨List.zipWith (· &&& ·) d.data e.data,by simp [d.size,e.size]⟩

-- The loop of ip::operator==.
def sameLoop : Bytes → Bytes → Bool
  | x::xs,y::ys => if x ≠ y then false else sameLoop xs ys
  | _,_ => true

def ipEqual (d e : Ip) : Bool := sameLoop d.data e.data

theorem sameLoopExact {left right : Bytes} (size : left.length = right.length) :
    sameLoop left right = true ↔ left = right := by
  induction left generalizing right with
  | nil =>
    cases right with
    | nil => exact ⟨fun _ => rfl,fun _ => rfl⟩
    | cons y ys => contradiction
  | cons x xs ih =>
    cases right with
    | nil => contradiction
    | cons y ys =>
      unfold sameLoop
      by_cases same : x = y
      · rw [if_neg (not_not.mpr same),ih (Nat.succ.inj size),same]
        exact ⟨congrArg (y :: ·),fun all => (List.cons.inj all).2⟩
      · rw [if_pos same]
        exact ⟨fun no => absurd no Bool.false_ne_true,fun all => absurd (List.cons.inj all).1 same⟩

theorem ipEqualExact (d e : Ip) : ipEqual d e = true ↔ d = e := by
  unfold ipEqual
  rw [sameLoopExact (d.size.trans e.size.symm)]
  exact ⟨sameData,fun same => by rw [same]⟩

theorem andByte (d e : Ip) {i : Nat} (inside : i < 16) : byte (ipAnd d e) i = byte d i &&& byte e i := by
  have left : i < d.data.length := d.size.symm ▸ inside
  have right : i < e.data.length := e.size.symm ▸ inside
  unfold byte ipAnd
  simp [List.getD_eq_getElem?_getD,left,right]

theorem matchesBytes (m : Netmask) (x : Ip) : m.matches x = true ↔
    ∀ i < 16, byte m.mask i &&& byte m.ip i = byte m.mask i &&& byte x i := by
  unfold Netmask.matches
  rw [maskedEqualAt (m.mask.size.trans m.ip.size.symm) (m.mask.size.trans x.size.symm),m.mask.size]
  rfl

theorem matchesMasked (m : Netmask) (x : Ip) :
    m.matches x = ipEqual (ipAnd m.ip m.mask) (ipAnd x m.mask) := by
  rw [Bool.eq_iff_iff,matchesBytes,ipEqualExact]
  constructor
  · intro same
    refine ipExt fun i inside => ?_
    rw [andByte _ _ inside,andByte _ _ inside,UInt8.and_comm,same i inside,UInt8.and_comm]
  · intro same i inside
    have here := congrArg (byte · i) same
    rw [andByte _ _ inside,andByte _ _ inside] at here
    rw [UInt8.and_comm,here,UInt8.and_comm]

theorem maskTwice (n m : Ip) : ipAnd (ipAnd n m) m = ipAnd n m := by
  refine ipExt fun i inside => ?_
  rw [andByte _ _ inside,andByte _ _ inside,UInt8.and_assoc,UInt8.and_self]

theorem networksPartition (c : UInt8) (n m : Ip) :
    (netmask n c).matches n = true ∧
    (∀ x, (netmask n c).matches x = ipEqual (ipAnd n (ipFromCidr c)) (ipAnd x (ipFromCidr c))) ∧
    (∀ x, (netmask (ipAnd n (ipFromCidr c)) c).matches x = (netmask n c).matches x) ∧
    ((∀ x, (netmask n c).matches x = (netmask m c).matches x) ↔ (netmask n c).matches m = true) ∧
    ((netmask n c).matches m = false ↔
      ∀ x, ¬((netmask n c).matches x = true ∧ (netmask m c).matches x = true)) := by
  have masked (n x : Ip) :
      (netmask n c).matches x = true ↔ ipAnd n (ipFromCidr c) = ipAnd x (ipFromCidr c) := by
    rw [matchesMasked,ipEqualExact]
    rfl
  have own : (netmask m c).matches m = true := (masked m m).mpr rfl
  refine ⟨(masked n n).mpr rfl,matchesMasked (netmask n c),fun x => ?_,⟨fun all => (all m).trans own,fun same x => ?_⟩,?_⟩
  · rw [Bool.eq_iff_iff,masked,masked]
    exact Eq.congr_left (maskTwice n (ipFromCidr c))
  · rw [Bool.eq_iff_iff,masked,masked]
    exact Eq.congr_left ((masked n m).mp same)
  · constructor
    · rintro other x ⟨first,second⟩
      have same := ((masked n x).mp first).trans ((masked m x).mp second).symm
      exact absurd ((masked n m).mpr same) (Bool.eq_false_iff.mp other)
    · intro apart
      exact Bool.eq_false_iff.mpr fun same => apart m ⟨same,own⟩

theorem maskInside (k m : UInt8) : k &&& ~~~m = 0 ↔ k &&& m = k := by
  have whole : m ^^^ -1 = ~~~m := UInt8.xor_neg_one
  have all : k &&& -1 = k := UInt8.and_neg_one
  calc k &&& ~~~m = 0 ↔ k &&& (m ^^^ -1) = 0 := by rw [whole]
    _ ↔ k &&& m = k &&& -1 := (maskedSame k m (-1)).symm
    _ ↔ k &&& m = k := by rw [all]

theorem complementInside (a b : UInt8) : ~~~a &&& ~~~b = ~~~a ↔ b &&& a = b := by
  rw [← maskInside,← maskInside,UInt8.not_not,UInt8.and_comm]

def zeroIp : Ip := ⟨List.replicate 16 0,rfl⟩

def notIp (d : Ip) : Ip := ⟨d.data.map (~~~ ·),by simp [d.size]⟩

theorem zeroByte (i : Nat) : byte zeroIp i = 0 := by
  unfold byte zeroIp
  rw [List.getD_eq_getElem?_getD,List.getElem?_replicate]
  split <;> rfl

theorem notByte (d : Ip) {i : Nat} (inside : i < 16) : byte (notIp d) i = ~~~byte d i := by
  have room : i < d.data.length := d.size.symm ▸ inside
  unfold byte notIp
  simp [List.getD_eq_getElem?_getD,room]

theorem masksNest (k m : Ip) : (∀ n x, (Netmask.mk n m).matches x = true → (Netmask.mk n k).matches x = true) ↔
    ∀ i < 16, byte k i &&& byte m i = byte k i := by
  simp only [matchesBytes]
  constructor
  · intro nest i inside
    have here := nest zeroIp (notIp m) (fun i inside => by
      rw [zeroByte,notByte m inside,UInt8.and_not_self,UInt8.and_zero]) i inside
    rw [zeroByte,notByte m inside,UInt8.and_zero] at here
    exact (maskInside _ _).mp here.symm
  · intro bits n x same i inside
    rw [← bits i inside,UInt8.and_assoc,UInt8.and_assoc,same i inside]

theorem lastByteSome {r : Nat} (small : r ≤ 8) : ~~~UInt8.ofNat r ≠ 0 := by
  interval_cases r <;> decide

/-! Which of two networks with one address lies in the other: a longer prefix makes a smaller one
if it ends in a later byte, but inside a byte the two lengths are compared bit by bit. -/
theorem networksNest {c d : Nat} (left : c ≤ 128) (right : d ≤ 128) :
    (∀ n x, (netmask n (UInt8.ofNat d)).matches x = true → (netmask n (UInt8.ofNat c)).matches x = true) ↔
      wholeBytes c < wholeBytes d ∨ wholeBytes c = wholeBytes d ∧
        UInt8.ofNat (leftOver d) &&& UInt8.ofNat (leftOver c) = UInt8.ofNat (leftOver d) := by
  have inside : wholeBytes c < 16 := by unfold wholeBytes; omega
  have small : leftOver c ≤ 8 := by unfold leftOver wholeBytes; omega
  refine (masksNest _ _).trans ?_
  simp only [maskAt left,maskAt right]
  constructor
  · intro bits
    have last := bits (wholeBytes c) inside
    rw [if_neg (Nat.lt_irrefl _),if_pos rfl] at last
    rcases Nat.lt_trichotomy (wholeBytes c) (wholeBytes d) with before | same | after
    · exact .inl before
    · rw [same,if_neg (Nat.lt_irrefl _),if_pos rfl] at last
      exact .inr ⟨same,(complementInside _ _).mp last⟩
    · rw [if_neg (by omega),if_neg (by omega),UInt8.and_zero] at last
      exact absurd last.symm (lastByteSome small)
  · rintro (before | ⟨same,bits⟩) i room
    · by_cases front : i < wholeBytes d
      · rw [if_pos front,UInt8.and_comm,onesMask]
      · rw [if_neg (by omega : ¬i < wholeBytes c),if_neg (by omega : i ≠ wholeBytes c),UInt8.zero_and]
    · rw [same]
      split
      · exact UInt8.and_self
      · split
        · exact (complementInside _ _).mpr bits
        · exact UInt8.and_self

theorem networksNestBytes :
    (∀ n x, (netmask n (UInt8.ofNat 25)).matches x = true → (netmask n (UInt8.ofNat 24)).matches x = true) ∧
    ¬∀ n x, (netmask n (UInt8.ofNat 2)).matches x = true → (netmask n (UInt8.ofNat 1)).matches x = true :=
  ⟨(@networksNest 24 25 (by decide) (by decide)).mpr (.inl (by decide)),
    (@networksNest 1 2 (by decide) (by decide)).not.mpr (by decide)⟩

end Chambermaid.Networks
