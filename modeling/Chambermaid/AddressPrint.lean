import Chambermaid.AddressMask
import Chambermaid.AddressQuad
import Mathlib.Tactic.IntervalCases

/-! Printed text and its way back. Outside the mapped-IPv4 test the printed text
is a hexadecimal spelling of the eight groups, so the parser reads it back. The
test itself also accepts `::fff7:0:0/96`, whose addresses print as a dotted quad
and are read back as `::ffff:0:0/96`. -/
namespace Chambermaid.AddressPrint
open Digits CStdlib Locations Address AddressMask AddressParse AddressQuad

theorem ipExt {d e : Ip} (same : ∀ i < 16, byte d i = byte e i) : d = e := by
  obtain ⟨left,leftSize⟩ := d
  obtain ⟨right,rightSize⟩ := e
  congr 1
  apply List.ext_getElem (leftSize.trans rightSize.symm)
  intro i inside other
  have at_i := same i (by omega)
  simpa [byte,List.getD_eq_getElem?_getD,inside,other] using at_i

def groups (d : Ip) : List Nat := (List.range' 0 8 2).map (group d)

theorem groupValue (d : Ip) (i : Nat) :
    group d i = (byte d i).toNat * 256 + (byte d (i+1)).toNat := by
  have low : (byte d (i+1)).toNat < 2^8 := (byte d (i+1)).toNat_lt
  rw [group,← Nat.shiftLeft_add_eq_or_of_lt low,Nat.shiftLeft_eq]

theorem groupSmall (d : Ip) (i : Nat) : group d i < 65536 := by
  have high := (byte d i).toNat_lt
  have low := (byte d (i+1)).toNat_lt
  rw [groupValue]
  omega

theorem groupZero {d : Ip} {i : Nat} (zero : byte d i = 0 ∧ byte d (i+1) = 0) : group d i = 0 := by
  rw [groupValue,zero.1,zero.2]
  rfl

theorem pairsRestored (n : Nat) {data : Bytes} (size : data.length = 2 * n) :
    (List.range' 0 n 2).flatMap (fun i => [data.getD i 0,data.getD (i+1) 0]) = data := by
  induction n generalizing data with
  | zero => simpa using (List.eq_nil_of_length_eq_zero size).symm
  | succ n ih =>
    obtain ⟨a,tail,rfl⟩ := List.exists_cons_of_length_pos (by omega : 0 < data.length)
    obtain ⟨b,rest,rfl⟩ := List.exists_cons_of_length_pos (by simp at size; omega : 0 < tail.length)
    have shifted : List.range' 2 n 2 = (List.range' 0 n 2).map (2 + ·) := by
      rw [List.map_add_range']
    have restored := @ih rest (by simp at size; omega)
    rw [List.range'_succ,List.flatMap_cons,shifted,List.flatMap_map]
    simpa [Nat.add_comm 2] using restored

theorem groupsRestore (d : Ip) : bigEndian (groups d) = d.data := by
  have pairs : ∀ i, [UInt8.ofNat (group d i / 256),UInt8.ofNat (group d i % 256)] =
      [byte d i,byte d (i+1)] := by
    intro i
    have low := (byte d (i+1)).toNat_lt
    rw [groupValue,show ((byte d i).toNat * 256 + (byte d (i+1)).toNat) / 256 = (byte d i).toNat by omega,
      show ((byte d i).toNat * 256 + (byte d (i+1)).toNat) % 256 = (byte d (i+1)).toNat by omega,
      UInt8.ofNat_toNat,UInt8.ofNat_toNat]
  rw [bigEndian,groups,List.flatMap_map]
  simp only [pairs]
  exact pairsRestored 8 d.size

theorem printedGroup (d : Ip) (i : Nat) : HexGroup (group d i) (printHex (group d i)) :=
  ⟨Nat.toDigits_ne_nil,printedHexShort (groupSmall d i),printedHexDigits _,printedHexValue _⟩

theorem groupsPrinted (d : Ip) (positions : List Nat) :
    List.Forall₂ HexGroup (positions.map (group d)) (positions.map (fun i => printHex (group d i))) := by
  induction positions with
  | nil => exact .nil
  | cons i rest ih => exact .cons (printedGroup d i) ih

/-! The zero-run scan. After `n` groups both runs it remembers lie within them and
hold zero groups only. -/
def ZeroBlock (d : Ip) (a b : Nat) : Prop :=
  ∀ j, a ≤ j → j < b → byte d (2*j) = 0 ∧ byte d (2*j+1) = 0

structure RunsWithin (d : Ip) (n : Nat) (r : Runs) : Prop where
  longest : ∃ a b, r.longestStart = 2*a ∧ r.longestEnd = 2*b ∧ a ≤ b ∧ b ≤ n ∧ ZeroBlock d a b
  current : r.currentStart = 16 ∨ ∃ a, r.currentStart = 2*a ∧ a < n ∧ ZeroBlock d a n

theorem zeroBlockExtend {d : Ip} {a n : Nat} (block : ZeroBlock d a n)
    (zero : byte d (2*n) = 0 ∧ byte d (2*n+1) = 0) : ZeroBlock d a (n+1) := by
  intro j low high
  by_cases last : j = n
  · subst last; exact zero
  · exact block j low (by omega)

theorem scanGroupWithin {d : Ip} {n : Nat} {r : Runs} (room : n < 8) (within : RunsWithin d n r) :
    RunsWithin d (n+1) (scanGroup d r (2*n)) := by
  obtain ⟨⟨a,b,start,stop,order,inside,block⟩,current⟩ := within
  have kept : ∃ a b, r.longestStart = 2*a ∧ r.longestEnd = 2*b ∧ a ≤ b ∧ b ≤ n+1 ∧ ZeroBlock d a b :=
    ⟨a,b,start,stop,order,by omega,block⟩
  unfold scanGroup
  split
  · rename_i running
    rcases current with none | ⟨c,at_c,before,run⟩
    · omega
    · split
      · split
        · exact ⟨⟨c,n,at_c,rfl,by omega,by omega,run⟩,Or.inl rfl⟩
        · exact ⟨kept,Or.inl rfl⟩
      · rename_i zero
        simp only [ne_eq,not_or,not_not] at zero
        exact ⟨kept,Or.inr ⟨c,at_c,by omega,zeroBlockExtend run zero⟩⟩
  · rename_i idle
    split
    · rename_i zero
      exact ⟨kept,Or.inr ⟨n,rfl,by omega,zeroBlockExtend (fun j low high => by omega) zero⟩⟩
    · refine ⟨kept,?_⟩
      rcases current with none | ⟨c,at_c,before,run⟩
      · exact Or.inl none
      · omega

theorem scanWithin (d : Ip) {n : Nat} (room : n ≤ 8) : RunsWithin d n (scanRuns d n) := by
  induction n with
  | zero =>
    exact ⟨⟨0,0,rfl,rfl,by omega,by omega,fun j low high => by omega⟩,Or.inl rfl⟩
  | succ n ih =>
    have step := scanGroupWithin (by omega) (ih (by omega))
    simpa [scanRuns,List.range'_concat,List.foldl_append] using step

theorem longestRunBlock (d : Ip) : ∃ a b, longestRun d = (2*a,2*b) ∧ a ≤ b ∧ b ≤ 8 ∧ ZeroBlock d a b := by
  obtain ⟨⟨a,b,start,stop,order,inside,block⟩,current⟩ := scanWithin d (Nat.le_refl 8)
  unfold longestRun
  dsimp only
  split
  · rcases current with none | ⟨c,at_c,before,run⟩
    · omega
    · exact ⟨c,8,by rw [at_c],by omega,by omega,run⟩
  · exact ⟨a,b,by rw [start,stop],order,inside,block⟩

def printedGroups (d : Ip) (first count : Nat) : List Text :=
  (List.range' (2*first) count 2).map (fun i => printHex (group d i))

theorem groupTextsSpan (d : Ip) {a b : Nat} (order : a ≤ b) :
    groupTexts d (2*a) (2*b) = printedGroups d a (b - a) := by
  rw [groupTexts,printedGroups,show (2*b - 2*a + 1) / 2 = b - a by omega]

theorem printedGroupsLength (d : Ip) (first count : Nat) :
    (printedGroups d first count).length = count := by simp [printedGroups]

theorem groupsSplit (d : Ip) {a b : Nat} (order : a ≤ b) (inside : b ≤ 8) (block : ZeroBlock d a b) :
    groups d = (List.range' 0 a 2).map (group d) ++ List.replicate (b - a) 0 ++
      (List.range' (2*b) (8 - b) 2).map (group d) := by
  have middle : (List.range' (2*a) (b - a) 2).map (group d) = List.replicate (b - a) 0 := by
    apply List.eq_replicate_iff.mpr
    refine ⟨by simp,?_⟩
    intro g member
    obtain ⟨i,hi,rfl⟩ := List.mem_map.mp member
    obtain ⟨j,small,rfl⟩ := List.mem_range'.mp hi
    have zero := block (a + j) (by omega) (by omega)
    rw [show 2*a + 2*j = 2*(a + j) by omega]
    exact groupZero zero
  have positions : List.range' 0 8 2 =
      List.range' 0 a 2 ++ List.range' (2*a) (b - a) 2 ++ List.range' (2*b) (8 - b) 2 := by
    have front : List.range' 0 a 2 ++ List.range' (2*a) (b - a) 2 = List.range' 0 b 2 := by
      have joined := @List.range'_append 0 a (b - a) 2
      rwa [Nat.zero_add,show a + (b - a) = b by omega] at joined
    have whole := @List.range'_append 0 b (8 - b) 2
    rw [Nat.zero_add,show b + (8 - b) = 8 by omega] at whole
    rw [front,whole]
  rw [groups,positions,List.map_append,List.map_append,middle]

theorem gapSegments (front back : List Text) {a b : Nat} (left : front.length = a)
    (right : back.length = 8 - b) (inside : b ≤ 8) :
    front ++ ([[]] ++ (if 2*a = 0 then [[]] else []) ++ (if 2*b = 16 then [[]] else [])) ++ back =
      edge [] front ++ [] :: edge [] back := by
  have frontEmpty : 2*a = 0 ↔ front = [] := by
    rw [← List.length_eq_zero_iff]; omega
  have backEmpty : 2*b = 16 ↔ back = [] := by
    rw [← List.length_eq_zero_iff]; omega
  simp only [frontEmpty,backEmpty,edge]
  by_cases noFront : front = []
  · by_cases noBack : back = [] <;> simp [noFront,noBack]
  · by_cases noBack : back = [] <;> simp [noFront,noBack]

theorem segmentsText (d : Ip) {a b : Nat} (run : longestRun d = (2*a,2*b)) (order : a ≤ b)
    (inside : b ≤ 8) : [':'].intercalate (segments d) =
      if a = b then [':'].intercalate (printedGroups d 0 8)
      else [':'].intercalate (printedGroups d 0 a) ++ [':',':'] ++
        [':'].intercalate (printedGroups d b (8 - b)) := by
  have front := groupTextsSpan d (Nat.zero_le a)
  have back := groupTextsSpan d inside
  simp only [Nat.mul_zero,Nat.sub_zero] at front
  unfold segments
  rw [run]
  dsimp only
  by_cases empty : a = b
  · subst empty
    have whole := @List.range'_append 0 a (8 - a) 2
    rw [Nat.zero_add,show a + (8 - a) = 8 by omega] at whole
    rw [if_neg (by simp),if_pos rfl,List.append_nil,front,back,printedGroups,printedGroups,
      ← List.map_append,Nat.mul_zero,whole,printedGroups]
  · rw [if_pos (by omega),if_neg empty,gapSegments _ _ (by rw [front,printedGroupsLength])
      (by rw [back,printedGroupsLength]) inside,gapText,front,back]

theorem printedSpelling (d : Ip) : HexText (groups d) ([':'].intercalate (segments d)) := by
  obtain ⟨a,b,run,order,inside,block⟩ := longestRunBlock d
  rw [segmentsText d run order inside]
  split
  · exact .full (by simp [groups]) (groupsPrinted d _)
  · rw [groupsSplit d order inside block]
    exact .compressed (by omega) (by simp; omega) (groupsPrinted d _) (groupsPrinted d _)

theorem hexRoundTrip (d : Ip) : fromText ([':'].intercalate (segments d)) = .value d := by
  have parsed := spellingParsed (printedSpelling d)
  rw [groupsRestore] at parsed
  obtain ⟨_,read⟩ := parsed
  exact read

theorem octetPrinted (a : UInt8) : DecimalOctet a (printUnsigned a.toNat) :=
  ⟨Nat.toDigits_ne_nil,printedOctetShort a.toNat_lt,writtenDigits (by omega) (by omega) _,
    writtenValue (by omega) (by omega) _⟩

theorem quadPrintedDotted (a b c e : UInt8) : DottedQuad [a,b,c,e] (quadText a b c e) := by
  refine ⟨rfl,[printUnsigned a.toNat,printUnsigned b.toNat,printUnsigned c.toNat,
    printUnsigned e.toNat],?_,?_⟩
  · exact .cons (octetPrinted a) (.cons (octetPrinted b) (.cons (octetPrinted c)
      (.cons (octetPrinted e) .nil)))
  · simp [quadText,List.intercalate_cons_of_ne_nil]

theorem quadRead (a b c e : UInt8) : fromText (quadText a b c e) = .value (mapped a b c e) :=
  quadAlone (quadPrintedDotted a b c e)

def QuadBlock (d : Ip) : Prop :=
  (∀ i < 10, byte d i = 0) ∧ byte d 10 = 0xFF ∧ (byte d 11 = 0xFF ∨ byte d 11 = 0xF7)
instance (d) : Decidable (QuadBlock d) := by unfold QuadBlock; infer_instance

theorem mappedTest (d : Ip) : ipv4Map.matches d = true ↔ QuadBlock d := by
  have last : ∀ x : UInt8, ~~~UInt8.ofNat 8 &&& (0xFF ^^^ x) = 0 ↔ x = 0xFF ∨ x = 0xF7 := by
    intro x
    have table : ∀ n < 256, ~~~UInt8.ofNat 8 &&& (0xFF ^^^ UInt8.ofNat n) = 0 ↔
        UInt8.ofNat n = 0xFF ∨ UInt8.ofNat n = 0xF7 := by decide +kernel
    have at_x := table x.toNat x.toNat_lt
    rwa [UInt8.ofNat_toNat] at at_x
  have front : ∀ i < 10, byte (mapped 0 0 0 0) i = 0 := by decide
  change (netmask (mapped 0 0 0 0) (UInt8.ofNat 96)).matches d = true ↔ _
  rw [matchesExact (by omega)]
  change (∀ i < 11, byte (mapped 0 0 0 0) i = byte d i) ∧
    ~~~UInt8.ofNat 8 &&& (0xFF ^^^ byte d 11) = 0 ↔ _
  rw [last]
  constructor
  · rintro ⟨same,eleven⟩
    exact ⟨fun i inside => (same i (by omega)).symm.trans (front i inside),(same 10 (by omega)).symm,
      eleven⟩
  · rintro ⟨zero,ten,eleven⟩
    refine ⟨?_,eleven⟩
    intro i inside
    by_cases before : i < 10
    · rw [front i before,zero i before]
    · rw [show i = 10 by omega,ten]
      rfl

def low (d : Ip) : Ip := mapped (byte d 12) (byte d 13) (byte d 14) (byte d 15)

theorem quadPrinted {d : Ip} (block : QuadBlock d) :
    toText d = quadText (byte d 12) (byte d 13) (byte d 14) (byte d 15) :=
  if_pos ((mappedTest d).mpr block)

theorem hexPrinted {d : Ip} (other : ¬ QuadBlock d) : toText d = [':'].intercalate (segments d) :=
  if_neg (fun accepted => other ((mappedTest d).mp accepted))

theorem quadBlockRead {d : Ip} (block : QuadBlock d) : fromText (toText d) = .value (low d) := by
  rw [quadPrinted block]
  exact quadRead _ _ _ _

theorem lowBytes (d : Ip) {i : Nat} (inside : i < 16) : byte (low d) i =
    if i < 10 then 0 else if i < 12 then 0xFF else byte d i := by
  interval_cases i <;> rfl

theorem lowSame {d : Ip} (block : QuadBlock d) : low d = d ↔ byte d 11 = 0xFF := by
  constructor
  · intro same
    rw [← same]
    rfl
  · intro eleven
    apply ipExt
    intro i inside
    rw [lowBytes d inside]
    split
    · rename_i front; exact (block.1 i front).symm
    · split
      · rename_i before
        by_cases ten : i = 10
        · rw [ten,block.2.1]
        · rw [show i = 11 by omega,eleven]
      · rfl

/-! The round trip. `Misread` is the block the mapped test takes in by mistake. -/
def Misread (d : Ip) : Prop := (∀ i < 10, byte d i = 0) ∧ byte d 10 = 0xFF ∧ byte d 11 = 0xF7
instance (d) : Decidable (Misread d) := by unfold Misread; infer_instance

def RoundTrips (d : Ip) : Prop := ∃ e, fromText (toText d) = .value e ∧ value e = value d

def Collide (d e : Ip) : Prop := d ≠ e ∧ QuadBlock d ∧ QuadBlock e ∧ low d = low e
instance (d e) : Decidable (Collide d e) := by unfold Collide; infer_instance

theorem misreadBlock {d : Ip} (misread : Misread d) : QuadBlock d :=
  ⟨misread.1,misread.2.1,Or.inr misread.2.2⟩

theorem blockNotMisread {d : Ip} (block : QuadBlock d) (read : ¬ Misread d) : byte d 11 = 0xFF := by
  rcases block.2.2 with right | wrong
  · exact right
  · exact absurd ⟨block.1,block.2.1,wrong⟩ read

theorem sameData {d e : Ip} (same : value e = value d) : e = d := by
  obtain ⟨left,leftSize⟩ := d
  obtain ⟨right,rightSize⟩ := e
  have equal : right = left := same
  subst equal
  rfl

theorem readBack {d : Ip} (read : ¬ Misread d) : fromText (toText d) = .value d := by
  by_cases block : QuadBlock d
  · rw [quadBlockRead block,(lowSame block).mpr (blockNotMisread block read)]
  · rw [hexPrinted block]
    exact hexRoundTrip d

theorem roundTripExact (d : Ip) : RoundTrips d ↔ ¬ Misread d := by
  constructor
  · rintro ⟨e,read,same⟩ misread
    have block := misreadBlock misread
    rw [quadBlockRead block] at read
    cases read
    have eleven := (lowSame block).mp (sameData same)
    rw [misread.2.2] at eleven
    exact absurd eleven (by decide)
  · intro read
    exact ⟨d,readBack read,rfl⟩

theorem readLow {d : Ip} (block : QuadBlock d) {e : Ip} (other : ¬ QuadBlock e)
    (text : toText d = toText e) : False := by
  have left := quadBlockRead block
  rw [text,readBack (fun misread => other (misreadBlock misread))] at left
  cases left
  exact other ⟨fun i inside => by rw [lowBytes d (by omega),if_pos inside],rfl,Or.inl rfl⟩

theorem collisionExact (d e : Ip) : (toText d = toText e → d = e) ↔ ¬ Collide d e := by
  constructor
  · rintro printed ⟨differ,left,right,same⟩
    apply differ
    apply printed
    have texts : ∀ {x : Ip}, QuadBlock x → toText x = toText (low x) := by
      intro x block
      have lowBlock : QuadBlock (low x) :=
        ⟨fun i inside => by rw [lowBytes x (by omega),if_pos inside],rfl,Or.inl rfl⟩
      rw [quadPrinted block,quadPrinted lowBlock]
      rfl
    rw [texts left,texts right,same]
  · intro apart text
    by_cases left : QuadBlock d
    · by_cases right : QuadBlock e
      · by_contra differ
        have reads := (quadBlockRead left).symm.trans (text ▸ quadBlockRead right)
        exact apart ⟨differ,left,right,Outcome.value.inj reads⟩
      · exact (readLow left right text).elim
    · by_cases right : QuadBlock e
      · exact (readLow right left text.symm).elim
      · have reads := (readBack (fun misread => left (misreadBlock misread))).symm.trans
          (text ▸ readBack (fun misread => right (misreadBlock misread)))
        exact Outcome.value.inj reads

theorem textRoundTrip (d : Ip) :
    (RoundTrips d ↔ ¬ Misread d) ∧ ∀ e, (toText d = toText e → d = e) ↔ ¬ Collide d e :=
  ⟨roundTripExact d,collisionExact d⟩

-- ::fff7:102:304 prints as 1.2.3.4 and is read back as ::ffff:1.2.3.4, which prints the same.
def strayed : Ip := ⟨[0,0,0,0,0,0,0,0,0,0,0xFF,0xF7,1,2,3,4],rfl⟩

theorem textRoundTripFails : (¬ ∀ d, RoundTrips d) ∧ ¬ ∀ d e, toText d = toText e → d = e := by
  refine ⟨?_,?_⟩
  · intro all
    exact (roundTripExact strayed).mp (all strayed) (by decide)
  · intro all
    exact (collisionExact strayed (mapped 1 2 3 4)).mp (all strayed (mapped 1 2 3 4)) (by decide)

end Chambermaid.AddressPrint
