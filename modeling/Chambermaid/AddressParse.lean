import Chambermaid.Address
import Mathlib.Data.List.Forall2
import Mathlib.Data.List.TakeWhile

/-! Reading hexadecimal IPv6 text. The parser rebuilds the length of the `::`
block from the number of colons; an empty first piece and an empty last piece
stand for one zero group each, so every block position comes out at eight groups. -/
namespace Chambermaid.AddressParse
open Digits CStdlib Locations Address

def HexGroup (g : Nat) (s : Text) : Prop :=
  s ≠ [] ∧ s.length ≤ 4 ∧ (∀ c ∈ s, isDigit 16 c = true) ∧ valueOf 16 s = g
instance (g s) : Decidable (HexGroup g s) :=
  decidable_of_iff (s ≠ [] ∧ s.length ≤ 4 ∧ s.all (isDigit 16) = true ∧ valueOf 16 s = g)
    (by simp only [HexGroup,List.all_eq_true])

/-! The spellings of eight groups: all of them, or any block of zero groups
replaced by `::`. -/
inductive HexText : List Nat → Text → Prop where
  | full {groups : List Nat} {spelled : List Text} (eight : groups.length = 8)
      (each : List.Forall₂ HexGroup groups spelled) :
      HexText groups ([':'].intercalate spelled)
  | compressed {before after : List Nat} {front back : List Text} {zeros : Nat}
      (block : 0 < zeros) (eight : before.length + zeros + after.length = 8)
      (head : List.Forall₂ HexGroup before front) (tail : List.Forall₂ HexGroup after back) :
      HexText (before ++ List.replicate zeros 0 ++ after)
        ([':'].intercalate front ++ [':',':'] ++ [':'].intercalate back)

def bigEndian (groups : List Nat) : Bytes :=
  groups.flatMap (fun g => [UInt8.ofNat (g / 256),UInt8.ofNat (g % 256)])

theorem bigEndianSize (groups : List Nat) : (bigEndian groups).length = 2 * groups.length := by
  induction groups with
  | nil => rfl
  | cons g rest ih =>
    simp only [bigEndian,List.flatMap_cons,List.length_append,List.length_cons] at ih ⊢
    simp only [List.length_nil]
    omega

-- A piece the parser turns into one group; the empty piece is a zero group.
def Piece (g : Nat) (s : Text) : Prop := (s = [] ∧ g = 0) ∨ HexGroup g s

def PlainPiece (s : Text) : Prop := ∀ c ∈ s, isDigit 16 c = true

theorem piecePlain {g : Nat} {s : Text} (piece : Piece g s) : PlainPiece s := by
  rcases piece with ⟨rfl,_⟩ | ⟨_,_,digits,_⟩
  · simp [PlainPiece]
  · exact digits

theorem plainAbsent {s : Text} (plain : PlainPiece s) {c : Char} (none : digitOf c = none) :
    c ∉ s := fun member => digitNe (plain c member) none rfl

theorem inputPiece {g : Nat} {s : Text} (piece : Piece g s) :
    inputHexPair s = some (UInt8.ofNat (g / 256),UInt8.ofNat (g % 256)) := by
  rcases piece with ⟨rfl,rfl⟩ | ⟨nonempty,short,digits,rfl⟩
  · rfl
  · have low : UInt8.ofNat (valueOf 16 s % 256) = UInt8.ofNat (valueOf 16 s) := by
      apply UInt8.toNat_inj.mp
      rw [UInt8.toNat_ofNat',UInt8.toNat_ofNat']
      omega
    simp only [inputHexPair,if_neg nonempty,sscanfHexDigits nonempty short digits,Option.map_some,
      Nat.shiftRight_eq_div_pow,low]

theorem inputPieces {groups : List Nat} {pieces : List Text} {count : Nat}
    (each : List.Forall₂ Piece groups pieces) (full : groups.length = count) :
    ∃ size, inputPairs count pieces = some ⟨bigEndian groups,size⟩ := by
  subst full
  induction each with
  | nil => exact ⟨rfl,rfl⟩
  | cons head tail ih =>
    obtain ⟨size,read⟩ := ih
    refine ⟨bigEndianSize _,?_⟩
    simp only [List.length_cons,inputPairs,inputPiece head,read,bind,Option.bind]
    rfl

theorem pushPlain {n : Nat} (pieces acc : List Text) (inserted : Bool)
    (nonempty : ∀ p ∈ pieces, p ≠ []) :
    pieces.foldl (pushPiece n) ⟨acc,inserted⟩ = ⟨acc ++ pieces,inserted⟩ := by
  induction pieces generalizing acc with
  | nil => simp
  | cons p rest ih =>
    have head : p ≠ [] := nonempty p (by simp)
    have tail : ∀ q ∈ rest, q ≠ [] := fun q member => nonempty q (by simp [member])
    simp [pushPiece,head,ih (acc ++ [p]) tail]

theorem pushInserted {n : Nat} (pieces acc : List Text) :
    pieces.foldl (pushPiece n) ⟨acc,true⟩ = ⟨acc ++ pieces,true⟩ := by
  induction pieces generalizing acc with
  | nil => simp
  | cons p rest ih =>
    have head : pushPiece n ⟨acc,true⟩ p = ⟨acc ++ [p],true⟩ := by
      unfold pushPiece
      split
      · rename_i empty; simp [empty]
      · rfl
    rw [List.foldl_cons,head,ih,List.append_assoc]
    rfl

theorem pushGap {n : Nat} (acc front back : List Text) (before : ∀ p ∈ front, p ≠ []) :
    ((front ++ [] :: back).foldl (pushPiece n) ⟨acc,false⟩).pairs =
      acc ++ front ++ List.replicate (8 - n) [] ++ back := by
  rw [List.foldl_append,pushPlain front acc false before,List.foldl_cons]
  have inserted : pushPiece n ⟨acc ++ front,false⟩ [] =
      ⟨acc ++ front ++ List.replicate (8 - n) [],true⟩ := by simp [pushPiece]
  rw [inserted,pushInserted]

theorem hexPairsSplit {s first : Text} {rest : List Text} (cut : s.splitOn ':' = first::rest)
    (several : rest ≠ []) :
    hexPairs s (locations ':' 0 s) = (rest.foldl (pushPiece rest.length) ⟨[first],false⟩).pairs := by
  have count : (locations ':' 0 s).length = rest.length := by
    have pieces := splitCount ':' s
    rw [cut,List.length_cons] at pieces
    rw [locationsCount]
    omega
  have positive := List.length_pos_iff.mpr several
  obtain ⟨here,others,found⟩ : ∃ here others, locations ':' 0 s = here::others :=
    List.exists_cons_of_length_pos (by omega)
  have halves := piecesSplit s found
  rw [cut] at halves
  obtain ⟨front,back⟩ := List.cons.inj halves
  unfold hexPairs
  rw [count,found,List.headD_cons,front,back]

theorem joinAppend {α : Type} (sep : List α) {front back : List (List α)} (left : front ≠ [])
    (right : back ≠ []) :
    sep.intercalate (front ++ back) = sep.intercalate front ++ sep ++ sep.intercalate back := by
  induction front with
  | nil => exact absurd rfl left
  | cons p rest ih =>
    cases rest with
    | nil => rw [List.singleton_append,List.intercalate_cons_of_ne_nil right,List.intercalate_singleton]
    | cons q rest =>
      have tail := ih (by simp)
      have whole : sep.intercalate (p::q::rest) = p ++ sep ++ sep.intercalate (q::rest) :=
        List.intercalate_cons_of_ne_nil (by simp)
      rw [List.cons_append,List.intercalate_cons_of_ne_nil (by simp),tail,whole]
      simp only [List.append_assoc]

theorem joinMember {α : Type} {sep : List α} {x : α} {pieces : List (List α)}
    (member : x ∈ sep.intercalate pieces) : x ∈ sep ∨ ∃ p ∈ pieces, x ∈ p := by
  induction pieces with
  | nil => simp at member
  | cons p rest ih =>
    by_cases last : rest = []
    · subst last
      exact Or.inr ⟨p,by simp,by simpa using member⟩
    · rw [List.intercalate_cons_of_ne_nil last] at member
      rcases List.mem_append.mp member with front | back
      · rcases List.mem_append.mp front with inside | separator
        · exact Or.inr ⟨p,by simp,inside⟩
        · exact Or.inl separator
      · rcases ih back with separator | ⟨q,hq,inside⟩
        · exact Or.inl separator
        · exact Or.inr ⟨q,by simp [hq],inside⟩

theorem fromPieces {first : Text} {rest : List Text} (plain : ∀ p ∈ first::rest, PlainPiece p)
    (low : 2 ≤ rest.length) (high : rest.length ≤ 8) {groups : List Nat} (eight : groups.length = 8)
    (read : List.Forall₂ Piece groups
      (rest.foldl (pushPiece rest.length) ⟨[first],false⟩).pairs) :
    ∃ size, fromText ([':'].intercalate (first::rest)) = .value ⟨bigEndian groups,size⟩ := by
  have clean : cStr ([':'].intercalate (first::rest)) = [':'].intercalate (first::rest) := by
    apply cStrClean
    intro c member
    rcases joinMember member with separator | ⟨p,hp,inside⟩
    · cases List.mem_singleton.mp separator
      decide
    · exact digitNonzero (plain p hp c inside)
  have cut : ([':'].intercalate (first::rest)).splitOn ':' = first::rest :=
    List.splitOn_intercalate ':' (fun p hp => plainAbsent (plain p hp) (by decide))
      (List.cons_ne_nil first rest)
  have colons : (locations ':' 0 ([':'].intercalate (first::rest))).length = rest.length := by
    have pieces := splitCount ':' ([':'].intercalate (first::rest))
    rw [cut,List.length_cons] at pieces
    rw [locationsCount]
    omega
  have dots : locations '.' 0 ([':'].intercalate (first::rest)) = [] := by
    apply locationsAbsent
    intro member
    rcases joinMember member with separator | ⟨p,hp,inside⟩
    · exact absurd (List.mem_singleton.mp separator) (by decide)
    · exact plainAbsent (plain p hp) (by decide) inside
  have several : rest ≠ [] := List.length_pos_iff.mp (by omega)
  have pairs := hexPairsSplit cut several
  obtain ⟨size,bytes⟩ := inputPieces read eight
  refine ⟨by rw [bigEndianSize,eight],?_⟩
  unfold fromText
  simp only [clean,dots,colons,pairs]
  simp [low,high,bytes]

def edge {α : Type} (filler : α) (side : List α) : List α := if side = [] then [filler] else side

theorem edgeNonempty {α : Type} (filler : α) (side : List α) : edge filler side ≠ [] := by
  unfold edge
  split
  · simp
  · assumption

theorem edgeLength {α : Type} (filler : α) (side : List α) :
    (edge filler side).length = side.length + (1 - side.length) := by
  unfold edge
  split
  · rename_i empty; simp [empty]
  · rename_i some
    have := List.length_pos_iff.mpr some
    omega

theorem edgeFront {α : Type} (filler : α) (side : List α) :
    edge filler side = side ++ List.replicate (1 - side.length) filler := by
  unfold edge
  split
  · rename_i empty; simp [empty]
  · rename_i some
    have := List.length_pos_iff.mpr some
    simp [show 1 - side.length = 0 by omega]

theorem edgeBack {α : Type} (filler : α) (side : List α) :
    edge filler side = List.replicate (1 - side.length) filler ++ side := by
  unfold edge
  split
  · rename_i empty; simp [empty]
  · rename_i some
    have := List.length_pos_iff.mpr some
    simp [show 1 - side.length = 0 by omega]

theorem edgeJoin (side : List Text) : [':'].intercalate (edge [] side) = [':'].intercalate side := by
  unfold edge
  split
  · rename_i empty; simp [empty]
  · rfl

theorem gapText (front back : List Text) :
    [':'].intercalate (edge [] front ++ [] :: edge [] back) =
      [':'].intercalate front ++ [':',':'] ++ [':'].intercalate back := by
  have gap : [':'].intercalate ([] :: edge [] back) = ':' :: [':'].intercalate back := by
    rw [List.intercalate_cons_of_ne_nil (edgeNonempty _ _),edgeJoin]
    rfl
  rw [joinAppend [':'] (edgeNonempty _ _) (by simp),gap,edgeJoin]
  simp

theorem edgePieces {groups : List Nat} {side : List Text} (each : List.Forall₂ HexGroup groups side) :
    List.Forall₂ Piece (edge 0 groups) (edge [] side) := by
  cases each with
  | nil => exact .cons (Or.inl ⟨rfl,rfl⟩) .nil
  | cons head tail => exact .cons (Or.inr head) (tail.imp fun _ _ group => Or.inr group)

theorem eachRight {α β : Type} {R : α → β → Prop} {P : β → Prop} (holds : ∀ x y, R x y → P y)
    {xs : List α} {ys : List β} (each : List.Forall₂ R xs ys) : ∀ y ∈ ys, P y := by
  induction each with
  | nil => simp
  | cons head tail ih =>
    intro y member
    rcases List.mem_cons.mp member with rfl | inside
    · exact holds _ _ head
    · exact ih y inside

theorem groupsNonempty {groups : List Nat} {side : List Text}
    (each : List.Forall₂ HexGroup groups side) : ∀ p ∈ side, p ≠ [] :=
  eachRight (fun _ _ group => group.1) each

theorem piecesPlain {groups : List Nat} {pieces : List Text}
    (each : List.Forall₂ Piece groups pieces) : ∀ p ∈ pieces, PlainPiece p :=
  eachRight (fun _ _ piece => piecePlain piece) each

theorem zeroPieces (count : Nat) :
    List.Forall₂ Piece (List.replicate count 0) (List.replicate count []) := by
  induction count with
  | zero => exact .nil
  | succ count ih => exact .cons (Or.inl ⟨rfl,rfl⟩) ih

theorem edgeBlock {before after : List Nat} {zeros : Nat} (block : 0 < zeros)
    (eight : before.length + zeros + after.length = 8) :
    edge 0 before ++ List.replicate (8 - ((edge 0 before).length + (edge 0 after).length)) 0 ++
      edge 0 after = before ++ List.replicate zeros 0 ++ after := by
  rw [edgeLength,edgeLength,edgeFront 0 before,edgeBack 0 after]
  simp only [List.append_assoc]
  rw [← List.append_assoc (List.replicate _ 0) (List.replicate _ 0) after,
    ← List.append_assoc (List.replicate _ 0) _ after]
  simp only [List.replicate_append_replicate]
  rw [show 1 - before.length + (8 - (before.length + (1 - before.length) +
    (after.length + (1 - after.length))) + (1 - after.length)) = zeros by omega]

theorem compressedRead {before after : List Nat} {front back : List Text} {zeros : Nat}
    (block : 0 < zeros) (eight : before.length + zeros + after.length = 8)
    (head : List.Forall₂ HexGroup before front) (tail : List.Forall₂ HexGroup after back) :
    ∃ size, fromText ([':'].intercalate front ++ [':',':'] ++ [':'].intercalate back) =
      .value ⟨bigEndian (before ++ List.replicate zeros 0 ++ after),size⟩ := by
  have left := edgePieces head
  have right := edgePieces tail
  have leftLength := left.length_eq
  have rightLength := right.length_eq
  have leftWidth := edgeLength 0 before
  have rightWidth := edgeLength 0 after
  obtain ⟨first,rest,start⟩ := List.exists_cons_of_ne_nil (edgeNonempty ([] : Text) front)
  have pieces : edge [] front ++ [] :: edge [] back = first :: (rest ++ [] :: edge [] back) := by
    rw [start]; rfl
  have count : (rest ++ [] :: edge [] back).length =
      (edge 0 before).length + (edge 0 after).length := by
    have width := congrArg List.length start
    simp only [List.length_cons] at width
    simp only [List.length_append,List.length_cons]
    omega
  have restNonempty : ∀ p ∈ rest, p ≠ [] := by
    unfold edge at start
    split at start
    · obtain ⟨_,rfl⟩ := List.cons.inj start
      simp
    · intro p member
      exact groupsNonempty head p (by rw [start]; simp [member])
  rw [← gapText,pieces,← edgeBlock block eight]
  apply fromPieces
  · intro p member
    rw [← pieces] at member
    rcases List.mem_append.mp member with inside | inside
    · exact piecesPlain left p inside
    · rcases List.mem_cons.mp inside with rfl | inside
      · simp [PlainPiece]
      · exact piecesPlain right p inside
  · omega
  · omega
  · simp only [List.length_append,List.length_replicate]
    omega
  · rw [pushGap [first] rest (edge [] back) restNonempty,List.singleton_append,← start,
      count]
    exact List.rel_append (List.rel_append left (zeroPieces _)) right

theorem fullRead {groups : List Nat} {spelled : List Text} (eight : groups.length = 8)
    (each : List.Forall₂ HexGroup groups spelled) :
    ∃ size, fromText ([':'].intercalate spelled) = .value ⟨bigEndian groups,size⟩ := by
  have length := each.length_eq
  obtain ⟨first,rest,rfl⟩ := List.exists_cons_of_length_pos (l := spelled) (by omega)
  have pieces : List.Forall₂ Piece groups (first::rest) := each.imp fun _ _ group => Or.inr group
  simp only [List.length_cons] at length
  apply fromPieces (piecesPlain pieces) (by omega) (by omega) eight
  rw [pushPlain rest [first] false
    (fun p member => groupsNonempty each p (List.mem_cons_of_mem _ member))]
  exact pieces

theorem spellingParsed {groups : List Nat} {text : Text} (spelling : HexText groups text) :
    ∃ size, fromText text = .value ⟨bigEndian groups,size⟩ := by
  cases spelling with
  | full eight each => exact fullRead eight each
  | compressed block eight head tail => exact compressedRead block eight head tail

theorem everySpellingRead {groups : List Nat} {text : Text} (spelling : HexText groups text) :
    ∃ d : Ip, fromText text = .value d ∧ value d = bigEndian groups := by
  obtain ⟨size,read⟩ := spellingParsed spelling
  exact ⟨_,read,rfl⟩

theorem gapSpellingRead : ∃ d : Ip, fromText ['1',':',':','0','A'] = .value d ∧
    value d = bigEndian [1,0,0,0,0,0,0,10] := by
  have one : HexGroup 1 ['1'] := by decide
  have ten : HexGroup 10 ['0','A'] := by decide
  exact everySpellingRead (@HexText.compressed [1] [10] [['1']] [['0','A']] 6 (by omega) rfl
    (.cons one .nil) (.cons ten .nil))

end Chambermaid.AddressParse
