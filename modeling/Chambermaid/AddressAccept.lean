import Chambermaid.AddressPrint

/-! What text the constructor takes. Only dots and colons are counted; the pieces
between the colons are not looked at before they are read, and a vector short of
eight pieces or a piece without a hex number is read all the same. -/
namespace Chambermaid.AddressAccept
open Digits CStdlib Locations Address AddressMask AddressParse AddressQuad AddressPrint

theorem mappedPrinted (a b c e : UInt8) : toText (mapped a b c e) = quadText a b c e :=
  quadPrinted ⟨by intro i inside; interval_cases i <;> rfl,rfl,Or.inl rfl⟩

theorem quadSpellingsAgree (a b c e : UInt8) {front : Text} (before : QuadPrefix front) :
    ∃ d, fromText (front ++ quadText a b c e) = .value d ∧ fromBytes [a,b,c,e] = .value d ∧
      value d = [0,0,0,0,0,0,0,0,0,0,0xFF,0xFF,a,b,c,e] ∧ toText d = quadText a b c e ∧
      fromText (toText d) = .value d := by
  refine ⟨mapped a b c e,?_,rfl,rfl,mappedPrinted a b c e,?_⟩
  · exact quadBehind before (quadPrintedDotted a b c e)
  · rw [mappedPrinted]
    exact quadRead a b c e

theorem quadSpellingsAgreeMapped :
    ∃ d, fromText ([':',':','f',':'] ++ quadText 10 0 0 1) = .value d ∧
      fromBytes [10,0,0,1] = .value d ∧
      value d = [0,0,0,0,0,0,0,0,0,0,0xFF,0xFF,10,0,0,1] ∧ toText d = quadText 10 0 0 1 ∧
      fromText (toText d) = .value d :=
  quadSpellingsAgree 10 0 0 1 ⟨by simp,by simp,Or.inr ⟨by simp,rfl⟩⟩

def dots (text : Text) : Nat := (cStr text).count '.'
def colons (text : Text) : Nat := (cStr text).count ':'
def pieces (text : Text) : List Text := (cStr text).splitOn ':'

def Hexadecimal (text : Text) : Prop := dots text ≠ 3 ∧ 2 ≤ colons text ∧ colons text ≤ 8
instance (text) : Decidable (Hexadecimal text) := by unfold Hexadecimal; infer_instance

def Gap (text : Text) : Prop := [] ∈ (pieces text).tail
instance (text) : Decidable (Gap text) := by unfold Gap; infer_instance

-- Empty, or with a hex digit behind the blanks and the sign; a lone 0x has its 0.
def Readable (p : Text) : Prop :=
  p = [] ∨ (splitSign (p.dropWhile isSpace)).2.head?.any (isDigit 16) = true
instance (p) : Decidable (Readable p) := by unfold Readable; infer_instance

-- Without a gap the ninth of nine pieces is never read.
def usedPieces (text : Text) : List Text := if Gap text then pieces text else (pieces text).take 8

def Settled (text : Text) : Prop :=
  Hexadecimal text → (Gap text ∨ 7 ≤ colons text) ∧ ∀ p ∈ usedPieces text, Readable p
instance (text) : Decidable (Settled text) := by unfold Settled; infer_instance

def Safe (text : Text) : Prop := Hexadecimal text → ∀ i < 8, ∃ p,
  (hexPairs (cStr text) (locations ':' 0 (cStr text)))[i]? = some p ∧
    (p ≠ [] → ∃ n, sscanfHex p = some n)

theorem piecesCons (text : Text) (some : 0 < colons text) : ∃ first rest,
    pieces text = first::rest ∧ rest.length = colons text ∧ rest ≠ [] := by
  have count := splitCount ':' (cStr text)
  obtain ⟨first,rest,cut⟩ := List.exists_cons_of_ne_nil (List.splitOn_ne_nil ':' (cStr text))
  rw [cut,List.length_cons] at count
  have width : rest.length = colons text := Nat.succ.inj count
  exact ⟨first,rest,cut,width,List.length_pos_iff.mp (by omega)⟩

theorem gapCut {text : Text} (gap : Gap text) : ∃ first front back,
    pieces text = first :: (front ++ [] :: back) ∧ ∀ p ∈ front, p ≠ [] := by
  unfold Gap at gap
  obtain ⟨front,back,cut,absent⟩ := List.eq_append_cons_of_mem gap
  cases split : pieces text with
  | nil => simp [split] at gap
  | cons first rest =>
    rw [split,List.tail_cons] at cut
    exact ⟨first,front,back,by rw [cut],fun p member empty => absent (empty ▸ member)⟩

theorem gapPairs {text first : Text} {front back : List Text} (low : 2 ≤ colons text)
    (cut : pieces text = first :: (front ++ [] :: back)) (before : ∀ p ∈ front, p ≠ []) :
    hexPairs (cStr text) (locations ':' 0 (cStr text)) =
      first :: front ++ List.replicate (8 - colons text) [] ++ back := by
  obtain ⟨head,rest,shape,width,some⟩ := piecesCons text (by omega)
  obtain ⟨rfl,rfl⟩ := List.cons.inj (shape.symm.trans cut)
  rw [hexPairsSplit shape some,pushGap [head] front back before,width]
  rfl

theorem plainPairs {text : Text} (low : 2 ≤ colons text) (none : ¬ Gap text) :
    hexPairs (cStr text) (locations ':' 0 (cStr text)) = pieces text := by
  obtain ⟨first,rest,shape,width,some⟩ := piecesCons text (by omega)
  have nonempty : ∀ p ∈ rest, p ≠ [] := by
    intro p member empty
    apply none
    rw [Gap,shape,List.tail_cons]
    exact empty ▸ member
  rw [hexPairsSplit shape some,pushPlain rest [first] false nonempty,shape]
  rfl

theorem firstRead (count : Nat) (pairs : List Text) :
    (∀ i < count, ∃ p, pairs[i]? = some p ∧ Readable p) ↔
      count ≤ pairs.length ∧ ∀ p ∈ pairs.take count, Readable p := by
  constructor
  · intro each
    refine ⟨?_,?_⟩
    · by_contra short
      obtain ⟨p,found,_⟩ := each pairs.length (by omega)
      simp at found
    · intro p member
      obtain ⟨i,found⟩ := List.mem_iff_getElem?.mp member
      rw [List.getElem?_take] at found
      split at found
      · rename_i inside
        obtain ⟨q,here,readable⟩ := each i inside
        rwa [Option.some.inj (found.symm.trans here)]
      · contradiction
  · rintro ⟨long,each⟩ i inside
    have low : i < pairs.length := by omega
    have here : pairs[i]? = some pairs[i] := List.getElem?_eq_getElem low
    refine ⟨_,here,each _ (List.mem_iff_getElem?.mpr ⟨i,?_⟩)⟩
    rw [List.getElem?_take_of_lt inside,here]

theorem pieceInput (p : Text) : (inputHexPair p).isSome ↔ Readable p := by
  unfold inputHexPair Readable
  split
  · rename_i empty; simp [empty]
  · rename_i some; simp [some,sscanfHexSome]

theorem inputPairsExact (count : Nat) (pairs : List Text) :
    (inputPairs count pairs).isSome ↔ count ≤ pairs.length ∧ ∀ p ∈ pairs.take count, Readable p := by
  induction count generalizing pairs with
  | zero => simp [inputPairs]
  | succ count ih =>
    cases pairs with
    | nil => simp [inputPairs]
    | cons p rest =>
      have tail := ih rest
      have head := pieceInput p
      simp only [inputPairs,bind,List.take_succ_cons,List.forall_mem_cons,List.length_cons,
        Nat.add_le_add_iff_right,← head]
      cases here : inputHexPair p with
      | none => simp
      | some halves =>
        cases later : inputPairs count rest with
        | none => simpa [later] using tail
        | some bytes => simpa [later] using tail

theorem fromQuad {text : Text} (three : dots text = 3) : ∃ d, fromText text = .value d ∧
    value d = [0,0,0,0,0,0,0,0,0,0,0xFF,0xFF] ++
      octet (if 2 ≤ colons text then
        (cStr text).drop ((locations ':' 0 (cStr text)).getLastD 0 + 1) else cStr text) ::
      (locations '.' 0 (cStr text)).map (fun dot => octet ((cStr text).drop (dot+1))) := by
  have count : (locations '.' 0 (cStr text)).length = 3 := (locationsCount _ _ _).trans three
  refine ⟨⟨_,?_⟩,dif_pos count,?_⟩
  · simp [count]
  · rw [locationsCount]
    simp [value,colons]

theorem fromHexadecimal {text : Text} (shape : Hexadecimal text) : fromText text =
    match inputPairs 8 (hexPairs (cStr text) (locations ':' 0 (cStr text))) with
    | some data => .value ⟨data.val,data.property⟩
    | none => .undefined := by
  obtain ⟨quad,low,high⟩ := shape
  have count : (locations '.' 0 (cStr text)).length ≠ 3 := by rwa [locationsCount]
  unfold fromText
  dsimp only
  rw [dif_neg count,locationsCount]
  exact if_pos ⟨low,high⟩

theorem fromOther {text : Text} (quad : dots text ≠ 3) (shape : ¬ Hexadecimal text) :
    fromText text = .invalidArgument ("Invalid number of .(" ++ toString (dots text) ++ ") or :(" ++
      toString (colons text) ++ ") from ip " ++ String.ofList (cStr text)) := by
  have count : (locations '.' 0 (cStr text)).length ≠ 3 := by rwa [locationsCount]
  unfold fromText
  dsimp only
  rw [dif_neg count,locationsCount,locationsCount]
  exact if_neg (fun range => shape ⟨quad,range⟩)

theorem safeReads {text : Text} : Safe text ↔ (Hexadecimal text →
    8 ≤ (hexPairs (cStr text) (locations ':' 0 (cStr text))).length ∧
    ∀ p ∈ (hexPairs (cStr text) (locations ':' 0 (cStr text))).take 8, Readable p) := by
  rw [← firstRead]
  have readable : ∀ p, Readable p ↔ (p ≠ [] → ∃ n, sscanfHex p = some n) := by
    intro p
    rw [Readable,← sscanfHexSome,Option.isSome_iff_exists,or_iff_not_imp_left]
  simp only [readable]
  rfl

theorem safeDefined (text : Text) : fromText text ≠ .undefined ↔ Safe text := by
  rw [safeReads]
  by_cases three : dots text = 3
  · obtain ⟨d,read,_⟩ := fromQuad three
    simp [read,Hexadecimal,three]
  · by_cases shape : Hexadecimal text
    · rw [fromHexadecimal shape,← inputPairsExact]
      simp only [shape,forall_const]
      cases inputPairs 8 (hexPairs (cStr text) (locations ':' 0 (cStr text))) <;> simp
    · simp [fromOther three shape,shape]

theorem safeSettled (text : Text) : Safe text ↔ Settled text := by
  rw [safeReads,Settled]
  refine forall_congr' fun shape => ?_
  obtain ⟨_,low,high⟩ := shape
  obtain ⟨_,_,split,width,_⟩ := piecesCons text (by omega)
  have count : (pieces text).length = colons text + 1 := by rw [split,List.length_cons,width]
  by_cases gap : Gap text
  · obtain ⟨first,front,back,cut,before⟩ := gapCut gap
    have pairs := gapPairs low cut before
    rw [cut] at count
    simp only [List.length_cons,List.length_append] at count
    -- the block brings the vector to exactly eight entries
    have eight : (hexPairs (cStr text) (locations ':' 0 (cStr text))).length = 8 := by
      rw [pairs]
      simp only [List.length_cons,List.length_append,List.length_replicate]
      omega
    have empty : Readable [] := Or.inl rfl
    rw [List.take_of_length_le (by omega),eight,usedPieces,if_pos gap,pairs,cut]
    simp only [gap,true_or,true_and,Nat.le_refl]
    constructor
    · intro each p member
      by_cases blank : p = []
      · rwa [blank]
      · apply each
        simpa [blank] using member
    · intro each p member
      by_cases blank : p = []
      · rwa [blank]
      · apply each
        simpa [blank] using member
  · rw [plainPairs low gap,usedPieces,if_neg gap,count]
    simp only [gap,false_or,show 8 ≤ colons text + 1 ↔ 7 ≤ colons text by omega]

theorem parserSafe (text : Text) :
    (fromText text ≠ .undefined ↔ Safe text) ∧ (Safe text ↔ Settled text) :=
  ⟨safeDefined text,safeSettled text⟩

example : Settled ['0','x',':',':','1'] ∧
    fromText ['0','x',':',':','1'] = fromText ['0',':',':','1'] := by decide

theorem parserUnsafe : fromText ['1',':','2',':','3'] = .undefined ∧
    fromText ['g',':',':'] = .undefined ∧ ¬ ∀ text, Safe text := by
  refine ⟨by decide,by decide,?_⟩
  intro all
  exact absurd ((safeSettled ['1',':','2',':','3']).mp (all _)) (by decide)

def pieceGroup (p : Text) : Nat := if p = [] then 0 else (sscanfHex p).getD 0 % 65536

theorem inputPiecesValue {count : Nat} {pairs : List Text} {data : {d : Bytes // d.length = 2 * count}}
    (read : inputPairs count pairs = some data) :
    data.val = bigEndian ((pairs.take count).map pieceGroup) := by
  induction count generalizing pairs with
  | zero => exact List.eq_nil_of_length_eq_zero data.property
  | succ count ih =>
    cases pairs with
    | nil => simp [inputPairs] at read
    | cons p rest =>
      simp only [inputPairs,bind,Option.bind_eq_some_iff] at read
      obtain ⟨⟨a,b⟩,here,tail,later,joined⟩ := read
      cases joined
      have halves : [a,b] = [UInt8.ofNat (pieceGroup p / 256),UInt8.ofNat (pieceGroup p % 256)] := by
        unfold inputHexPair at here
        unfold pieceGroup
        split at here
        · rename_i empty
          cases here
          simp [empty]
        · rename_i some
          rw [if_neg some]
          obtain ⟨n,number,same⟩ := Option.map_eq_some_iff.mp here
          cases same
          rw [number,Option.getD_some,Nat.shiftRight_eq_div_pow]
          congr 1
          · apply UInt8.toNat_inj.mp
            rw [UInt8.toNat_ofNat',UInt8.toNat_ofNat']
            omega
          · congr 1
            apply UInt8.toNat_inj.mp
            rw [UInt8.toNat_ofNat',UInt8.toNat_ofNat']
            omega
      rw [List.take_succ_cons,List.map_cons,bigEndian,List.flatMap_cons,← halves]
      exact congrArg ([a,b] ++ ·) (ih later)

inductive AddressText : Text → Prop where
  | quad {octets : Bytes} {text : Text} (quad : DottedQuad octets text) : AddressText text
  | hex {groups : List Nat} {text : Text} (spelling : HexText groups text) : AddressText text
  | tailed {groups : List Nat} {front : Text} {octets : Bytes} {text : Text}
      (spelling : HexText groups (front ++ ['0',':','0'])) (last : front.getLast? = some ':')
      (quad : DottedQuad octets text) : AddressText (front ++ text)

theorem groupsCharacters {groups : List Nat} {spelled : List Text}
    (each : List.Forall₂ HexGroup groups spelled) {c : Char}
    (member : c ∈ [':'].intercalate spelled) : isDigit 16 c = true ∨ c = ':' := by
  rcases joinMember member with separator | ⟨p,hp,inside⟩
  · exact Or.inr (List.mem_singleton.mp separator)
  · exact Or.inl (piecesPlain (each.imp fun _ _ group => Or.inr group) p hp c inside)

theorem hexCharacters {groups : List Nat} {text : Text} (spelling : HexText groups text) :
    ∀ c ∈ text, isDigit 16 c = true ∨ c = ':' := by
  intro c member
  cases spelling with
  | full eight each => exact groupsCharacters each member
  | compressed block eight head tail =>
    rcases List.mem_append.mp member with inside | inside
    · rcases List.mem_append.mp inside with inside | inside
      · exact groupsCharacters head inside
      · exact Or.inr (by simpa using inside)
    · exact groupsCharacters tail inside

theorem addressCharacters {text : Text} (address : AddressText text) :
    ∀ c ∈ text, isDigit 16 c = true ∨ c = ':' ∨ c = '.' := by
  have decimal : ∀ {c : Char}, isDigit 10 c = true → isDigit 16 c = true := by
    intro c digit
    unfold isDigit at digit ⊢
    split at digit
    · simp only [decide_eq_true_eq] at digit ⊢
      omega
    · contradiction
  intro c member
  cases address with
  | quad quad => exact (quadCharacters quad c member).imp decimal Or.inr
  | hex spelling => exact (hexCharacters spelling c member).imp id Or.inl
  | tailed spelling last quad =>
    rcases List.mem_append.mp member with inside | inside
    · exact (hexCharacters spelling c (List.mem_append_left _ inside)).imp id Or.inl
    · exact (quadCharacters quad c inside).imp decimal Or.inr

theorem quadDots {octets : Bytes} {text : Text} (quad : DottedQuad octets text) :
    text.count '.' = 3 := by
  obtain ⟨four,spelled,each,rfl⟩ := quad
  cases each with
  | nil => contradiction
  | cons head tail =>
    have count := congrArg List.length (octetsRead head tail).2
    rw [List.length_map,locationsCount] at count
    rw [count]
    simpa using four

theorem addressAccepted {text : Text} (address : AddressText text) :
    ∃ d, fromText text = .value d := by
  cases address with
  | hex spelling =>
    obtain ⟨size,read⟩ := spellingParsed spelling
    exact ⟨_,read⟩
  | quad quad =>
    have three : dots text = 3 := by rw [dots,cStrClean (quadClean quad),quadDots quad]
    obtain ⟨d,read,_⟩ := fromQuad three
    exact ⟨d,read⟩
  | @tailed groups front octets text spelling last quad =>
    have before : ∀ c ∈ front, c.toNat ≠ 0 ∧ c ≠ '.' := by
      intro c member
      rcases hexCharacters spelling c (List.mem_append_left _ member) with digit | rfl
      · exact ⟨digitNonzero digit,digitNe digit (by decide)⟩
      · exact ⟨by decide,by decide⟩
    have clean : cStr (front ++ text) = front ++ text := by
      apply cStrClean
      intro c member
      rcases List.mem_append.mp member with inside | inside
      · exact (before c inside).1
      · exact quadClean quad c inside
    have none : front.count '.' = 0 :=
      List.count_eq_zero_of_not_mem (fun member => (before '.' member).2 rfl)
    have three : dots (front ++ text) = 3 := by
      rw [dots,clean,List.count_append,none,quadDots quad]
    obtain ⟨d,read,_⟩ := fromQuad three
    exact ⟨d,read⟩

/-! Only the counts are checked. A text with three dots is read as four octets, each
the low byte of the number `atoi` finds; otherwise each piece is one group, the low
sixteen bits of the hex number it starts with, and the first empty piece behind a
colon makes the groups eight. -/
theorem countsAccepted (text : Text) :
    (dots text ≠ 3 → ¬ Hexadecimal text → fromText text = .invalidArgument
      ("Invalid number of .(" ++ toString (dots text) ++ ") or :(" ++ toString (colons text) ++
        ") from ip " ++ String.ofList (cStr text))) ∧
    (dots text = 3 → ∃ d, fromText text = .value d ∧
      value d = [0,0,0,0,0,0,0,0,0,0,0xFF,0xFF] ++
        octet (if 2 ≤ colons text then
          (cStr text).drop ((locations ':' 0 (cStr text)).getLastD 0 + 1) else cStr text) ::
        (locations '.' 0 (cStr text)).map (fun dot => octet ((cStr text).drop (dot+1)))) ∧
    (Hexadecimal text → fromText text ≠ .undefined → ∃ d, fromText text = .value d ∧
      (¬ Gap text → value d = bigEndian (((pieces text).take 8).map pieceGroup)) ∧
      ∀ first front back, pieces text = first :: (front ++ [] :: back) → (∀ p ∈ front, p ≠ []) →
        value d = bigEndian ((first::front).map pieceGroup ++ List.replicate (8 - colons text) 0 ++
          back.map pieceGroup)) ∧
    (AddressText text → ∃ d, fromText text = .value d) := by
  refine ⟨fromOther,fromQuad,?_,addressAccepted⟩
  intro shape defined
  have ⟨_,low,high⟩ := shape
  rw [fromHexadecimal shape] at defined ⊢
  cases read : inputPairs 8 (hexPairs (cStr text) (locations ':' 0 (cStr text))) with
  | none => simp [read] at defined
  | some data =>
    have bytes := inputPiecesValue read
    refine ⟨_,rfl,?_,?_⟩
    · intro none
      rwa [plainPairs low none] at bytes
    · intro first front back cut before
      obtain ⟨_,rest,split,width,_⟩ := piecesCons text (by omega)
      obtain ⟨rfl,rfl⟩ := List.cons.inj (split.symm.trans cut)
      simp only [List.length_append,List.length_cons] at width
      rw [gapPairs low cut before,List.take_of_length_le (by simp; omega)] at bytes
      simpa [pieceGroup,value] using bytes

theorem contentUnchecked : fromText ['1','.','2','.','3','.','x'] = .value (mapped 1 2 3 0) ∧
    ¬ ∀ text, (∃ what, fromText text = .invalidArgument what) ∨ AddressText text := by
  have read : fromText ['1','.','2','.','3','.','x'] = .value (mapped 1 2 3 0) := by decide
  refine ⟨read,?_⟩
  intro all
  rcases all ['1','.','2','.','3','.','x'] with ⟨what,thrown⟩ | address
  · rw [read] at thrown
    contradiction
  · rcases addressCharacters address 'x' (by simp) with digit | colon | dot
    · exact absurd digit (by decide)
    · exact absurd colon (by decide)
    · exact absurd dot (by decide)

end Chambermaid.AddressAccept
