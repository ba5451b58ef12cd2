import Chambermaid.AddressParse

/-! Reading dotted quads, alone or behind an IPv6 prefix. The first octet stands
after the last colon, the others after the dots; whatever the prefix says, the
value is that of the four octets as raw bytes. -/
namespace Chambermaid.AddressQuad
open Digits CStdlib Locations Address AddressParse

def DecimalOctet (a : UInt8) (s : Text) : Prop :=
  s ≠ [] ∧ s.length ≤ 3 ∧ (∀ c ∈ s, isDigit 10 c = true) ∧ valueOf 10 s = a.toNat

def DottedQuad (octets : Bytes) (text : Text) : Prop :=
  octets.length = 4 ∧ ∃ spelled, List.Forall₂ DecimalOctet octets spelled ∧
    text = ['.'].intercalate spelled

def QuadPrefix (front : Text) : Prop :=
  (∀ c ∈ front, c.toNat ≠ 0) ∧ '.' ∉ front ∧
    (front = [] ∨ (2 ≤ front.count ':' ∧ front.getLast? = some ':'))

theorem dotStops (rest : Text) : ∀ c, ('.' :: rest).head? = some c → isDigit 10 c = false := by
  intro c head
  cases Option.some.inj head
  decide

theorem octetSpelled {a : UInt8} {s : Text} (spelled : DecimalOctet a s) (rest : Text)
    (stops : ∀ c, rest.head? = some c → isDigit 10 c = false) : octet (s ++ rest) = a := by
  obtain ⟨nonempty,short,digits,value⟩ := spelled
  have small := a.toNat_lt
  rw [octet,atoiNumeral s rest nonempty digits stops (by omega),value]
  apply UInt8.toNat_inj.mp
  rw [UInt8.ofInt,UInt8.toNat_ofNat']
  omega

theorem octetNoDot {a : UInt8} {s : Text} (spelled : DecimalOctet a s) : '.' ∉ s := fun member =>
  digitNe (spelled.2.2.1 _ member) (by decide) rfl

theorem octetsRead {a : UInt8} {s : Text} {octets : Bytes} {spelled : List Text}
    (head : DecimalOctet a s) (tail : List.Forall₂ DecimalOctet octets spelled) :
    octet (['.'].intercalate (s::spelled)) = a ∧
    (locations '.' 0 (['.'].intercalate (s::spelled))).map
      (fun dot => octet ((['.'].intercalate (s::spelled)).drop (dot+1))) = octets := by
  induction tail generalizing a s with
  | nil =>
    rw [List.intercalate_singleton,locationsAbsent 0 (octetNoDot head)]
    have alone := octetSpelled head [] (by simp)
    rw [List.append_nil] at alone
    exact ⟨alone,rfl⟩
  | @cons b t octets spelled next rest ih =>
    obtain ⟨first,others⟩ := ih next
    have joined : ['.'].intercalate (s::t::spelled) =
        s ++ '.' :: ['.'].intercalate (t::spelled) := by
      rw [List.intercalate_cons_of_ne_nil (by simp)]
      simp
    have tails := congrArg (List.map octet)
      (tailsAppend s (['.'].intercalate (t::spelled)) (octetNoDot head))
    rw [List.map_map,List.map_cons,List.map_map,first] at tails
    rw [joined]
    refine ⟨octetSpelled head _ (dotStops _),tails.trans ?_⟩
    exact congrArg (b :: ·) others

theorem quadCharacters {octets : Bytes} {text : Text} (quad : DottedQuad octets text) :
    ∀ c ∈ text, isDigit 10 c = true ∨ c = '.' := by
  obtain ⟨_,spelled,each,rfl⟩ := quad
  intro c member
  rcases joinMember member with separator | ⟨p,hp,inside⟩
  · exact Or.inr (List.mem_singleton.mp separator)
  · have digits := eachRight (fun _ _ octet => octet.2.2.1) each p hp
    exact Or.inl (digits c inside)

theorem quadClean {octets : Bytes} {text : Text} (quad : DottedQuad octets text) :
    ∀ c ∈ text, c.toNat ≠ 0 := by
  intro c member zero
  rcases quadCharacters quad c member with digit | rfl
  · have nul : digitOf c = none := by simp [digitOf,zero]
    exact digitNe digit nul rfl
  · exact absurd zero (by decide)

theorem quadNoColon {octets : Bytes} {text : Text} (quad : DottedQuad octets text) : ':' ∉ text := by
  intro member
  rcases quadCharacters quad ':' member with digit | dot
  · exact digitNe digit (by decide) rfl
  · exact absurd dot (by decide)

theorem quadBehind {front text : Text} {octets : Bytes} (before : QuadPrefix front)
    (quad : DottedQuad octets text) : fromText (front ++ text) = fromBytes octets := by
  obtain ⟨clean,plain,shape⟩ := before
  have whole : cStr (front ++ text) = front ++ text := by
    apply cStrClean
    intro c member
    rcases List.mem_append.mp member with inside | inside
    · exact clean c inside
    · exact quadClean quad c inside
  have colons : locations ':' 0 (front ++ text) = locations ':' 0 front := by
    rw [locationsConcat,locationsAbsent _ (quadNoColon quad),List.append_nil]
  have dots : locations '.' 0 (front ++ text) = (locations '.' 0 text).map (· + front.length) := by
    rw [locationsConcat,locationsAbsent 0 plain,List.nil_append,locationsShift,Nat.zero_add]
  have start : (if 2 ≤ (locations ':' 0 front).length then
      (front ++ text).drop ((locations ':' 0 front).getLastD 0 + 1) else front ++ text) = text := by
    rcases shape with rfl | ⟨two,last⟩
    · rfl
    · obtain ⟨head,rfl⟩ := List.getLast?_eq_some_iff.mp last
      rw [if_pos (by rwa [locationsCount]),locationsConcat]
      simp [locations]
  have same : (locations '.' 0 (front ++ text)).map
      (fun dot => octet ((front ++ text).drop (dot+1))) =
      (locations '.' 0 text).map (fun dot => octet (text.drop (dot+1))) := by
    rw [dots,List.map_map]
    apply List.map_congr_left
    intro i _
    have past : front.drop (front.length + (i+1)) = [] := List.drop_eq_nil_of_le (by omega)
    simp [show i + front.length + 1 = front.length + (i+1) by omega,List.drop_append,past]
  obtain ⟨four,spelled,each,rfl⟩ := quad
  cases each with
  | nil => contradiction
  | @cons a s octets spelled head tail =>
    obtain ⟨first,others⟩ := octetsRead head tail
    have three : (locations '.' 0 (front ++ ['.'].intercalate (s::spelled))).length = 3 := by
      have count := congrArg List.length (same.trans others)
      rw [List.length_map] at count
      rw [count]
      simpa using four
    unfold fromText fromBytes
    simp only [whole,colons,start,same,first,others]
    rw [dif_pos three,dif_neg (by simp at four ⊢; omega),dif_pos four]
    rfl

theorem emptyPrefix : QuadPrefix [] := ⟨by simp,by simp,Or.inl rfl⟩

theorem quadAlone {text : Text} {octets : Bytes} (quad : DottedQuad octets text) :
    fromText text = fromBytes octets := quadBehind emptyPrefix quad

end Chambermaid.AddressQuad
