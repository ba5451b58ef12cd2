import Chambermaid.CStdlib
import Chambermaid.Locations

/-! IPv6 addresses, with IPv4 mapped into `::ffff:0:0/96`: construction from text
and from raw bytes, printing, and prefix masks. The two members of a netmask are
the values given to its constructor. -/
namespace Chambermaid.Address
open Digits CStdlib Locations

abbrev Bytes := List UInt8

structure Ip where
  data : Bytes
  size : data.length = 16
  deriving DecidableEq, Repr

-- `undefined` is a read outside a container or of a variable never assigned.
inductive Outcome (α : Type) where
  | value (result : α)
  | invalidArgument (what : String)
  | undefined
  deriving DecidableEq, Repr

def byte (d : Ip) (i : Nat) : UInt8 := d.data.getD i 0

def mapped (a b c e : UInt8) : Ip :=
  ⟨[0,0,0,0,0,0,0,0,0,0,0xFF,0xFF,a,b,c,e],rfl⟩

/-! Prefix masks. `onesLoop` is the first loop of `ip_from_cidr`; its first
argument is the room left in the array, `16 - i`. -/
def onesLoop : Nat → UInt8 → Bytes → UInt8 × Bytes
  | 0,cidr,ret => (cidr,ret)
  | room+1,cidr,ret =>
      if 8 < cidr then onesLoop room (cidr - 8) (ret ++ [0xFF]) else (cidr,ret)

def maskBytes (cidr : UInt8) : Bytes :=
  let (cidr,ret) := onesLoop 16 cidr []
  let ret := if ret.length < 16 then ret ++ [~~~cidr] else ret
  ret ++ List.replicate (16 - ret.length) 0

theorem onesLoopRoom (room : Nat) (cidr : UInt8) (ret : Bytes) :
    (onesLoop room cidr ret).2.length ≤ ret.length + room := by
  induction room generalizing cidr ret with
  | zero => simp [onesLoop]
  | succ room ih =>
    unfold onesLoop
    split
    · have bound := ih (cidr - 8) (ret ++ [0xFF])
      simp only [List.length_append,List.length_singleton] at bound
      omega
    · dsimp only; omega

theorem maskBytesSize (cidr : UInt8) : (maskBytes cidr).length = 16 := by
  have room := onesLoopRoom 16 cidr []
  simp only [List.length_nil,Nat.zero_add] at room
  unfold maskBytes
  dsimp only
  split
  · simp only [List.length_append,List.length_singleton,List.length_replicate]; omega
  · simp only [List.length_append,List.length_replicate]; omega

def ipFromCidr (cidr : UInt8) : Ip := ⟨maskBytes cidr,maskBytesSize cidr⟩

structure Netmask where
  ip : Ip
  mask : Ip
  deriving DecidableEq, Repr

def netmask (ip : Ip) (cidr : UInt8) : Netmask := ⟨ip,ipFromCidr cidr⟩

def maskedEqual : Bytes → Bytes → Bytes → Bool
  | nm::nms,lhs::lhss,rhs::rhss =>
      if nm &&& lhs ≠ nm &&& rhs then false else maskedEqual nms lhss rhss
  | _,_,_ => true

-- netmask::operator==
def Netmask.matches (m : Netmask) (rhs : Ip) : Bool := maskedEqual m.mask.data m.ip.data rhs.data

def ipv4Map : Netmask := netmask (mapped 0 0 0 0) 96

def inputHexPair (s : Text) : Option (UInt8 × UInt8) :=
  if s = [] then some (0,0) else (sscanfHex s).map (fun p => (UInt8.ofNat (p >>> 8),UInt8.ofNat p))

-- The loop over hex_pairs[i]; none past the end of the vector or at an unassigned p.
def inputPairs : (count : Nat) → List Text → Option {data : Bytes // data.length = 2 * count}
  | 0,_ => some ⟨[],rfl⟩
  | _+1,[] => none
  | count+1,s::rest => do
      let (a,b) ← inputHexPair s
      let tail ← inputPairs count rest
      some ⟨a::b::tail.val,by simp [tail.property]; omega⟩

structure HexPairs where
  pairs : List Text
  hasInserted : Bool
  deriving DecidableEq, Repr

def pushPiece (colons : Nat) (st : HexPairs) (p : Text) : HexPairs :=
  if p = [] then
    if st.hasInserted then ⟨st.pairs ++ [[]],true⟩
    else ⟨st.pairs ++ List.replicate (8 - colons) [],true⟩
  else ⟨st.pairs ++ [p],st.hasInserted⟩

def hexPairs (s : Text) (colons : List Nat) : List Text :=
  ((between s colons).foldl (pushPiece colons.length) ⟨[slice s 0 (colons.headD 0)],false⟩).pairs

def octet (s : Text) : UInt8 := UInt8.ofInt (atoi s)

-- ip::ip(const char*)
def fromText (text : Text) : Outcome Ip :=
  let s := cStr text
  let dots := locations '.' 0 s
  let colons := locations ':' 0 s
  if quad : dots.length = 3 then
    let first := if 2 ≤ colons.length then s.drop (colons.getLastD 0 + 1) else s
    .value ⟨[0,0,0,0,0,0,0,0,0,0,0xFF,0xFF,octet first] ++ dots.map (fun dot => octet (s.drop (dot+1))),
      by simp [quad]⟩
  else if 2 ≤ colons.length ∧ colons.length ≤ 8 then
    match inputPairs 8 (hexPairs s colons) with
    | some data => .value ⟨data.val,data.property⟩
    | none => .undefined
  else .invalidArgument ("Invalid number of .(" ++ toString dots.length ++ ") or :(" ++
    toString colons.length ++ ") from ip " ++ String.ofList s)

-- ip::ip(const std::string&)
def fromBytes (d : Bytes) : Outcome Ip :=
  if full : d.length = 16 then .value ⟨d,full⟩
  else if short : d.length = 4 then
    .value ⟨[0,0,0,0,0,0,0,0,0,0,0xFF,0xFF] ++ d,by simp [short]⟩
  else .invalidArgument ("Invalid length(" ++ toString d.length ++
    ") for util::ip(const std::string&). Expected 4 or 16.")

def value (d : Ip) : Bytes := d.data

/-! Printing. Positions are byte indexes; `currentStart = 16` means no run is open. -/
structure Runs where
  longestStart : Nat
  longestEnd : Nat
  currentStart : Nat
  deriving DecidableEq, Repr

def scanGroup (d : Ip) (r : Runs) (i : Nat) : Runs :=
  if r.currentStart < 16 then
    if byte d i ≠ 0 ∨ byte d (i+1) ≠ 0 then
      if r.longestEnd - r.longestStart < i - r.currentStart - 1 then ⟨r.currentStart,i,16⟩
      else ⟨r.longestStart,r.longestEnd,16⟩
    else r
  else if byte d i = 0 ∧ byte d (i+1) = 0 then ⟨r.longestStart,r.longestEnd,i⟩
  else r

def scanRuns (d : Ip) (count : Nat) : Runs := (List.range' 0 count 2).foldl (scanGroup d) ⟨0,0,16⟩

def longestRun (d : Ip) : Nat × Nat :=
  let r := scanRuns d 8
  if r.currentStart < 16 then (r.currentStart,16) else (r.longestStart,r.longestEnd)

def group (d : Ip) (i : Nat) : Nat := (byte d i).toNat <<< 8 ||| (byte d (i+1)).toNat

def groupTexts (d : Ip) (start stop : Nat) : List Text :=
  (List.range' start ((stop - start + 1) / 2) 2).map (fun i => printHex (group d i))

def segments (d : Ip) : List Text :=
  let (start,stop) := longestRun d
  let gap : List Text := if start ≠ stop then
    [[]] ++ (if start = 0 then [[]] else []) ++ (if stop = 16 then [[]] else []) else []
  groupTexts d 0 start ++ gap ++ groupTexts d stop 16

def quadText (a b c e : UInt8) : Text :=
  printUnsigned a.toNat ++ '.' :: (printUnsigned b.toNat ++ '.' :: (printUnsigned c.toNat ++
    '.' :: printUnsigned e.toNat))

-- ip::to_string
def toText (d : Ip) : Text :=
  if ipv4Map.matches d then quadText (byte d 12) (byte d 13) (byte d 14) (byte d 15)
  else [':'].intercalate (segments d)

theorem quadTextFits (a b c e : UInt8) : (quadText a b c e).length ≤ 15 := by
  have ha := printedOctetShort a.toNat_lt
  have hb := printedOctetShort b.toNat_lt
  have hc := printedOctetShort c.toNat_lt
  have he := printedOctetShort e.toNat_lt
  simp only [quadText,List.length_append,List.length_cons]
  omega

end Chambermaid.Address
