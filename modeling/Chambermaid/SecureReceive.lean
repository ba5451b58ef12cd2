import Chambermaid.StringStream

/-! One `receive` on the secure session. The peer's data comes in pieces, and a piece that
does not fill the buffer is taken for the end of the message. -/
namespace Chambermaid.SecureReceive
open StringStream

abbrev Bytes := List UInt8

def maxLength : Nat := 1024

structure Piece where
  bytes : Bytes
  filled : bytes ≠ []
  fits : bytes.length ≤ maxLength
  deriving DecidableEq, Repr

inductive Read where
  | data (piece : Piece)
  | eof
  | shortRead
  | failed (ec : Nat)
  deriving DecidableEq, Repr

/-! A call returns, throws, or waits in a `read_some` that nothing answers. What is left are
the results it has not asked for. -/
inductive Received where
  | returned (inText : Bytes) (readTotal : Nat) (left : List Read)
  | throws (ec : Nat) (expr : String) (left : List Read)
  | waits
  deriving DecidableEq, Repr

def receiveLoop : List Read → OStringStream UInt8 → Nat → Received
  | [],_,_ => .waits
  | .data piece::results,inReader,readTotal =>
    let readTotal := readTotal + piece.bytes.length
    let inReader := inReader.write piece.bytes
    if piece.bytes.length < maxLength then .returned inReader.str readTotal results
    else receiveLoop results inReader readTotal
  | .eof::results,inReader,readTotal => .returned inReader.str readTotal results
  | .shortRead::results,inReader,readTotal => .returned inReader.str readTotal results
  | .failed ec::results,_,_ => .throws ec "Couldn't read from socket" results

def receive (results : List Read) : Received := receiveLoop results .empty 0

def message (pieces : List Piece) : Bytes := pieces.flatMap Piece.bytes

def ReceivesWhole (pieces : List Piece) (after : List Read) : Prop :=
  receive (pieces.map .data ++ after) = .returned (message pieces) (message pieces).length after

inductive ShortLast : List Piece → Prop where
  | last (piece : Piece) (short : piece.bytes.length < maxLength) : ShortLast [piece]
  | more (piece : Piece) (full : piece.bytes.length = maxLength) {pieces : List Piece}
      (rest : ShortLast pieces) : ShortLast (piece::pieces)

theorem receivesPieces {pieces : List Piece} (ends : ShortLast pieces) (after : List Read)
    (before : Bytes) (readTotal : Nat) :
    receiveLoop (pieces.map .data ++ after) (.collecting before) readTotal =
      .returned (before ++ message pieces) (readTotal + (message pieces).length) after := by
  induction ends generalizing before readTotal with
  | last piece short => simp [receiveLoop,message,short]
  | more piece full rest ih =>
    rw [List.map_cons,List.cons_append,receiveLoop,full,if_neg (Nat.lt_irrefl _),
      OStringStream.collectingWrite,ih]
    simp [message,full,Nat.add_assoc]

theorem leavesFewer {results left : List Read} {inReader : OStringStream UInt8} {readTotal total : Nat}
    {text : Bytes} (returned : receiveLoop results inReader readTotal = .returned text total left) :
    left.length < results.length := by
  induction results generalizing inReader readTotal with
  | nil => contradiction
  | cons result results ih =>
    cases result with
    | data piece =>
      simp only [receiveLoop] at returned
      split at returned
      · cases returned
        exact Nat.lt_succ_self _
      · exact Nat.lt_succ_of_lt (ih returned)
    | eof =>
      cases returned
      exact Nat.lt_succ_self _
    | shortRead =>
      cases returned
      exact Nat.lt_succ_self _
    | failed ec => contradiction

theorem leavesRest {pieces : List Piece} {after : List Read} {inReader : OStringStream UInt8}
    {readTotal total : Nat} {text : Bytes}
    (returned : receiveLoop (pieces.map .data ++ after) inReader readTotal =
      .returned text total after) : ShortLast pieces := by
  induction pieces generalizing inReader readTotal with
  | nil => exact absurd (leavesFewer returned) (Nat.lt_irrefl _)
  | cons piece pieces ih =>
    rw [List.map_cons,List.cons_append,receiveLoop] at returned
    split at returned
    · rename_i short
      obtain ⟨_,_,left⟩ := Received.returned.inj returned
      have none : pieces = [] := by
        have sizes := congrArg List.length left
        rw [List.length_append,List.length_map] at sizes
        exact List.eq_nil_of_length_eq_zero (by omega)
      rw [none]
      exact .last piece short
    · rename_i long
      have full := Nat.le_antisymm piece.fits (Nat.not_lt.mp long)
      exact .more piece full (ih returned)

theorem wholeMessage (pieces : List Piece) (after : List Read) :
    ReceivesWhole pieces after ↔ ShortLast pieces := by
  constructor
  · exact leavesRest
  · intro ends
    unfold ReceivesWhole receive
    rw [OStringStream.emptyCollecting,receivesPieces ends,List.nil_append,Nat.zero_add]

def letter (c : UInt8) : Piece := ⟨[c],List.cons_ne_nil _ _,(by decide : 1 ≤ maxLength)⟩

theorem twoPiecesCut : ¬ ReceivesWhole [letter 104,letter 105] [] := by
  intro whole
  have cut : receive ([letter 104,letter 105].map .data ++ []) = .returned [104] 1 [.data (letter 105)] :=
    rfl
  obtain ⟨_,_,left⟩ := Received.returned.inj (cut.symm.trans whole)
  contradiction

theorem multipleNever {pieces : List Piece} (ends : ShortLast pieces) :
    (message pieces).length % maxLength ≠ 0 := by
  induction ends with
  | last piece short =>
    have some := List.length_pos_iff.mpr piece.filled
    rw [message,List.flatMap_singleton,Nat.mod_eq_of_lt short]
    exact Nat.ne_of_gt some
  | more piece full rest ih =>
    rw [message,List.flatMap_cons,List.length_append,full,Nat.add_mod_left]
    exact ih

theorem fullWaits {pieces : List Piece} (full : ∀ piece ∈ pieces, piece.bytes.length = maxLength)
    (inReader : OStringStream UInt8) (readTotal : Nat) :
    receiveLoop (pieces.map .data) inReader readTotal = .waits := by
  induction pieces generalizing inReader readTotal with
  | nil => rfl
  | cons piece pieces ih =>
    obtain ⟨here,others⟩ := List.forall_mem_cons.mp full
    rw [List.map_cons,receiveLoop,here,if_neg (Nat.lt_irrefl _)]
    exact ih others _ _

end Chambermaid.SecureReceive
