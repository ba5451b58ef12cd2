import Chambermaid.StringStream

/-! Log text and the rows made of it. The loop that splits long text measures it in its
body only, and the size it starts with already ends it. -/
namespace Chambermaid.LogText
open StringStream

abbrev Bytes := List UInt8

def maxLength : Nat := 255

structure Log where
  output : OStringStream UInt8
  rows : List Bytes
  deriving DecidableEq, Repr

def constructed : Log := ⟨.empty,[]⟩

-- One round of the loop in write_entry, with the size that it leaves.
def splitRound (l : Log) : Log × Nat :=
  let output := l.output.seekEnd
  let size := output.put
  if maxLength < size then
    let output := output.seekBegin
    let currentBuffer := output.str
    (⟨output.setStr (currentBuffer.drop maxLength),l.rows ++ [currentBuffer.take maxLength]⟩,size)
  else ({l with output := output},size)

theorem splitRoundLast {l : Log} (fits : l.output.str.length ≤ maxLength) :
    splitRound l = ({l with output := l.output.seekEnd},l.output.str.length) := by
  exact if_neg (Nat.not_lt.mpr fits)

theorem splitRoundRow {l : Log} (full : maxLength < l.output.str.length) :
    splitRound l = (⟨l.output.seekEnd.seekBegin.setStr (l.output.str.drop maxLength),
      l.rows ++ [l.output.str.take maxLength]⟩,l.output.str.length) := by
  exact if_pos full

def splitLoop (l : Log) (size : Nat) : Log :=
  if maxLength < size then splitLoop (splitRound l).1 (splitRound l).2 else l
termination_by (l.output.str.length,size)
decreasing_by
  rename_i going
  by_cases full : maxLength < l.output.str.length
  · rw [splitRoundRow full]
    apply Prod.Lex.left
    rw [OStringStream.setStrStr,List.length_drop]
    exact Nat.sub_lt (Nat.lt_of_le_of_lt (Nat.zero_le _) full) (by decide)
  · rw [splitRoundLast (Nat.not_lt.mp full)]
    apply Prod.Lex.right
    exact Nat.lt_of_le_of_lt (Nat.not_lt.mp full) going

def writeEntryIfFull (l : Log) : Log := splitLoop l maxLength

-- operator<<; the text is what the stream makes of the argument.
def stream (l : Log) (text : Bytes) : Log := writeEntryIfFull {l with output := l.output.write text}

def streamed (texts : List Bytes) : Log := texts.foldl stream constructed

structure Split (text : Bytes) (l : Log) : Prop where
  rows : ∀ row ∈ l.rows, row.length ≤ maxLength
  rest : l.output.str.length ≤ maxLength
  whole : l.rows.flatten ++ l.output.str = text

def SplitThroughout (texts : List Bytes) : Prop :=
  ∀ shown, shown <+: texts → Split shown.flatten (streamed shown)

theorem splitLoopSplits (l : Log) {size : Nat} (started : maxLength < size)
    {text : Bytes} (rows : ∀ row ∈ l.rows, row.length ≤ maxLength)
    (whole : l.rows.flatten ++ l.output.str = text) : Split text (splitLoop l size) := by
  induction l,size using splitLoop.induct with
  | case1 l size going ih =>
    rw [splitLoop,if_pos going]
    by_cases full : maxLength < l.output.str.length
    · rw [splitRoundRow full] at ih ⊢
      refine ih full ?_ ?_
      · intro row member
        rcases List.mem_append.mp member with before | added
        · exact rows row before
        · rw [List.mem_singleton.mp added,List.length_take]
          exact Nat.min_le_left _ _
      · rw [← whole]
        simp
    · have fits := Nat.not_lt.mp full
      rw [splitRoundLast fits,splitLoop,if_neg full]
      exact ⟨rows,fits,whole⟩
  | case2 l size stops => exact absurd started stops

/-! It is never started: the size it is given is the limit itself. -/
theorem writesNoEntry (l : Log) : writeEntryIfFull l = l := by
  unfold writeEntryIfFull
  rw [splitLoop,if_neg (Nat.lt_irrefl _)]

theorem streamedWhole (texts : List Bytes) :
    streamed texts = ⟨.collecting texts.flatten,[]⟩ := by
  have further : ∀ before : Bytes, texts.foldl stream ⟨.collecting before,[]⟩ =
      ⟨.collecting (before ++ texts.flatten),[]⟩ := by
    induction texts with
    | nil => simp
    | cons text texts ih =>
      intro before
      rw [List.foldl_cons,stream,writesNoEntry,OStringStream.collectingWrite,ih]
      simp
  unfold streamed constructed
  rw [OStringStream.emptyCollecting]
  exact further []

theorem streamedSplit (texts : List Bytes) :
    Split texts.flatten (streamed texts) ↔ texts.flatten.length ≤ maxLength := by
  rw [streamedWhole]
  constructor
  · exact Split.rest
  · intro short
    refine ⟨?_,short,rfl⟩
    intro row member
    contradiction

theorem longTextSplit (texts : List Bytes) :
    SplitThroughout texts ↔ texts.flatten.length ≤ maxLength := by
  constructor
  · intro all
    exact (streamedSplit texts).mp (all texts List.prefix_rfl)
  · rintro short shown ⟨later,rfl⟩
    refine (streamedSplit shown).mpr (Nat.le_trans ?_ short)
    rw [List.flatten_append,List.length_append]
    exact Nat.le_add_right _ _

theorem longTextKept : ¬ SplitThroughout [List.replicate 256 97] := by
  intro all
  have short := (streamedSplit _).mp (all _ List.prefix_rfl)
  rw [List.flatten_singleton,List.length_replicate] at short
  exact absurd short (by decide)

end Chambermaid.LogText
