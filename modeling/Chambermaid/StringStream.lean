/-! String streams that are written to: what they hold and where the next character goes. -/
namespace Chambermaid.StringStream
variable {α : Type}

structure OStringStream (α : Type) where
  str : List α
  put : Nat
  inside : put ≤ str.length
  deriving DecidableEq, Repr

namespace OStringStream

def empty : OStringStream α := ⟨[],0,Nat.le_refl 0⟩

-- Characters behind the position are written over.
def write (s : OStringStream α) (text : List α) : OStringStream α :=
  ⟨s.str.take s.put ++ text ++ s.str.drop (s.put + text.length),s.put + text.length,by
    have inside := s.inside
    simp only [List.length_append,List.length_take,List.length_drop]
    omega⟩

def seekBegin (s : OStringStream α) : OStringStream α := ⟨s.str,0,Nat.zero_le _⟩

def seekEnd (s : OStringStream α) : OStringStream α := ⟨s.str,s.str.length,Nat.le_refl _⟩

-- A stream that was not opened to append stands at the begin of its new text.
def setStr (_ : OStringStream α) (text : List α) : OStringStream α := ⟨text,0,Nat.zero_le _⟩

@[simp] theorem setStrStr (s : OStringStream α) (text : List α) : (s.setStr text).str = text := rfl

def collecting (text : List α) : OStringStream α := ⟨text,text.length,Nat.le_refl _⟩

@[simp] theorem collectingStr (text : List α) : (collecting text).str = text := rfl

theorem emptyCollecting : (empty : OStringStream α) = collecting [] := rfl

@[simp] theorem collectingWrite (text more : List α) :
    (collecting text).write more = collecting (text ++ more) := by
  simp [collecting,write]

end OStringStream
end Chambermaid.StringStream
