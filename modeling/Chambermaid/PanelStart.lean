import Chambermaid.DaemonStart
import Chambermaid.Panel

/-! What the body of the panel's loop shows once the daemon has started, if it were run. The panel
reads the table that the daemon writes, by a group number that it has cut to one byte. -/
namespace Chambermaid.PanelStart
open Keyed DaemonStart Panel

-- The panel's SELECT on the table.
def selectLines (lcd : List LcdRow) (groupId : UInt8) : List Lines :=
  (withKey LcdRow.groupId groupId.toNat lcd).map
    fun row => ⟨row.lcdLine1,row.lcdLine2,row.lcdLine3,row.lcdLine4⟩

def reading (lcd : List LcdRow) (r : Request) : Request := {r with rows := selectLines lcd}

def answer : List Lines → List Action
  | [] => [.exitStatus 403,.finish]
  | lines::_ => [.contentType "application/json",.lines lines,.finish]

def Calm (r : Request) : Prop := ∀ c, r.failure c = none

theorem calmCall {r : Request} (calm : Calm r) (c : Call) (next : Handling) : call r c next = next := by
  unfold call
  rw [calm c]

theorem passedBody {r : Request} (passed : Passed r) (calm : Calm r) (lcd : List LcdRow) :
    body (reading lcd r) = answer (selectLines lcd (UInt8.ofInt r.group)) := by
  obtain ⟨secure,viewer⟩ := passed
  have open' : (r.secureOnly && !isSecure r.https) = false := by
    cases only : r.secureOnly with
    | false => rfl
    | true => rw [secure only]; rfl
  have quiet : Calm (reading lcd r) := calm
  have shut : (!viewStatus (reading lcd r).authority) = false := by
    rw [show viewStatus (reading lcd r).authority = true from viewer]
    rfl
  unfold body tryBlock answering
  simp only [calmCall quiet]
  rw [show ((reading lcd r).secureOnly && !isSecure (reading lcd r).https) = false from open',shut]
  dsimp only [reading]
  cases selectLines lcd (UInt8.ofInt r.group) with
  | nil => rfl
  | cons lines others => rfl

theorem startShown {varchar : String → Except String String} {line1 blank : String}
    (takes : Takes varchar line1 blank) (troubles : List (Nat → Trouble)) {lcd : List LcdRow}
    (unique : (lcd.map LcdRow.groupId).Nodup) (groups : List Nat) {t : Started}
    (started : initLcdLines varchar (fun _ => .free) ⟨afterStarts varchar groups troubles lcd,[]⟩ groups =
      (t,none)) {r : Request} (passed : Passed r) (calm : Calm r) :
    body (reading t.lcd r) =
      if (UInt8.ofInt r.group).toNat ∈ groups then answer [⟨line1,blank,blank,blank⟩]
      else body (reading lcd r) := by
  rw [comesFree takes,startsAgain takes] at started
  cases started
  rw [passedBody passed calm,passedBody passed calm]
  unfold selectLines
  split
  · rename_i member
    rw [groupShown line1 blank unique member]
    rfl
  · rename_i absent
    rw [groupKept line1 blank lcd absent]

def asking (group : Int) : Request := ⟨false,none,none,1,group,fun _ => [],fun _ => none⟩

theorem startShownSecond : ∃ t,
    initLcdLines cut (fun _ => .free) ⟨afterStarts cut [1,2] badStarts [],[]⟩ [1,2] = (t,none) ∧
    body (reading t.lcd (asking 258)) = [.contentType "application/json",
      .lines ⟨"Daemon starting ","","",""⟩,.finish] := by
  have started := @comesFree cut "Daemon starting " "" ⟨rfl,rfl⟩
    ⟨afterStarts cut [1,2] badStarts [],[]⟩ [1,2]
  refine ⟨_,started,?_⟩
  have empty : (([] : List LcdRow).map LcdRow.groupId).Nodup := List.nodup_nil
  exact @startShown cut "Daemon starting " "" ⟨rfl,rfl⟩ badStarts [] empty [1,2] _ started (asking 258)
    ⟨nofun,rfl⟩ (fun _ => rfl)

end Chambermaid.PanelStart
