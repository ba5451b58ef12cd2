import Chambermaid.SerialText
import Chambermaid.LinkReplies

/-! A record on its way over the wire: written as JSON, framed with its letter, cut from the
queue, stripped, parsed and decoded. The line feed FastWriter ends its text with is the frame's. -/
namespace Chambermaid.SerialWire
open Json Serial SerialText SerialReply Runs
open SerialProtocol (Reply WellFormed)

def versionRoot (lib : Library) (f : FwVersionInfo) : Value :=
  Value.null
    |> setMember lib "v" f.version
    |> setMember lib "y" f.isSimulator
    |> setMember lib "b" f.board
    |> setMember lib "s" f.shield
    |> setMember lib "l" f.log
    |> setMember lib "n" f.build
    |> setMember lib "c" f.commit

def rootOf (lib : Library) : Record → Value
  | .version f => versionRoot lib f
  | .temperatures t => temperaturesRoot lib t
  | .controlSettings s => controlSettingsRoot lib s
  | .controlConstants c => controlConstantsRoot lib c
  | .controlVariables v => controlVariablesRoot lib v

def kindOf : Record → Kind
  | .version _ => .version
  | .temperatures _ => .temperatures
  | .controlSettings _ => .controlSettings
  | .controlConstants _ => .controlConstants
  | .controlVariables _ => .controlVariables

section
variable (lib : Library) (write : Value → Bytes)

def versionText (f : FwVersionInfo) : Bytes := write (versionRoot lib f)

def textOf : Record → Bytes
  | .version f => versionText lib write f
  | .temperatures t => temperaturesText lib write t
  | .controlSettings s => controlSettingsText lib write s
  | .controlConstants c => controlConstantsText lib write c
  | .controlVariables v => controlVariablesText lib write v

end

/-! The reader may give a number in another representation; anything else it gives as it was. -/
def Alike (v w : Value) : Prop := Same v w ∨ v = w

/- The text is one line with its line feed, and the reader takes the line as the members of
the record. -/
structure Carries (lib : Library) (text : Bytes) (root : Value) : Prop where
  line : ∃ body, text = body ++ [newline] ∧ body ≠ [] ∧ newline ∉ body ∧ carriageReturn ∉ body
  read : ∃ members, lib.parse text.dropLast = some (.object members) ∧
    ∀ key, Option.Rel Alike ((membersOf root).lookup key) (members.lookup key)

def AlikeVersions (f g : FwVersionInfo) : Prop :=
  Alike f.version g.version ∧ Alike f.isSimulator g.isSimulator ∧ Alike f.log g.log ∧
  Alike f.build g.build ∧ Alike f.commit g.commit ∧ Alike f.shield g.shield ∧ Alike f.board g.board

def Back : Record → Record → Prop
  | .version f,.version g => AlikeVersions f g
  | .temperatures t,.temperatures u => u = {t with roomTemp := 0}
  | .controlSettings s,.controlSettings u => u = s
  | .controlConstants c,.controlConstants d => d = unwritten c
  | .controlVariables v,.controlVariables u => u = v
  | _,_ => False

theorem variablesScalars (lib : Library) (v : ControlVariables) :
    Scalars (controlVariablesRoot lib v) := by
  unfold controlVariablesRoot
  repeat refine scalarsSet ?_ (.number rfl rfl) _
  exact scalarsNull

theorem alikeMembers {root : Value} (scalars : Scalars root) {members : List (String × Value)}
    (alike : ∀ key, Option.Rel Alike ((membersOf root).lookup key) (members.lookup key)) (key : String) :
    SameMember ((membersOf root).lookup key) (members.lookup key) := by
  have here := alike key
  cases found : (membersOf root).lookup key with
  | none =>
    rw [found] at here
    cases read : members.lookup key with
    | none => exact .absent
    | some w =>
      rw [read] at here
      cases here
  | some v =>
    rw [found] at here
    cases read : members.lookup key with
    | none =>
      rw [read] at here
      cases here
    | some w =>
      rw [read] at here
      cases here with
      | some either =>
        rcases either with same | rfl
        · exact .present same
        · exact .present (scalars key v found)

theorem alikeGet (lib : Library) {root v : Value} {members : List (String × Value)} (key : String)
    (alike : ∀ key, Option.Rel Alike ((membersOf root).lookup key) (members.lookup key))
    (written : (membersOf root).lookup key = some v) (defaultValue : Value) :
    ∃ w, lib.get (.object members) key defaultValue = .ok w ∧ Alike v w := by
  have here := alike key
  rw [written] at here
  cases read : members.lookup key with
  | none =>
    rw [read] at here
    cases here
  | some w =>
    rw [read] at here
    cases here with
    | some either =>
      refine ⟨w,?_,either⟩
      rw [lib.getMember key defaultValue rfl]
      simp [membersOf,read]

theorem versionDecoded {lib : Library} {f : FwVersionInfo} {members : List (String × Value)}
    (alike : ∀ key, Option.Rel Alike ((membersOf (versionRoot lib f)).lookup key) (members.lookup key)) :
    ∃ g, fwVersionInfo lib (.object members) = .ok g ∧ AlikeVersions f g := by
  obtain ⟨version,v,first⟩ := alikeGet (v := f.version) lib "v" alike (by simp [versionRoot]) .null
  obtain ⟨simulator,y,second⟩ := alikeGet (v := f.isSimulator) lib "y" alike
    (by simp [versionRoot]) (.boolean false)
  obtain ⟨log,l,third⟩ := alikeGet (v := f.log) lib "l" alike (by simp [versionRoot]) (.string [])
  obtain ⟨build,n,fourth⟩ := alikeGet (v := f.build) lib "n" alike (by simp [versionRoot]) (.string [])
  obtain ⟨commit,c,fifth⟩ := alikeGet (v := f.commit) lib "c" alike (by simp [versionRoot]) (.string [])
  obtain ⟨shield,s,sixth⟩ := alikeGet (v := f.shield) lib "s" alike (by simp [versionRoot]) (.string [])
  obtain ⟨board,b,last⟩ := alikeGet (v := f.board) lib "b" alike (by simp [versionRoot]) (.string [])
  refine ⟨⟨version,simulator,log,build,commit,shield,board⟩,?_,first,second,third,fourth,fifth,sixth,last⟩
  have member : lib.member (.object members) "v" = .ok version := by
    rw [lib.memberIs "v" rfl,← v,lib.getMember "v" .null rfl]
    rfl
  unfold fwVersionInfo
  rw [member,y,l,n,c,s,b]
  rfl

theorem recordDecoded {lib : Library} (converts : Converts lib) (r : Record)
    {members : List (String × Value)} (alike : ∀ key,
      Option.Rel Alike ((membersOf (rootOf lib r)).lookup key) (members.lookup key)) :
    ∃ record, decode lib (kindOf r) (.object members) = .ok record ∧ Back r record := by
  cases r with
  | version f =>
    obtain ⟨g,decoded,back⟩ := versionDecoded alike
    exact ⟨.version g,congrArg (Record.version <$> ·) decoded,back⟩
  | temperatures t =>
    have decoded := temperaturesDecoded converts (alikeMembers (temperaturesScalars lib t) alike)
    exact ⟨_,congrArg (Record.temperatures <$> ·) decoded,rfl⟩
  | controlSettings s =>
    have decoded := settingsDecoded converts (alikeMembers (settingsScalars lib s) alike)
    exact ⟨_,congrArg (Record.controlSettings <$> ·) decoded,rfl⟩
  | controlConstants c =>
    have decoded := constantsDecoded converts (alikeMembers (constantsScalars lib c) alike)
    exact ⟨_,congrArg (Record.controlConstants <$> ·) decoded,rfl⟩
  | controlVariables v =>
    have decoded := variablesDecoded converts (alikeMembers (variablesScalars lib v) alike)
    exact ⟨_,congrArg (Record.controlVariables <$> ·) decoded,rfl⟩

/-! A record sent as a reply: its letter, a colon and its text, before whose line feed there may
stand a carriage return. -/
structure Sent where
  record : Record
  returned : Bool

section
variable (lib : Library) (write : Value → Bytes)

def Sent.framed (r : Sent) : Bytes :=
  replyLetter (kindOf r.record)::58::
    (if r.returned then (textOf lib write r.record).dropLast ++ [carriageReturn,newline]
    else textOf lib write r.record)

def Sent.reply (r : Sent) : Reply := ⟨kindOf r.record,(textOf lib write r.record).dropLast,r.returned⟩

def Sendable (r : Sent) : Prop := Carries lib (textOf lib write r.record) (rootOf lib r.record)

def wireStream (sent : List Sent) : Bytes := sent.flatMap (Sent.framed lib write)

end

theorem framedLine {lib : Library} {write : Value → Bytes} {r : Sent} (sendable : Sendable lib write r) :
    r.framed lib write = (r.reply lib write).line ++ [newline] := by
  obtain ⟨body,ends,_⟩ := sendable.line
  unfold Sent.framed Sent.reply Reply.line
  dsimp only
  rw [ends,List.dropLast_concat]
  cases r.returned <;> simp

theorem sendableFormed {lib : Library} {write : Value → Bytes} {r : Sent}
    (sendable : Sendable lib write r) : WellFormed lib (r.reply lib write) := by
  obtain ⟨body,ends,something,oneLine,plain⟩ := sendable.line
  obtain ⟨members,parsed,_⟩ := sendable.read
  have object : lib.parse (r.reply lib write).body = some (.object members) := parsed
  have same : (r.reply lib write).body = body := by
    unfold Sent.reply
    dsimp only
    rw [ends,List.dropLast_concat]
  rw [same] at object
  unfold WellFormed
  rw [same,object]
  exact ⟨something,oneLine,plain,rfl⟩

theorem lineAnswered {lib : Library} {write : Value → Bytes} (converts : Converts lib) {r : Sent}
    (sendable : Sendable lib write r) :
    ∃ record, answered lib (kindOf r.record) (stripCarriageReturn (r.reply lib write).line) = .ret record ∧
      Back r.record record := by
  obtain ⟨members,parsed,alike⟩ := sendable.read
  obtain ⟨record,decoded,back⟩ := recordDecoded converts r.record alike
  obtain ⟨root,read,answers⟩ := SerialProtocol.answeredOwn (sendableFormed sendable)
  cases parsed.symm.trans read
  refine ⟨record,?_,back⟩
  have own : decode lib (r.reply lib write).kind (.object members) = .ok record := decoded
  exact answers.trans (by rw [own]; rfl)

theorem callReads {lib : Library} {r : Reply} (formed : WellFormed lib r) {record : Record}
    (answers : answered lib r.kind (stripCarriageReturn r.line) = .ret record) :
    Run Io.step Anything (call lib r.kind) [.wrote,.line r.line] (.ret record) := by
  rw [← answers]
  by_cases version : r.kind = .version
  · have letter : (stripCarriageReturn r.line).head? = some 78 := by
      rw [SerialProtocol.stripLine formed,version]
      rfl
    rw [version,callVersion]
    refine .next trivial rfl ?_
    rw [versionReads lib 9 (by simp),← @versionEnds lib 9 _ (.inr letter)]
    exact .next trivial (congrArg some (if_neg (List.cons_ne_nil _ _))) (.done _)
  · rw [callRequest lib version]
    exact .next trivial rfl (.next trivial rfl (.done _))

theorem lineWaits {s : AsyncImpl.State} {line : Bytes} (clear : s.error = none)
    (clean : newline ∉ line) (queued : s.readQueue = line ++ [newline]) :
    AsyncImpl.readStringUntil s [newline] = .ok (none,s) := by
  have least := (Occurrence.terminatedFirst clean []).2
  rw [← queued] at least
  refine AsyncRead.readNothing clear fun i early => least i ?_
  rw [queued,List.length_append,List.length_singleton] at early
  omega

inductive Served (lib : Library) : AsyncImpl.State → List Sent → List Record → AsyncImpl.State → Prop where
  | done (s : AsyncImpl.State) : Served lib s [] [] s
  | next {s t u : AsyncImpl.State} {r : Sent} {record : Record} {sent : List Sent}
      {records : List Record} {line : Bytes}
      (taken : AsyncImpl.readStringUntil s [newline] = .ok (some line,t))
      (returns : Run Io.step Anything (call lib (kindOf r.record)) [.wrote,.line line] (.ret record))
      (rest : Served lib t sent records u) : Served lib s (r::sent) (record::records) u

theorem streamServed {lib : Library} {write : Value → Bytes} (converts : Converts lib)
    {sent : List Sent} (sendable : ∀ r ∈ sent, Sendable lib write r) {rest : Bytes} (behind : rest ≠ []) :
    ∀ {s : AsyncImpl.State}, s.error = none → s.readQueue = wireStream lib write sent ++ rest →
    ∃ records t, Served lib s sent records t ∧
      List.Forall₂ Back (sent.map Sent.record) records ∧ t.error = none ∧ t.readQueue = rest := by
  induction sent with
  | nil =>
    intro s clear queued
    exact ⟨[],s,.done s,.nil,clear,queued⟩
  | cons r sent ih =>
    intro s clear queued
    obtain ⟨first,others⟩ := List.forall_mem_cons.mp sendable
    have front : s.readQueue = (r.reply lib write).line ++ newline::(wireStream lib write sent ++ rest) := by
      rw [queued]
      simp [wireStream,framedLine first]
    have more : wireStream lib write sent ++ rest ≠ [] := fun empty =>
      behind (List.append_eq_nil_iff.mp empty).2
    have taken := SerialProtocol.lineReadable (sendableFormed first) clear front more
    obtain ⟨record,answers,back⟩ := lineAnswered converts first
    have returns := callReads (sendableFormed first) answers
    obtain ⟨records,t,served,backs,left⟩ := ih others (s := AsyncRead.taking s [newline] _ _) clear rfl
    exact ⟨record::records,t,.next taken returns served,.cons back backs,left⟩

theorem wireSurvives {lib : Library} {write : Value → Bytes} (converts : Converts lib)
    {sent : List Sent} (sendable : ∀ r ∈ sent, Sendable lib write r) {rest : Bytes}
    {s : AsyncImpl.State} (clear : s.error = none) (queued : s.readQueue = wireStream lib write sent ++ rest) :
    (rest ≠ [] → ∃ records t, Served lib s sent records t ∧
      List.Forall₂ Back (sent.map Sent.record) records ∧ t.readQueue = rest) ∧
    (rest = [] → ∀ front last, sent = front ++ [last] → ∃ records t, Served lib s front records t ∧
      List.Forall₂ Back (front.map Sent.record) records ∧
      AsyncImpl.readStringUntil t [newline] = .ok (none,t)) := by
  constructor
  · intro behind
    obtain ⟨records,t,served,backs,_,left⟩ := streamServed converts sendable behind clear queued
    exact ⟨records,t,served,backs,left⟩
  · rintro rfl front last rfl
    have final := sendable last (List.mem_append_right _ List.mem_cons_self)
    have split : s.readQueue = wireStream lib write front ++ ((last.reply lib write).line ++ [newline]) := by
      rw [queued]
      simp [wireStream,framedLine final]
    have more : (last.reply lib write).line ++ [newline] ≠ [] := fun empty =>
      absurd (List.append_eq_nil_iff.mp empty).2 (List.cons_ne_nil newline [])
    obtain ⟨records,t,served,backs,clear,left⟩ := streamServed converts
      (fun r member => sendable r (List.mem_append_left _ member)) more clear split
    have whole := LinkReplies.wholeLine (sendableFormed final)
    exact ⟨records,t,served,backs,lineWaits clear whole left⟩

def simulated : FwVersionInfo := {version := .string [48,46,50],isSimulator := .boolean true}

def simulatedLine : Bytes :=
  [123,34,98,34,58,110,117,108,108,44,34,99,34,58,110,117,108,108,44,34,108,34,58,110,117,108,108,
    44,34,110,34,58,110,117,108,108,44,34,115,34,58,110,117,108,108,44,34,118,34,58,34,48,46,50,
    34,44,34,121,34,58,116,114,117,101,125]

def simulatedText (_ : Value) : Bytes := simulatedLine ++ [newline]

def simulatedTwice : List Sent := [⟨.version simulated,true⟩,⟨.version simulated,false⟩]

theorem readingCarries {line : Bytes} {root : Library → Value}
    (same : root (reading line root) = root silent)
    (built : root silent = .object (membersOf (root silent)))
    (something : line ≠ []) (oneLine : newline ∉ line) (plain : carriageReturn ∉ line) :
    Carries (reading line root) (line ++ [newline]) (root (reading line root)) := by
  refine ⟨⟨line,rfl,something,oneLine,plain⟩,membersOf (root silent),?_,fun key => ?_⟩
  · rw [List.dropLast_concat]
    exact (if_pos rfl).trans (congrArg some built)
  · rw [same]
    cases (membersOf (root silent)).lookup key with
    | none => exact .none
    | some v => exact .some (.inr rfl)

def simulatedLibrary : Library := reading simulatedLine (versionRoot · simulated)

theorem simulatedSendable : ∀ r ∈ simulatedTwice, Sendable simulatedLibrary simulatedText r := by
  have carries : Carries simulatedLibrary (simulatedLine ++ [newline])
      (versionRoot simulatedLibrary simulated) :=
    readingCarries rfl rfl (by decide) (by decide) (by decide)
  exact List.forall_mem_cons.mpr ⟨carries,List.forall_mem_singleton.mpr carries⟩

theorem wireSurvivesTwice : ∃ records t,
    Served simulatedLibrary
      {AsyncImpl.opened with readQueue := wireStream simulatedLibrary simulatedText simulatedTwice}
      [⟨.version simulated,true⟩] records t ∧
    List.Forall₂ Back [.version simulated] records ∧
    AsyncImpl.readStringUntil t [newline] = .ok (none,t) :=
  have converts : Converts simulatedLibrary := documentedConverts _ _
  (wireSurvives converts simulatedSendable rfl (List.append_nil _).symm).2 rfl
    [⟨.version simulated,true⟩] _ rfl

end Chambermaid.SerialWire
