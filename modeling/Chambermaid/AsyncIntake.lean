import Chambermaid.AsyncReopen

/-! Input never stalls. In an open session whose reads do not fail one read is always on its
way, so whatever the device has next can be in the queue a few steps later. -/
namespace Chambermaid.AsyncIntake
open Runs AsyncImpl AsyncStep AsyncWrite AsyncSession AsyncReopen

def Faultless (_ : State) (e : Event) : Prop := ¬ Opens e ∧ ∀ ec, e ≠ .readFails ec

def arriving : Handler → Bytes
  | .finishRead none arrived => arrived
  | _ => []

def held (s : State) : Bytes := ((readSide s).handlers.map arriving).flatten

structure Flows (s : State) : Prop where
  reading : Reading s
  runs : s.running = true
  one : (readSide s).handlers.length + (readSide s).reads = 1
  clean : ∀ ec arrived, Handler.finishRead (some ec) arrived ∉ s.posted

theorem postClean {s : State} (clean : ∀ ec arrived, Handler.finishRead (some ec) arrived ∉ s.posted)
    {h : Handler} (other : ∀ ec arrived, h ≠ .finishRead (some ec) arrived) :
    ∀ ec arrived, Handler.finishRead (some ec) arrived ∉ (post s h).posted := by
  intro ec arrived member
  rcases List.mem_append.mp member with old | new
  · exact clean ec arrived old
  · exact other ec arrived (List.mem_singleton.mp new).symm

theorem eraseClean {s : State} (clean : ∀ ec arrived, Handler.finishRead (some ec) arrived ∉ s.posted)
    (h : Handler) : ∀ ec arrived, Handler.finishRead (some ec) arrived ∉ s.posted.erase h :=
  fun ec arrived member => clean ec arrived (List.mem_of_mem_erase member)

theorem handledClean {s t : State} {h : Handler} (open' : s.portOpen = true)
    (clean : ∀ ec arrived, Handler.finishRead (some ec) arrived ∉ s.posted)
    (handled : Handled {s with posted := s.posted.erase h} h t) :
    ∀ ec arrived, Handler.finishRead (some ec) arrived ∉ t.posted := by
  have rest := eraseClean clean h
  cases handled with
  | readRefused shut => exact absurd open' (Bool.eq_false_iff.mp shut)
  | writeRefused shut => exact absurd open' (Bool.eq_false_iff.mp shut)
  | appends arrived => exact postClean rest (fun _ _ same => by cases same)
  | refills moved _ => exact postClean rest (fun _ _ same => by cases same)
  | _ => exact rest

theorem stepClean {s t : State} {e : Event} (faultless : Faultless s e) (open' : s.portOpen = true)
    (clean : ∀ ec arrived, Handler.finishRead (some ec) arrived ∉ s.posted)
    (moved : step s e = some t) : ∀ ec arrived, Handler.finishRead (some ec) arrived ∉ t.posted := by
  cases stepped moved with
  | closes closes => exact absurd trivial faultless.1
  | opens closes outcome => exact absurd trivial faultless.1
  | readFails ec _ => exact absurd rfl (faultless.2 ec)
  | runs h _ _ _ handled => exact handledClean open' clean handled
  | buffers range _ _ => exact postClean clean (fun _ _ same => by cases same)
  | arrives chunk _ => exact postClean clean (fun _ _ same => by cases same)
  | transfers u _ => exact postClean clean (fun _ _ same => by cases same)
  | writeFails u ec _ => exact postClean clean (fun _ _ same => by cases same)
  | _ => exact clean

theorem flowsKept {s t : State} {e : Event} (flows : Flows s) (faultless : Faultless s e)
    (moved : step s e = some t) : Flows t := by
  obtain ⟨reading,runs,one,clean⟩ := flows
  have never : ∀ ec arrived, e = .run (.finishRead (some ec) arrived) → False := by
    intro ec arrived same
    subst same
    cases stepped moved with
    | runs _ _ _ posted _ => exact clean ec arrived posted
  have moves : Reads False (readSide s) (readSide t) :=
    stepReads faultless.1 never (fun _ => reading.2) moved
  have later := readingKept reading faultless.1 moved
  have least := readsKept moves
  have most := stageOne later.1.stage
  obtain ⟨running,_,_⟩ := Port.mk.inj (stepPort faultless.1 moved)
  exact ⟨later,running.trans runs,by omega,stepClean faultless reading.2 clean moved⟩

theorem openedFlows : Flows opened := by
  have posted : opened.posted = [.startRead] := rfl
  refine ⟨openedReading,rfl,rfl,fun ec arrived member => ?_⟩
  rw [posted] at member
  cases List.mem_singleton.mp member

theorem startMoves {s : State} (runs : s.running = true) (open' : s.portOpen = true)
    (posted : .startRead ∈ s.posted) : ∃ t, step s (.run .startRead) = some t ∧
      t.running = true ∧ t.portOpen = true ∧ 0 < t.reads ∧ t.readQueue = s.readQueue := by
  refine ⟨_,runStep runs posted,?_⟩
  simp only [handle,startRead,asyncRead,open',if_true]
  exact ⟨runs,trivial,Nat.succ_pos _,trivial⟩

theorem chunkMoves {s : State} (outstanding : 0 < s.reads) (chunk : Chunk) :
    ∃ t, step s (.readCompletes chunk) = some t ∧ .finishRead none chunk.bytes ∈ t.posted ∧
      t.readBuffer.bytes.take chunk.bytes.length = chunk.bytes ∧
      t.running = s.running ∧ t.portOpen = s.portOpen ∧ t.readQueue = s.readQueue := by
  refine ⟨_,if_pos outstanding,?_,fillTake s.readBuffer chunk,rfl,rfl,rfl⟩
  exact List.mem_append_right _ (List.mem_singleton.mpr rfl)

theorem appendMoves {s : State} (runs : s.running = true) {arrived : Bytes}
    (posted : .finishRead none arrived ∈ s.posted)
    (holds : s.readBuffer.bytes.take arrived.length = arrived) :
    ∃ t, step s (.run (.finishRead none arrived)) = some t ∧ .startRead ∈ t.posted ∧
      t.running = true ∧ t.portOpen = s.portOpen ∧ t.readQueue = s.readQueue ++ arrived := by
  refine ⟨_,runStep runs posted,?_,runs,rfl,?_⟩
  · exact List.mem_append_right _ (List.mem_singleton.mpr rfl)
  · simp only [handle,finishRead,post,holds]

def Arrives (s : State) (steps : Nat) (more : Bytes) : Prop := ∃ events t,
  events.length ≤ steps ∧ Run step Faultless s events t ∧ t.readQueue = s.readQueue ++ more

theorem arrivesNext {s t : State} {e : Event} {first more : Bytes} {steps : Nat}
    (faultless : Faultless s e) (moved : step s e = some t)
    (queue : t.readQueue = s.readQueue ++ first) (rest : Arrives t steps more) :
    Arrives s (steps + 1) (first ++ more) := by
  obtain ⟨events,u,few,run,whole⟩ := rest
  refine ⟨e::events,u,Nat.succ_le_succ few,.next faultless moved run,?_⟩
  rw [whole,queue,List.append_assoc]

theorem runFaultless (s : State) (h : Handler) : Faultless s (.run h) :=
  ⟨id,fun _ same => by cases same⟩

theorem chunkFaultless (s : State) (chunk : Chunk) : Faultless s (.readCompletes chunk) :=
  ⟨id,fun _ same => by cases same⟩

theorem arrivesReading {s : State} (runs : s.running = true) (outstanding : 0 < s.reads)
    (chunk : Chunk) : Arrives s 2 chunk.bytes := by
  obtain ⟨t,first,posted,holds,running,_,queue⟩ := chunkMoves outstanding chunk
  obtain ⟨u,second,_,_,_,whole⟩ := appendMoves (running.trans runs) posted holds
  rw [← List.append_nil s.readQueue] at queue
  have last : Arrives u 0 [] := ⟨[],u,Nat.le_refl 0,.done u,(List.append_nil _).symm⟩
  have appended := arrivesNext (runFaultless t _) second whole last
  rw [List.append_nil] at appended
  exact arrivesNext (chunkFaultless s chunk) first queue appended

theorem arrivesStarting {s : State} (runs : s.running = true) (open' : s.portOpen = true)
    (posted : .startRead ∈ s.posted) (chunk : Chunk) : Arrives s 3 chunk.bytes := by
  obtain ⟨t,first,running,_,outstanding,queue⟩ := startMoves runs open' posted
  rw [← List.append_nil s.readQueue] at queue
  exact arrivesNext (runFaultless s _) first queue (arrivesReading running outstanding chunk)

theorem arrivesFlows {s : State} (flows : Flows s) (chunk : Chunk) :
    Arrives s 4 (held s ++ chunk.bytes) := by
  obtain ⟨⟨⟨_,stage⟩,open'⟩,runs,one,clean⟩ := flows
  have inside : ∀ h ∈ (readSide s).handlers, h ∈ s.posted := fun h member => (List.mem_filter.mp member).1
  unfold held
  generalize handlers : (readSide s).handlers = posted at stage one inside
  generalize count : (readSide s).reads = reads at stage one
  generalize buffer : (readSide s).buffer = stored at stage
  cases stage with
  | starting =>
    obtain ⟨events,t,few,run,whole⟩ :=
      arrivesStarting runs open' (inside _ (List.mem_singleton.mpr rfl)) chunk
    exact ⟨events,t,Nat.le_succ_of_le few,run,whole⟩
  | reading =>
    have outstanding : s.reads = 1 := count
    obtain ⟨events,t,few,run,whole⟩ := arrivesReading runs (by omega) chunk
    exact ⟨events,t,by omega,run,whole⟩
  | finished arrived holds =>
    have same : s.readBuffer.bytes.take arrived.length = arrived := by
      rw [show s.readBuffer = stored from buffer]
      exact holds
    obtain ⟨t,first,posted,running,port,queue⟩ :=
      appendMoves runs (inside _ (List.mem_singleton.mpr rfl)) same
    have held : [Handler.finishRead none arrived].map arriving = [arrived] := rfl
    rw [held,List.flatten_singleton]
    exact arrivesNext (runFaultless s _) first queue
      (arrivesStarting running (port.trans open') posted chunk)
  | failed ec => exact absurd (inside _ (List.mem_singleton.mpr rfl)) (clean ec [])
  | stopped => exact absurd one (by decide)

/-! Exactly one read is on its way, and whatever the device gives next the queue can have at
most four steps later, behind what is already held. -/
theorem intake {s : State} (reachable : Reachable step Faultless opened s) :
    (readSide s).handlers.length + s.reads = 1 ∧
    ∀ chunk : Chunk, Arrives s 4 (held s ++ chunk.bytes) := by
  have flows := reachableInvariant (fun _ _ _ flows faultless moved => flowsKept flows faultless moved)
    openedFlows reachable
  exact ⟨flows.one,arrivesFlows flows⟩

def firstChunk : Chunk := ⟨[84,10],by decide⟩

theorem intakeFirst : ∃ s, Reachable step Faultless opened s ∧ held s = firstChunk.bytes ∧
    ∀ chunk : Chunk, Arrives s 4 (firstChunk.bytes ++ chunk.bytes) := by
  have run : ∃ s, Run step Faultless opened [.run .startRead,.readCompletes firstChunk] s ∧
      held s = firstChunk.bytes :=
    ⟨_,.next (runFaultless _ _) rfl (.next (chunkFaultless _ _) rfl (.done _)),rfl⟩
  obtain ⟨s,run,holds⟩ := run
  have arrives := (intake ⟨_,run⟩).2
  rw [holds] at arrives
  exact ⟨s,⟨_,run⟩,holds,arrives⟩

end Chambermaid.AsyncIntake
