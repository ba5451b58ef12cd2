/-! Runs of a partial step function, restricted to events a predicate allows in
the state they happen in. Nothing here depends on what the states are. -/
namespace Chambermaid.Runs
variable {σ ε τ δ : Type}

inductive Run (step : σ → ε → Option σ) (allowed : σ → ε → Prop) : σ → List ε → σ → Prop where
  | done (s : σ) : Run step allowed s [] s
  | next {s t u : σ} {e : ε} {events : List ε} (permitted : allowed s e) (moved : step s e = some t)
      (rest : Run step allowed t events u) : Run step allowed s (e::events) u

def Reachable (step : σ → ε → Option σ) (allowed : σ → ε → Prop) (start s : σ) : Prop :=
  ∃ events, Run step allowed start events s

def Anything (_ : σ) (_ : ε) : Prop := True

theorem runInvariant {step : σ → ε → Option σ} {allowed : σ → ε → Prop} {P : σ → Prop}
    (keeps : ∀ s e t, P s → allowed s e → step s e = some t → P t)
    {s t : σ} {events : List ε} (run : Run step allowed s events t) (start : P s) : P t := by
  induction run with
  | done s => exact start
  | next permitted moved rest ih => exact ih (keeps _ _ _ start permitted moved)

theorem reachableInvariant {step : σ → ε → Option σ} {allowed : σ → ε → Prop} {P : σ → Prop}
    {start s : σ} (keeps : ∀ s e t, P s → allowed s e → step s e = some t → P t) (first : P start)
    (reachable : Reachable step allowed start s) : P s := by
  obtain ⟨events,run⟩ := reachable
  exact runInvariant keeps run first

theorem runRelabel {step : σ → ε → Option σ} {allowed permitted : σ → ε → Prop} {P : σ → Prop}
    (same : ∀ s e t, P s → step s e = some t → (allowed s e ↔ permitted s e))
    (keeps : ∀ s e t, P s → allowed s e → step s e = some t → P t) {s t : σ} {events : List ε}
    (start : P s) : Run step allowed s events t ↔ Run step permitted s events t := by
  constructor
  · intro run
    induction run with
    | done s => exact .done s
    | next first moved rest ih =>
      exact .next ((same _ _ _ start moved).mp first) moved (ih (keeps _ _ _ start first moved))
  · intro run
    induction run with
    | done s => exact .done s
    | next first moved rest ih =>
      have first := (same _ _ _ start moved).mpr first
      exact .next first moved (ih (keeps _ _ _ start first moved))

theorem afterStep {step : σ → ε → Option σ} {Q : σ → Prop} {s t : σ} {e : ε}
    (moved : step s e = some t) : Q t ↔ ∀ u, step s e = some u → Q u := by
  constructor
  · intro holds u again
    cases Option.some.inj (moved.symm.trans again)
    exact holds
  · exact fun all => all t moved

theorem eventuallyNext {step : σ → ε → Option σ} {allowed : σ → ε → Prop} {P : σ → Prop}
    {s t : σ} {e : ε} (permitted : allowed s e) (moved : step s e = some t)
    (later : ∃ u, Reachable step allowed t u ∧ P u) : ∃ u, Reachable step allowed s u ∧ P u := by
  obtain ⟨u,⟨events,run⟩,holds⟩ := later
  exact ⟨u,⟨e::events,.next permitted moved run⟩,holds⟩

theorem runDeterministic {step : σ → ε → Option σ} {allowed : σ → ε → Prop} {s t u : σ}
    {events : List ε} (first : Run step allowed s events t) (second : Run step allowed s events u) :
    t = u := by
  induction first with
  | done s =>
    cases second
    rfl
  | next permitted moved rest ih =>
    cases second with
    | next again same later =>
      cases Option.some.inj (moved.symm.trans same)
      exact ih later

theorem runExactly {step : σ → ε → Option σ} {allowed : σ → ε → Prop} {s t : σ} {events : List ε}
    (run : Run step allowed s events t) (u : σ) : Run step allowed s events u ↔ u = t := by
  constructor
  · intro other
    exact runDeterministic other run
  · intro same
    rwa [same]

theorem runAppend {step : σ → ε → Option σ} {allowed : σ → ε → Prop} {s t u : σ}
    {events more : List ε} (run : Run step allowed s events t) (later : Run step allowed t more u) :
    Run step allowed s (events ++ more) u := by
  induction run with
  | done s => exact later
  | next permitted moved rest ih => exact .next permitted moved (ih later)

/- Where every step of one sort lowers a measure by one and no other step touches it, the
measure bounds how many of them a run can take. -/
theorem runCounts {step : σ → ε → Option σ} {allowed : σ → ε → Prop} {P : σ → Prop}
    {measure : σ → Nat} {counts : ε → Bool}
    (keeps : ∀ s e t, P s → allowed s e → step s e = some t → P t ∧
      (measure t + if counts e then 1 else 0) = measure s) {s t : σ} {events : List ε}
    (run : Run step allowed s events t) (start : P s) :
    P t ∧ measure t + events.countP counts = measure s := by
  induction run with
  | done s => exact ⟨start,rfl⟩
  | @next s u t e events permitted moved rest ih =>
    obtain ⟨holds,lowered⟩ := keeps s e u start permitted moved
    obtain ⟨last,counted⟩ := ih holds
    refine ⟨last,?_⟩
    rw [List.countP_cons]
    omega

theorem foldRun {step : σ → ε → Option σ} {events : List ε} {s t : σ}
    (folded : events.foldlM step s = some t) : Run step Anything s events t := by
  induction events generalizing s with
  | nil =>
    cases folded
    exact .done _
  | cons e events ih =>
    rw [List.foldlM_cons] at folded
    obtain ⟨u,moved,later⟩ := Option.bind_eq_some_iff.mp folded
    exact .next trivial moved (ih later)

theorem runPermitted {step : σ → ε → Option σ} {allowed permitted : σ → ε → Prop} {s t : σ}
    {events : List ε} (permits : ∀ u, ∀ e ∈ events, permitted u e)
    (run : Run step allowed s events t) : Run step permitted s events t := by
  induction run with
  | done s => exact .done s
  | next _ moved rest ih =>
    exact .next (permits _ _ List.mem_cons_self) moved
      (ih fun u e inside => permits u e (List.mem_cons_of_mem _ inside))

theorem reachableWidens {step : σ → ε → Option σ} {allowed permitted : σ → ε → Prop} {s t : σ}
    (wider : ∀ u e, allowed u e → permitted u e) (reachable : Reachable step allowed s t) :
    Reachable step permitted s t := by
  obtain ⟨events,run⟩ := reachable
  refine ⟨events,?_⟩
  induction run with
  | done s => exact .done s
  | next first moved rest ih => exact .next (wider _ _ first) moved ih

/-! One system simulates another: each step of the one is answered by a run of the other that
ends in a related state. -/
def Simulates (step : σ → ε → Option σ) (allowed : σ → ε → Prop) (other : τ → δ → Option τ)
    (permitted : τ → δ → Prop) (related : σ → τ → Prop) : Prop :=
  ∀ s e s' t, related s t → allowed s e → step s e = some s' →
    ∃ events t', Run other permitted t events t' ∧ related s' t'

theorem simulatesRun {step : σ → ε → Option σ} {allowed : σ → ε → Prop} {other : τ → δ → Option τ}
    {permitted : τ → δ → Prop} {related : σ → τ → Prop}
    (simulates : Simulates step allowed other permitted related) {s s' : σ} {events : List ε}
    (run : Run step allowed s events s') {t : τ} (start : related s t) :
    ∃ more t', Run other permitted t more t' ∧ related s' t' := by
  induction run generalizing t with
  | done s => exact ⟨[],t,.done t,start⟩
  | next allows moved rest ih =>
    obtain ⟨first,u,answers,middle⟩ := simulates _ _ _ t start allows moved
    obtain ⟨later,v,ends,final⟩ := ih middle
    exact ⟨first ++ later,v,runAppend answers ends,final⟩

theorem simulatesReachable {step : σ → ε → Option σ} {allowed : σ → ε → Prop}
    {other : τ → δ → Option τ} {permitted : τ → δ → Prop} {related : σ → τ → Prop}
    (simulates : Simulates step allowed other permitted related) {start s : σ} {first : τ}
    (begins : related start first) (reachable : Reachable step allowed start s) :
    ∃ t, Reachable other permitted first t ∧ related s t := by
  obtain ⟨events,run⟩ := reachable
  obtain ⟨more,t,answers,ends⟩ := simulatesRun simulates run begins
  exact ⟨t,⟨more,answers⟩,ends⟩

end Chambermaid.Runs
