/-
This file is the general part of every argument about runs. A machine is a
deterministic labelled step function: the label carries everything the outside
chooses (who moves, what the environment answers), so that quantifying over the
labels of a run quantifies over every schedule and every environment. The file
gives the induction rules a property of all runs is proved with, the two
predicates that speak about the steps and the states inside one run, and the
projection of one machine onto another.
-/

import Mathlib.Data.List.Basic

/-- What one labelled step does to a state, `none` when the label is not enabled there. -/
structure Machine (State Label : Type*) where
  step : State → Label → Option State

namespace Machine

variable {State Label Other OtherLabel : Type*} (machine : Machine State Label)

/-! ### Runs -/

/-- The state after a list of labels, `none` when one of them is not enabled. -/
def run : State → List Label → Option State
  | state, [] => some state
  | state, label :: rest => (machine.step state label).bind fun next => run next rest

@[simp] theorem run_nil (state : State) : machine.run state [] = some state := rfl

theorem run_cons (state : State) (label : Label) (rest : List Label) :
    machine.run state (label :: rest) =
      (machine.step state label).bind fun next => machine.run next rest := rfl

theorem run_append (state : State) (first second : List Label) :
    machine.run state (first ++ second) =
      (machine.run state first).bind fun middle => machine.run middle second := by
  induction first generalizing state with
  | nil => rfl
  | cons label rest inductionHypothesis =>
    rw [List.cons_append, run_cons, run_cons, Option.bind_assoc]
    exact congrArg _ (funext fun next => inductionHypothesis next)

/-- The first step of a non-empty run. -/
theorem run_cons_eq_some {state final : State} {label : Label} {rest : List Label} :
    machine.run state (label :: rest) = some final ↔
      ∃ next, machine.step state label = some next ∧ machine.run next rest = some final := by
  rw [run_cons, Option.bind_eq_some_iff]

/-- A state is reachable when some list of labels leads to it. -/
def Reachable (start state : State) : Prop := ∃ labels, machine.run start labels = some state

theorem Reachable.refl (start : State) : machine.Reachable start start := ⟨[], rfl⟩

theorem Reachable.tail {start state next : State} {label : Label}
    (reachable : machine.Reachable start state) (step : machine.step state label = some next) :
    machine.Reachable start next := by
  obtain ⟨labels, run⟩ := reachable
  refine ⟨labels ++ [label], ?_⟩
  rw [run_append, run, Option.bind_some, run_cons, step]
  rfl

theorem Reachable.trans {start middle state : State} (first : machine.Reachable start middle)
    (second : machine.Reachable middle state) : machine.Reachable start state := by
  obtain ⟨labels, firstRun⟩ := first
  obtain ⟨labels', secondRun⟩ := second
  exact ⟨labels ++ labels', by rw [run_append, firstRun, Option.bind_some, secondRun]⟩

/-! ### Invariants -/

/-- A property that every step with an allowed label preserves holds at the end of every run
that uses only such labels and whose start it holds at. -/
theorem run_invariant_of_labels (Holds : State → Prop) (allowed : Label → Prop)
    (preserved : ∀ state label next, Holds state → allowed label →
      machine.step state label = some next → Holds next)
    {start final : State} {labels : List Label} (holds : Holds start)
    (labelsAllowed : ∀ label ∈ labels, allowed label)
    (run : machine.run start labels = some final) : Holds final := by
  induction labels generalizing start with
  | nil => exact Option.some.inj run ▸ holds
  | cons label rest inductionHypothesis =>
    obtain ⟨next, step, run⟩ := (machine.run_cons_eq_some).mp run
    exact inductionHypothesis
      (preserved start label next holds (labelsAllowed label List.mem_cons_self) step)
      (fun other member => labelsAllowed other (List.mem_cons_of_mem label member)) run

/-- A property that every step preserves holds at the end of every run it holds at the
start of. -/
theorem run_invariant (Holds : State → Prop)
    (preserved : ∀ state label next, Holds state → machine.step state label = some next →
      Holds next)
    {start final : State} {labels : List Label} (holds : Holds start)
    (run : machine.run start labels = some final) : Holds final :=
  machine.run_invariant_of_labels Holds (fun _ => True)
    (fun state label next holds _ step => preserved state label next holds step) holds
    (fun _ _ => trivial) run

/-- A property of the events so far and the state, which every step carries over to the events with
its own added, holds of all the events of a run. -/
theorem run_history {Event : Type*} (eventsOf : Label → List Event)
    (Holds : List Event → State → Prop)
    (preserved : ∀ events state label next, Holds events state →
      machine.step state label = some next → Holds (events ++ eventsOf label) next)
    {events : List Event} {start final : State} {labels : List Label} (holds : Holds events start)
    (run : machine.run start labels = some final) :
    Holds (events ++ labels.flatMap eventsOf) final := by
  induction labels generalizing start events with
  | nil =>
    rw [List.flatMap_nil, List.append_nil]
    exact Option.some.inj run ▸ holds
  | cons label rest inductionHypothesis =>
    obtain ⟨next, step, run⟩ := (machine.run_cons_eq_some).mp run
    rw [List.flatMap_cons, ← List.append_assoc]
    exact inductionHypothesis (preserved events start label next holds step) run

/-- The form of `run_invariant` for reachable states. -/
theorem Reachable.invariant {start state : State}
    (reachable : machine.Reachable start state) (Holds : State → Prop) (holds : Holds start)
    (preserved : ∀ state label next, Holds state → machine.step state label = some next →
      Holds next) : Holds state := by
  obtain ⟨labels, run⟩ := reachable
  exact machine.run_invariant Holds preserved holds run

/-! ### The steps and the states inside one run -/

/-- Every step the run from `start` takes meets `allowed`, which reads the state before it. -/
def AllSteps (allowed : State → Label → Prop) : State → List Label → Prop
  | _, [] => True
  | state, label :: rest => ∀ next, machine.step state label = some next →
      allowed state label ∧ AllSteps allowed next rest

/-- Every state of the run from `start`, the first and the last one included, meets
`holds`. -/
def AllStates (holds : State → Prop) : State → List Label → Prop
  | state, [] => holds state
  | state, label :: rest => holds state ∧
      ∀ next, machine.step state label = some next → AllStates holds next rest

theorem AllStates.head {holds : State → Prop} {start : State} {labels : List Label}
    (states : machine.AllStates holds start labels) : holds start := by
  cases labels with
  | nil => exact states
  | cons label rest => exact states.1

/-- Two runs in a row. -/
theorem AllStates.append {holds : State → Prop} {start middle : State} {first second : List Label}
    (firstStates : machine.AllStates holds start first)
    (run : machine.run start first = some middle)
    (secondStates : machine.AllStates holds middle second) :
    machine.AllStates holds start (first ++ second) := by
  induction first generalizing start with
  | nil => exact Option.some.inj run ▸ secondStates
  | cons label rest inductionHypothesis =>
    obtain ⟨next, step, run⟩ := (machine.run_cons_eq_some).mp run
    refine ⟨firstStates.1, fun other otherStep => ?_⟩
    obtain rfl := Option.some.inj (step.symm.trans otherStep)
    exact inductionHypothesis (firstStates.2 next step) run

/-- A property that every allowed step preserves holds in every state of a run whose steps
are all allowed. -/
theorem allStates_of_allSteps (Holds : State → Prop) (allowed : State → Label → Prop)
    (preserved : ∀ state label next, Holds state → allowed state label →
      machine.step state label = some next → Holds next)
    {start : State} {labels : List Label} (holds : Holds start)
    (steps : machine.AllSteps allowed start labels) : machine.AllStates Holds start labels := by
  induction labels generalizing start with
  | nil => exact holds
  | cons label rest inductionHypothesis =>
    exact ⟨holds, fun next step => inductionHypothesis
      (preserved start label next holds (steps next step).1 step) (steps next step).2⟩

/-- Conversely, when every step between two states of a property is allowed, all the steps of
a run are whose states all have it. -/
theorem allSteps_of_allStates (Holds : State → Prop) (allowed : State → Label → Prop)
    (necessary : ∀ state label next, Holds state → machine.step state label = some next →
      Holds next → allowed state label)
    {start : State} {labels : List Label} (states : machine.AllStates Holds start labels) :
    machine.AllSteps allowed start labels := by
  induction labels generalizing start with
  | nil => exact trivial
  | cons label rest inductionHypothesis =>
    intro next step
    have later := states.2 next step
    exact ⟨necessary start label next states.1 step later.head, inductionHypothesis later⟩

theorem AllStates.imp {first second : State → Prop} {start : State} {labels : List Label}
    (implies : ∀ state, first state → second state)
    (states : machine.AllStates first start labels) :
    machine.AllStates second start labels := by
  induction labels generalizing start with
  | nil => exact implies start states
  | cons label rest inductionHypothesis =>
    exact ⟨implies start states.1, fun next step => inductionHypothesis (states.2 next step)⟩

/-- The states of a run have what an invariant gives them as well. -/
theorem AllStates.and_invariant {holds : State → Prop} (Invariant : State → Prop)
    (preserved : ∀ state label next, Invariant state → machine.step state label = some next →
      Invariant next)
    {start : State} {labels : List Label} (invariant : Invariant start)
    (states : machine.AllStates holds start labels) :
    machine.AllStates (fun state => Invariant state ∧ holds state) start labels := by
  induction labels generalizing start with
  | nil => exact ⟨invariant, states⟩
  | cons label rest inductionHypothesis =>
    exact ⟨⟨invariant, states.1⟩, fun next step => inductionHypothesis
      (preserved start label next invariant step) (states.2 next step)⟩

/-- The last state of a run is one of its states. -/
theorem AllStates.last {holds : State → Prop} {start final : State} {labels : List Label}
    (states : machine.AllStates holds start labels)
    (run : machine.run start labels = some final) : holds final := by
  induction labels generalizing start with
  | nil => exact Option.some.inj run ▸ states
  | cons label rest inductionHypothesis =>
    obtain ⟨next, step, run⟩ := (machine.run_cons_eq_some).mp run
    exact inductionHypothesis (states.2 next step) run

/-- What every step between two of its states keeps, a run keeps. -/
theorem AllStates.invariant {holds : State → Prop} {start final : State} {labels : List Label}
    (states : machine.AllStates holds start labels) (Keeps : State → Prop)
    (preserved : ∀ state label next, Keeps state → holds state → holds next →
      machine.step state label = some next → Keeps next)
    (keeps : Keeps start) (run : machine.run start labels = some final) : Keeps final := by
  induction labels generalizing start with
  | nil => exact Option.some.inj run ▸ keeps
  | cons label rest inductionHypothesis =>
    obtain ⟨next, step, run⟩ := (machine.run_cons_eq_some).mp run
    have later := states.2 next step
    exact inductionHypothesis later
      (preserved start label next keeps states.1 later.head step) run

/-- The steps of a run start where its beginnings end. -/
theorem AllSteps.of_take {allowed : State → Label → Prop} {start : State} {labels : List Label}
    (every : ∀ count label, labels[count]? = some label → ∀ state,
      machine.run start (labels.take count) = some state → allowed state label) :
    machine.AllSteps allowed start labels := by
  induction labels generalizing start with
  | nil => exact trivial
  | cons label rest inductionHypothesis =>
    intro next step
    refine ⟨every 0 label rfl start rfl, inductionHypothesis ?_⟩
    intro count other here state run
    refine every (count + 1) other here state ?_
    rw [List.take_succ_cons, run_cons, step]
    exact run

/-- The states of a run are those its beginnings end in. -/
theorem AllStates.of_take {holds : State → Prop} {start : State} {labels : List Label}
    (every : ∀ count ≤ labels.length, ∀ state,
      machine.run start (labels.take count) = some state → holds state) :
    machine.AllStates holds start labels := by
  induction labels generalizing start with
  | nil => exact every 0 (Nat.le_refl _) start rfl
  | cons label rest inductionHypothesis =>
    refine ⟨every 0 (Nat.zero_le _) start rfl, fun next step => inductionHypothesis ?_⟩
    intro count bound state run
    refine every (count + 1) (Nat.succ_le_succ bound) state ?_
    rw [List.take_succ_cons, run_cons, step]
    exact run

/-! ### Potentials -/

/-- Counted steps make a potential smaller, and no step makes it larger: a run has no more of them
than the potential of its start. -/
theorem countP_le_of_potential (counted : Label → Bool) (potential : State → ℕ)
    (Holds : State → Prop)
    (preserved : ∀ state label next, Holds state → machine.step state label = some next →
      Holds next)
    (pays : ∀ state label next, Holds state → machine.step state label = some next →
      potential next + (counted label).toNat ≤ potential state)
    {start final : State} {labels : List Label} (holds : Holds start)
    (run : machine.run start labels = some final) :
    potential final + labels.countP counted ≤ potential start := by
  induction labels generalizing start with
  | nil => exact Nat.le_of_eq (congrArg potential (Option.some.inj run).symm)
  | cons label rest inductionHypothesis =>
    obtain ⟨next, step, run⟩ := (machine.run_cons_eq_some).mp run
    have later := inductionHypothesis (preserved start label next holds step) run
    have paid := pays start label next holds step
    rw [List.countP_cons]
    cases isCounted : counted label with
    | true =>
      rw [isCounted, Bool.toNat_true] at paid
      rw [if_pos rfl]
      omega
    | false =>
      rw [isCounted, Bool.toNat_false] at paid
      rw [if_neg Bool.false_ne_true]
      omega

/-! ### Projections -/

/-- When every step of one machine is a run of another, read through `view`, every run is. -/
theorem run_project (other : Machine Other OtherLabel) (view : State → Other)
    (Holds : State → Prop)
    (preserved : ∀ state label next, Holds state → machine.step state label = some next →
      Holds next)
    (simulated : ∀ state label next, Holds state → machine.step state label = some next →
      other.Reachable (view state) (view next))
    {start final : State} {labels : List Label} (holds : Holds start)
    (run : machine.run start labels = some final) :
    other.Reachable (view start) (view final) := by
  induction labels generalizing start with
  | nil => exact Option.some.inj run ▸ Reachable.refl other _
  | cons label rest inductionHypothesis =>
    obtain ⟨next, step, run⟩ := (machine.run_cons_eq_some).mp run
    exact Reachable.trans other (simulated start label next holds step)
      (inductionHypothesis (preserved start label next holds step) run)

/-- Two machines that take the same steps, read through `view`, have the same runs. -/
theorem run_map (other : Machine Other Label) (view : State → Other) (Holds : State → Prop)
    (preserved : ∀ state label next, Holds state → machine.step state label = some next →
      Holds next)
    (same : ∀ state label, Holds state →
      (machine.step state label).map view = other.step (view state) label)
    {start : State} (labels : List Label) (holds : Holds start) :
    (machine.run start labels).map view = other.run (view start) labels := by
  induction labels generalizing start with
  | nil => rfl
  | cons label rest inductionHypothesis =>
    rw [run_cons, run_cons, ← same start label holds]
    cases step : machine.step start label with
    | none => rfl
    | some next => exact inductionHypothesis (preserved start label next holds step)

end Machine
