/-
This file is about how often `rte_timer_manage` is called (`event_scheduler.h`,
`event_scheduler::process_events`). A call of `process_events` manages the timers
only when `usec_cycles_` have gone by since they were managed the last time, and
whenever they have; so a generation manages them no more often than `usec_cycles_`
fit in its duration, and two times more.

`usec_cycles_` is a microsecond in cycles, rounded down: a little less than a
microsecond when the frequency is no multiple of a million, and nothing at all
below a million cycles a second. The results are in cycles, as the code is.

The clock is one that does not go back during the run, the readings of a part
that reads none included.
-/

import TrafficGenerator.GenInvariant

namespace TrafficGenerator

variable {env : Env} {manager : GenManager}

/-! ### The calls that manage the timers -/

/-- The readings of the clock during a part of `process_events`, in order. -/
def GenLabel.readings : GenLabel → List Cycles
  | .dequeue _ => []
  | .handle input => [input.now]
  | .tick input => [input.now, input.schedulerNow]
  | .fire _ _ event => [event.now]
  | .flush _ => []
  | .nic _ => []

/-- The generation thread is inside `rte_timer_manage`. -/
def GenPlace.managing : GenPlace → Bool
  | .idle => false
  | .handling _ => false
  | .timers => true

/-- The readings with which a part enters `rte_timer_manage`. -/
def GenLabel.manages (label : GenLabel) (next : GenState) : List TickIn :=
  match label with
  | .dequeue _ => []
  | .handle _ => []
  | .tick input => if next.place.managing then [input] else []
  | .fire _ _ _ => []
  | .flush _ => []
  | .nic _ => []

theorem timers_of_manages {input : TickIn} {next : GenState}
    (manages : (GenLabel.tick input).manages next = [input]) : next.place = .timers := by
  obtain ⟨manager, place⟩ := next
  cases place with
  | timers => rfl
  | idle | handling msgs => exact absurd manages (by simp [GenLabel.manages, GenPlace.managing])

/-- The readings of the calls of `process_events` in a run that manage the timers. -/
def managedTicks (env : Env) : GenState → List GenLabel → List TickIn
  | _, [] => []
  | state, label :: rest =>
    match (genMachine env).step state label with
    | none => []
    | some next => label.manages next ++ managedTicks env next rest

theorem managedTicks_cons {state next : GenState} {label : GenLabel} (rest : List GenLabel)
    (step : (genMachine env).step state label = some next) :
    managedTicks env state (label :: rest) =
      label.manages next ++ managedTicks env next rest := by
  rw [managedTicks, step]

/-! ### One part -/

/-- What a part does to the time of the last management: it manages the timers in time, or finds
them managed less than `usec_cycles_` ago, or has nothing to do with them. -/
inductive Managed (env : Env) : GenState → GenLabel → GenState → Prop
  | managed {state next : GenState} (input : TickIn) (cycles : GenCycles)
      (running : state.manager.genCycles = some cycles)
      (inTime : input.now - cycles.begin ≤ cycles.duration)
      (due : usecCycles env ≤ input.schedulerNow - state.manager.prevCycles)
      (manages : (GenLabel.tick input).manages next = [input])
      (prevCycles : next.manager.prevCycles = input.schedulerNow) :
      Managed env state (.tick input) next
  | early {state next : GenState} (input : TickIn)
      (early : next.manager.genCycles ≠ none →
        input.schedulerNow - state.manager.prevCycles < usecCycles env)
      (manages : (GenLabel.tick input).manages next = [])
      (prevCycles : next.manager.prevCycles = state.manager.prevCycles) :
      Managed env state (.tick input) next
  | other {state next : GenState} {label : GenLabel} (noTick : ∀ input, label ≠ .tick input)
      (manages : label.manages next = [])
      (prevCycles : next.manager.prevCycles = state.manager.prevCycles) :
      Managed env state label next

theorem onIncMsg_prevCycles (env : Env) (input : StartIn) (msg : ReqMsg) (sound : manager.Sound) :
    (onIncMsg env input manager msg).prevCycles = manager.prevCycles := by
  cases msg with
  | startGeneration cfg =>
    rw [onIncMsg]
    cases onStartGeneration_cases env input cfg manager sound.empty with
    | refused _ result => rw [result]
    | failed _ _ _ _ result => rw [result]
    | begun _ _ _ _ _ result => rw [result]
  | stopGeneration => rfl
  | statsReport => rfl

theorem tick_managed (env : Env) (input : TickIn) (manager : GenManager) :
    Managed env ⟨manager, .handling []⟩ (.tick input) ⟨(beforeTimers env input manager).2,
      if (beforeTimers env input manager).1 then .timers else .idle⟩ := by
  unfold beforeTimers
  cases cycles : manager.genCycles with
  | none => exact .early input (fun running => absurd rfl running) rfl rfl
  | some genCycles =>
    dsimp only
    split
    · exact .early input (fun running => absurd rfl running) rfl rfl
    · next inTime =>
      split
      · next due => exact .managed input genCycles cycles (UInt64.not_lt.mp inTime) due rfl rfl
      · next early => exact .early input (fun _ => UInt64.not_le.mp early) rfl rfl

theorem genStep_managed {state next : GenState} {label : GenLabel} (sound : state.Sound)
    (step : (genMachine env).step state label = some next) : Managed env state label next := by
  cases (genStep_spec step).2 with
  | dequeue | flush | nic => exact .other (by simp) rfl rfl
  | handle manager msg rest input =>
    exact .other (by simp) rfl (onIncMsg_prevCycles env input msg.msg sound.manager)
  | tick manager input => exact tick_managed env input manager
  | fire manager next pos flow event run =>
    obtain ⟨gen, fl, -, -, -, rfl⟩ := fire_eq_some.mp run
    exact .other (by simp) rfl rfl

/-! ### A run with a clock that does not go back -/

/-- The readings of a run. -/
def readingsOf (labels : List GenLabel) : List Cycles := labels.flatMap GenLabel.readings

/-- The clock shows `low` or more, and does not go back. -/
def ClockFrom (low : ℕ) (labels : List GenLabel) : Prop :=
  (readingsOf labels).Pairwise (fun first second => first ≤ second) ∧
    ∀ reading ∈ readingsOf labels, low ≤ reading.toNat

theorem ClockFrom.rest {low : ℕ} {label : GenLabel} {rest : List GenLabel}
    (clock : ClockFrom low (label :: rest)) : ClockFrom low rest := by
  obtain ⟨ordered, later⟩ := clock
  rw [readingsOf, List.flatMap_cons] at ordered later
  exact ⟨(List.pairwise_append.mp ordered).2.1,
    fun reading member => later reading (List.mem_append_right _ member)⟩

/-- The two readings of a call that manages the timers, and those after it. -/
theorem ClockFrom.tick {low : ℕ} {input : TickIn} {rest : List GenLabel}
    (clock : ClockFrom low (.tick input :: rest)) :
    low ≤ input.now.toNat ∧ input.now.toNat ≤ input.schedulerNow.toNat ∧
      ClockFrom input.schedulerNow.toNat rest := by
  obtain ⟨ordered, later⟩ := clock
  rw [readingsOf, List.flatMap_cons] at ordered later
  obtain ⟨both, ordered, across⟩ := List.pairwise_append.mp ordered
  refine ⟨later input.now (List.mem_append_left _ List.mem_cons_self), ?_, ordered,
    fun reading member => ?_⟩
  · exact UInt64.le_iff_toNat_le.mp (List.rel_of_pairwise_cons both List.mem_cons_self)
  · exact UInt64.le_iff_toNat_le.mp
      (across input.schedulerNow (List.mem_cons_of_mem _ List.mem_cons_self) reading member)

/-- A difference of readings in order, as numbers. -/
theorem add_le_of_le_sub {first second span : Cycles} (order : first.toNat ≤ second.toNat)
    (apart : span ≤ second - first) : first.toNat + span.toNat ≤ second.toNat := by
  rw [UInt64.le_iff_toNat_le, UInt64.toNat_sub_of_le _ _ (UInt64.le_iff_toNat_le.mpr order)]
    at apart
  omega

theorem le_add_of_sub_le {first second span : Cycles} (order : first.toNat ≤ second.toNat)
    (near : second - first ≤ span) : second.toNat ≤ first.toNat + span.toNat := by
  rw [UInt64.le_iff_toNat_le, UInt64.toNat_sub_of_le _ _ (UInt64.le_iff_toNat_le.mpr order)]
    at near
  omega

/-- In a run the timers are managed `usec_cycles_` after the time before, each time. -/
theorem managedTicks_spaced {start : GenState} {labels : List GenLabel} (sound : start.Sound)
    (clock : ClockFrom start.manager.prevCycles.toNat labels) :
    (∀ input ∈ managedTicks env start labels,
      start.manager.prevCycles.toNat + (usecCycles env).toNat ≤ input.schedulerNow.toNat) ∧
    (managedTicks env start labels).Pairwise fun first second =>
      first.schedulerNow.toNat + (usecCycles env).toNat ≤ second.schedulerNow.toNat := by
  induction labels generalizing start with
  | nil => exact ⟨fun _ member => absurd member List.not_mem_nil, .nil⟩
  | cons label rest inductionHypothesis =>
    cases step : (genMachine env).step start label with
    | none =>
      rw [managedTicks, step]
      exact ⟨fun _ member => absurd member List.not_mem_nil, .nil⟩
    | some next =>
      have afterwards := sound.step step
      rw [managedTicks_cons rest step]
      cases genStep_managed sound step with
      | managed input cycles running inTime due manages prevCycles =>
        obtain ⟨low, order, later⟩ := clock.tick
        have spaced : start.manager.prevCycles.toNat + (usecCycles env).toNat ≤
            input.schedulerNow.toNat := by
          exact add_le_of_le_sub (Nat.le_trans low order) due
        rw [← prevCycles] at later
        obtain ⟨from_, pairwise⟩ := inductionHypothesis afterwards later
        rw [prevCycles] at from_
        rw [manages, List.singleton_append]
        refine ⟨List.forall_mem_cons.mpr ⟨spaced, fun other member => ?_⟩,
          List.pairwise_cons.mpr ⟨from_, pairwise⟩⟩
        have one := from_ other member
        omega
      | early input _ manages prevCycles =>
        rw [manages, List.nil_append, ← prevCycles]
        exact inductionHypothesis afterwards (prevCycles.symm ▸ clock.rest)
      | other noTick manages prevCycles =>
        rw [manages, List.nil_append, ← prevCycles]
        exact inductionHypothesis afterwards (prevCycles.symm ▸ clock.rest)

/-! ### One generation -/

/-- From one management of the timers on, while a generation runs: every further one takes
`usec_cycles_` of the time left, and the last one may be late. -/
theorem managedTicks_length_after {start : GenState} {labels : List GenLabel} {cycles : GenCycles}
    (sound : start.Sound) (begun : cycles.begin.toNat ≤ start.manager.prevCycles.toNat)
    (clock : ClockFrom start.manager.prevCycles.toNat labels)
    (running : (genMachine env).AllStates (fun state => state.manager.genCycles = some cycles)
      start labels) :
    managedTicks env start labels = [] ∨
      (managedTicks env start labels).length * (usecCycles env).toNat +
        start.manager.prevCycles.toNat ≤
          cycles.begin.toNat + cycles.duration.toNat + (usecCycles env).toNat := by
  induction labels generalizing start with
  | nil => exact Or.inl rfl
  | cons label rest inductionHypothesis =>
    cases step : (genMachine env).step start label with
    | none =>
      rw [managedTicks, step]
      exact Or.inl rfl
    | some next =>
      have afterwards := sound.step step
      have later := running.2 next step
      rw [managedTicks_cons rest step]
      cases genStep_managed sound step with
      | managed input other found inTime due manages prevCycles =>
        obtain rfl := Option.some.inj (found.symm.trans running.head)
        obtain ⟨low, order, clockAfter⟩ := clock.tick
        have spaced := add_le_of_le_sub (Nat.le_trans low order) due
        have inTime := le_add_of_sub_le (Nat.le_trans begun low) inTime
        rw [← prevCycles] at clockAfter
        refine Or.inr ?_
        rw [manages, List.singleton_append, List.length_cons, Nat.succ_mul]
        rcases inductionHypothesis afterwards (by rw [prevCycles]; omega) clockAfter later with
          none | some
        · rw [none, List.length_nil]
          omega
        · rw [prevCycles] at some
          omega
      | early input _ manages prevCycles =>
        rw [manages, List.nil_append, ← prevCycles]
        exact inductionHypothesis afterwards (prevCycles.symm ▸ begun)
          (prevCycles.symm ▸ clock.rest) later
      | other noTick manages prevCycles =>
        rw [manages, List.nil_append, ← prevCycles]
        exact inductionHypothesis afterwards (prevCycles.symm ▸ begun)
          (prevCycles.symm ▸ clock.rest) later

theorem managedTicks_length {start : GenState} {labels : List GenLabel} {cycles : GenCycles}
    (sound : start.Sound) (clock : ClockFrom cycles.begin.toNat labels)
    (running : (genMachine env).AllStates (fun state => state.manager.genCycles = some cycles)
      start labels) :
    (managedTicks env start labels).length * (usecCycles env).toNat ≤
      cycles.duration.toNat + 2 * (usecCycles env).toNat := by
  induction labels generalizing start with
  | nil =>
    rw [managedTicks, List.length_nil, Nat.zero_mul]
    exact Nat.zero_le _
  | cons label rest inductionHypothesis =>
    cases step : (genMachine env).step start label with
    | none =>
      rw [managedTicks, step, List.length_nil, Nat.zero_mul]
      exact Nat.zero_le _
    | some next =>
      have afterwards := sound.step step
      have later := running.2 next step
      rw [managedTicks_cons rest step]
      cases genStep_managed sound step with
      | managed input other found inTime due manages prevCycles =>
        obtain rfl := Option.some.inj (found.symm.trans running.head)
        obtain ⟨low, order, clockAfter⟩ := clock.tick
        rw [← prevCycles] at clockAfter
        rw [manages, List.singleton_append, List.length_cons, Nat.succ_mul]
        rcases managedTicks_length_after afterwards (by rw [prevCycles]; omega) clockAfter later
          with none | some
        · rw [none, List.length_nil]
          omega
        · rw [prevCycles] at some
          omega
      | early input _ manages prevCycles =>
        rw [manages, List.nil_append]
        exact inductionHypothesis afterwards clock.rest later
      | other noTick manages prevCycles =>
        rw [manages, List.nil_append]
        exact inductionHypothesis afterwards clock.rest later

/-! ### The results -/

/-- A generation begins at a reading of the clock. -/
theorem genStep_begin {state next : GenState} {label : GenLabel} (sound : state.Sound)
    (step : (genMachine env).step state label = some next) {cycles : GenCycles}
    (running : next.manager.genCycles = some cycles) :
    state.manager.genCycles = some cycles ∨ cycles.begin ∈ label.readings := by
  cases (genStep_spec step).2 with
  | dequeue | flush | nic => exact Or.inl running
  | handle manager msg rest input =>
    cases request : msg.msg with
    | startGeneration cfg =>
      rw [request, onIncMsg] at running
      cases onStartGeneration_cases env input cfg manager sound.manager.empty with
      | refused _ result =>
        rw [result] at running
        exact Or.inl running
      | failed _ _ _ _ result =>
        rw [result] at running
        exact Or.inl running
      | begun _ _ _ _ _ result =>
        rw [result] at running
        rw [← Option.some.inj running]
        exact Or.inr List.mem_cons_self
    | stopGeneration =>
      rw [request] at running
      exact absurd running (by simp [onIncMsg, onStopGeneration, stopGeneration])
    | statsReport =>
      rw [request] at running
      exact Or.inl running
  | tick manager input =>
    rcases beforeTimers_cases env input manager with
      ⟨-, aborted, -, result⟩ | ⟨-, result⟩ | ⟨-, result⟩ | ⟨-, result⟩
    · rw [result] at running
      exact Or.inl running
    · rw [result] at running
      exact absurd running (by simp [GenManager.flush, stopGeneration])
    · rw [result] at running
      exact Or.inl running
    · rw [result] at running
      exact Or.inl running
  | fire manager next pos flow event run =>
    exact Or.inl ((fire_sound sound.manager run).2.symm.trans running)

theorem begin_of_run {workingDir : String} {labels : List GenLabel} {state : GenState}
    (run : (genMachine env).run (GenState.init workingDir) labels = some state)
    {cycles : GenCycles} (running : state.manager.genCycles = some cycles) :
    cycles.begin ∈ readingsOf labels := by
  have both : state.Sound ∧ ∀ cycles : GenCycles, state.manager.genCycles = some cycles →
      cycles.begin ∈ [] ++ readingsOf labels := (genMachine env).run_history GenLabel.readings
    (fun readings state => state.Sound ∧ ∀ cycles : GenCycles,
      state.manager.genCycles = some cycles → cycles.begin ∈ readings)
    (fun readings state label next holds step => by
      refine ⟨holds.1.step step, fun cycles running => ?_⟩
      rcases genStep_begin holds.1 step running with before | now
      · exact List.mem_append_left _ (holds.2 cycles before)
      · exact List.mem_append_right _ now)
    ⟨GenState.sound_init workingDir, fun _ idle => absurd idle (by simp [GenState.init])⟩ run
  exact both.2 cycles running

/-- `prev_cycles_` is the time the timers were managed the last time. -/
theorem prevCycles_of_run {start state : GenState} {labels : List GenLabel} (sound : start.Sound)
    (run : (genMachine env).run start labels = some state) :
    state.manager.prevCycles = ((managedTicks env start labels).getLast?.map
      TickIn.schedulerNow).getD start.manager.prevCycles := by
  induction labels generalizing start with
  | nil =>
    obtain rfl := Option.some.inj run
    rfl
  | cons label rest inductionHypothesis =>
    obtain ⟨next, step, run⟩ := ((genMachine env).run_cons_eq_some).mp run
    rw [managedTicks_cons rest step, inductionHypothesis (sound.step step) run]
    cases genStep_managed sound step with
    | managed input cycles running inTime due manages prevCycles =>
      rw [manages, List.singleton_append, List.getLast?_cons, prevCycles]
      cases (managedTicks env next rest).getLast? <;> rfl
    | early input _ manages prevCycles => rw [manages, List.nil_append, prevCycles]
    | other noTick manages prevCycles => rw [manages, List.nil_append, prevCycles]

/-- The timers in every run whose clock does not go back. Between two calls that manage them
`usec_cycles_` go by; after the clock is read in a call that leaves the generation running, they are
being managed or have been less than `usec_cycles_` before; and for as long as one generation runs
they are managed no more often than `usec_cycles_` fit in its duration, and two times more. -/
theorem timers_paced (env : Env) (workingDir : String) {labels : List GenLabel}
    (clock : (readingsOf labels).Pairwise fun first second => first ≤ second) :
    ((managedTicks env (GenState.init workingDir) labels).Pairwise fun first second =>
      first.schedulerNow.toNat + (usecCycles env).toNat ≤ second.schedulerNow.toNat) ∧
    (∀ (first rest : List GenLabel) (input : TickIn) (before after : GenState),
      labels = first ++ .tick input :: rest →
      (genMachine env).run (GenState.init workingDir) first = some before →
      (genMachine env).step before (.tick input) = some after →
      after.manager.genCycles ≠ none → after.place = .timers ∨
        input.schedulerNow - ((managedTicks env (GenState.init workingDir) first).getLast?.map
          TickIn.schedulerNow).getD 0 < usecCycles env) ∧
    (∀ (first rest : List GenLabel) (begun : GenState) (cycles : GenCycles),
      labels = first ++ rest →
      (genMachine env).run (GenState.init workingDir) first = some begun →
      (genMachine env).AllStates (fun state => state.manager.genCycles = some cycles) begun rest →
      (managedTicks env begun rest).length * (usecCycles env).toNat ≤
        cycles.duration.toNat + 2 * (usecCycles env).toNat) := by
  have init := GenState.sound_init workingDir
  refine ⟨(managedTicks_spaced init ⟨clock, fun _ _ => Nat.zero_le _⟩).2,
    fun first rest input before after _ run step running => ?_,
    fun first rest begun cycles split run states => ?_⟩
  · have sound := GenState.sound_of_run run
    have last := prevCycles_of_run init run
    cases genStep_managed sound step with
    | managed _ cycles _ _ _ manages _ =>
      exact Or.inl (timers_of_manages manages)
    | early _ early _ _ =>
      refine Or.inr ?_
      rw [last] at early
      exact early running
    | other noTick => exact absurd rfl (noTick input)
  · have sound := GenState.sound_of_run run
    refine managedTicks_length sound ?_ states
    have begins := begin_of_run run states.head
    rw [split, readingsOf, List.flatMap_append] at clock
    obtain ⟨-, ordered, across⟩ := List.pairwise_append.mp clock
    exact ⟨ordered, fun reading member =>
      UInt64.le_iff_toNat_le.mp (across cycles.begin begins reading member)⟩

/-- A generation of one flow whose timers are managed at the first and at the third microsecond, and
not in between. -/
def managedTwice : List GenLabel :=
  [.dequeue [⟨none, .startGeneration (sampleCfg [oneFlow])⟩], .handle {}, .tick (tickAt 0 0),
    .dequeue [], .tick (tickAt 0 1), .flush TxAnswer.all, .dequeue [], .tick (tickAt 1 1),
    .dequeue [], .tick (tickAt 2 3)]

theorem timers_paced_managedTwice :
    (managedTicks (sampleEnv samplePool) (GenState.init "") managedTwice).map
      TickIn.schedulerNow = [1, 3] ∧
    (managedTicks (sampleEnv samplePool) (GenState.init "") managedTwice).Pairwise
      fun first second => first.schedulerNow.toNat + (usecCycles (sampleEnv samplePool)).toNat ≤
        second.schedulerNow.toNat :=
  ⟨by decide +kernel, (timers_paced (sampleEnv samplePool) "" (by decide)).1⟩

end TrafficGenerator
