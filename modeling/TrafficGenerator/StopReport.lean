/-
This file is about the two ways a generation ends. A request to stop it is
answered with the statistics of its flows and then destroys them. The end of the
configured duration destroys them as well, in a call of `process_events` that
answers nobody, so the request to stop that comes later finds no flow to report.
Which of the two comes first is all that decides whether the summary is there.
-/

import TrafficGenerator.FlowStats

namespace TrafficGenerator

variable {env : Env} {manager : GenManager}

/-! ### The end of the duration -/

/-- The configured duration is over at a time. -/
def GenManager.Expired (now : Cycles) (manager : GenManager) : Prop :=
  ∃ genCycles ∈ manager.genCycles, now - genCycles.begin > genCycles.duration

/-- A step finds that the duration is over. -/
def GenState.Expires (state : GenState) : GenLabel → Prop
  | .tick input => state.manager.Expired input.now
  | _ => False

/-- A running generation survives the part up to the timers exactly before its duration is
over. -/
theorem beforeTimers_started (env : Env) (input : TickIn)
    (started : manager.generationStarted = true) :
    (beforeTimers env input manager).2.generationStarted = true ↔
      ¬ manager.Expired input.now := by
  obtain ⟨genCycles, running⟩ := Option.isSome_iff_exists.mp started
  have expired : manager.Expired input.now ↔
      input.now - genCycles.begin > genCycles.duration := by
    rw [GenManager.Expired, running]
    simp
  rw [expired, beforeTimers]
  dsimp only
  rw [running]
  dsimp only
  split
  · next finished => exact iff_of_false Bool.false_ne_true (not_not_intro finished)
  · next before =>
    refine iff_of_true ?_ before
    split <;> rfl

/-- The request a step handles. -/
def GenState.handled (state : GenState) (label : GenLabel) : Option ReqMsg :=
  match state.place, label with
  | .handling (msg :: _), .handle _ => some msg.msg
  | _, _ => none

/-- A step handles no request to stop, and starts no other generation once there is none. -/
def Uninterrupted (env : Env) (state : GenState) (label : GenLabel) : Prop :=
  state.handled label ≠ some .stopGeneration ∧
    (state.manager.generationStarted = false → ∀ next,
      (genMachine env).step state label = some next → next.manager.generationStarted = false)

/-- Such a step of a running generation ends it exactly when it finds the duration over. -/
theorem uninterrupted_step {state next : GenState} {label : GenLabel}
    (started : state.manager.generationStarted = true)
    (uninterrupted : Uninterrupted env state label)
    (step : (genMachine env).step state label = some next) :
    next.manager.generationStarted = true ↔ ¬ state.Expires label := by
  have same : next.manager.generationStarted = true → ¬ state.Expires label →
      (next.manager.generationStarted = true ↔ ¬ state.Expires label) := iff_of_true
  cases (genStep_spec step).2 with
  | dequeue | flush | nic => exact same started not_false
  | handle manager msg rest input =>
    refine same ?_ not_false
    obtain ⟨request, msg⟩ := msg
    cases msg with
    | startGeneration cfg =>
      show (onIncMsg env input manager _).generationStarted = true
      rw [onIncMsg, onStartGeneration_started input cfg started]
      exact started
    | stopGeneration => exact absurd rfl uninterrupted.1
    | statsReport => exact started
  | tick manager input => exact beforeTimers_started env input started
  | fire manager next pos flow event run =>
    obtain ⟨gen, fl, -, -, -, rfl⟩ := fire_eq_some.mp run
    exact same started not_false

/-! ### The last state of a generation -/

/-- The manager as it is when the generation ends, or at the end of the run. -/
def lastRunning (env : Env) : GenState → List GenLabel → GenManager
  | state, [] => state.manager
  | state, label :: rest =>
    match (genMachine env).step state label with
    | none => state.manager
    | some next =>
      if next.manager.generationStarted then lastRunning env next rest else state.manager

theorem lastRunning_cons {state next : GenState} {label : GenLabel} (rest : List GenLabel)
    (step : (genMachine env).step state label = some next) :
    lastRunning env state (label :: rest) =
      if next.manager.generationStarted then lastRunning env next rest else state.manager := by
  rw [lastRunning, step]

/-- The final statistics of every flow of a generation. -/
def finalEntries (env : Env) (started : GenState) (labels : List GenLabel) : List SummaryEntry :=
  (lastRunning env started labels).generators.flatMap fun gen => gen.flows.map (summaryEntry gen)

/-- Once the generation is over it stays so, and no flow reports anything. -/
theorem over_stays {state final : GenState} {labels : List GenLabel} (sound : state.Sound)
    (finished : state.manager.generationStarted = false)
    (between : (genMachine env).AllSteps (Uninterrupted env) state labels)
    (run : (genMachine env).run state labels = some final) :
    final.manager.generationStarted = false ∧ flowLog env state labels = [] := by
  induction labels generalizing state with
  | nil =>
    obtain rfl := Option.some.inj run
    exact ⟨finished, rfl⟩
  | cons label rest inductionHypothesis =>
    obtain ⟨next, step, run⟩ := ((genMachine env).run_cons_eq_some).mp run
    obtain ⟨uninterrupted, between⟩ := between next step
    obtain ⟨stays, log⟩ :=
      inductionHypothesis (sound.step step) (uninterrupted.2 finished next step) between run
    refine ⟨stays, ?_⟩
    rw [flowLog_cons rest step, log, List.append_nil]
    cases (genStep_spec step).2 with
    | fire manager next pos flow event fired =>
      have running := Option.isSome_iff_ne_none.mpr (sound.started rfl)
      exact absurd (finished.symm.trans running) Bool.false_ne_true
    | dequeue | handle | tick | flush | nic => rfl

/-- When no step finds the duration over, the generation runs to the end. -/
theorem runs_to_end {state final : GenState} {labels : List GenLabel}
    (started : state.manager.generationStarted = true)
    (between : (genMachine env).AllSteps (Uninterrupted env) state labels)
    (inTime : (genMachine env).AllSteps (fun state label => ¬ state.Expires label) state labels)
    (run : (genMachine env).run state labels = some final) :
    lastRunning env state labels = final.manager := by
  induction labels generalizing state with
  | nil =>
    obtain rfl := Option.some.inj run
    rfl
  | cons label rest inductionHypothesis =>
    obtain ⟨next, step, run⟩ := ((genMachine env).run_cons_eq_some).mp run
    obtain ⟨uninterrupted, between⟩ := between next step
    obtain ⟨before, inTime⟩ := inTime next step
    have still := (uninterrupted_step started uninterrupted step).mpr before
    rw [lastRunning_cons rest step, if_pos still]
    exact inductionHypothesis still between inTime run

/-- A generation that still runs at the end was in time at every step. -/
theorem inTime_of_running {state final : GenState} {labels : List GenLabel} (sound : state.Sound)
    (started : state.manager.generationStarted = true)
    (between : (genMachine env).AllSteps (Uninterrupted env) state labels)
    (run : (genMachine env).run state labels = some final)
    (running : final.manager.generationStarted = true) :
    (genMachine env).AllSteps (fun state label => ¬ state.Expires label) state labels := by
  induction labels generalizing state with
  | nil => exact trivial
  | cons label rest inductionHypothesis =>
    intro next step
    rw [Machine.run_cons, step, Option.bind_some] at run
    obtain ⟨uninterrupted, between⟩ := between next step
    have still : next.manager.generationStarted = true := by
      by_contra finished
      rw [Bool.not_eq_true] at finished
      have ends := (over_stays (sound.step step) finished between run).1
      exact absurd (ends.symm.trans running) Bool.false_ne_true
    exact ⟨(uninterrupted_step started uninterrupted step).mp still,
      inductionHypothesis (sound.step step) still between run⟩

/-- In its last state every flow of the generation has counted all its reports. -/
theorem lastRunning_tallied {counts : List ℕ} {log : List FlowReport} {state final : GenState}
    {labels : List GenLabel} (sound : state.Sound)
    (started : state.manager.generationStarted = true)
    (tallied : state.manager.Tallied counts log)
    (between : (genMachine env).AllSteps (Uninterrupted env) state labels)
    (run : (genMachine env).run state labels = some final) :
    (lastRunning env state labels).Tallied counts (log ++ flowLog env state labels) := by
  induction labels generalizing state log with
  | nil =>
    rw [flowLog, List.append_nil]
    exact tallied
  | cons label rest inductionHypothesis =>
    obtain ⟨next, step, run⟩ := ((genMachine env).run_cons_eq_some).mp run
    obtain ⟨uninterrupted, between⟩ := between next step
    rw [lastRunning_cons rest step, flowLog_cons rest step]
    by_cases still : next.manager.generationStarted = true
    · rw [if_pos still, ← List.append_assoc]
      exact inductionHypothesis (sound.step step) still
        (tallied.step (running_step sound started still step)) between run
    · rw [if_neg still]
      rw [Bool.not_eq_true] at still
      rw [(over_stays (sound.step step) still between run).2, List.append_nil]
      -- only the part up to the timers ends a generation, and it reports nothing
      cases (genStep_spec step).2 with
      | fire manager next pos flow event fired =>
        obtain ⟨gen, fl, -, -, -, rfl⟩ := fire_eq_some.mp fired
        exact absurd (still.symm.trans started) Bool.false_ne_true
      | dequeue | handle | tick | flush | nic =>
        show GenManager.Tallied counts (log ++ []) _
        rw [List.append_nil]
        exact tallied

/-! ### The report -/

/-- Only a generation without captures has no flow to report. -/
theorem places_eq_nil {cfg : GenConfig} : places cfg.flowCounts = [] ↔ cfg.flowsCfgs = [] := by
  constructor
  · intro none
    cases caps : cfg.flowsCfgs with
    | nil => rfl
    | cons cap rest =>
      have some : 0 < cap.flowsPerSec.toNat := UInt32.le_iff_toNat_le.mp cap.fpsLimits.1
      have first : (0, 0) ∈ places cfg.flowCounts :=
        mem_places.mpr ⟨cap.flowsPerSec.toNat, by rw [GenConfig.flowCounts, caps]; rfl, some⟩
      rw [none] at first
      exact absurd first List.not_mem_nil
  · intro none
    rw [GenConfig.flowCounts, none]
    rfl

/-- The first request to stop after a start, before any other start, is answered with the final
statistics of the flows of that generation exactly when no step found the duration over before
it, or there are no flows. The final statistics are one entry for every flow, which says what
the flow has reported. -/
theorem stop_report_iff {cfg : GenConfig} {started : GenState} {labels : List GenLabel}
    {last : GenManager} {next : GenState} (starts : Starts env cfg started)
    (between : (genMachine env).AllSteps (Uninterrupted env) started labels)
    (stop : HandlesStop env started labels last next) :
    ∃ res, next.manager.ops.outMsgs = last.ops.outMsgs ++ [.stopGeneration res] ∧
      List.Forall₂ (fun place entry => SummaryEntry.Reports place
        (reportsAt place.1 place.2 (flowLog env started labels)) entry) (places cfg.flowCounts)
        (finalEntries env started labels) ∧
      (res.detailed = finalEntries env started labels ↔
        (genMachine env).AllSteps (fun state label => ¬ state.Expires label) started labels ∨
          cfg.flowsCfgs = []) := by
  obtain ⟨sound, tallied⟩ := starts.begun
  obtain ⟨-, -, -, -, -, -, -, -, -, begun⟩ := starts
  obtain ⟨lastSound, summary, answered⟩ := stop.answered sound
  obtain ⟨request, rest, input, run, -⟩ := stop
  have entries := (lastRunning_tallied sound begun tallied between run).entries
  rw [List.nil_append] at entries
  refine ⟨_, answered, entries, fun same => ?_, ?_⟩
  · by_cases running : last.generationStarted = true
    · exact Or.inl (inTime_of_running sound begun between run running)
    · rw [Bool.not_eq_true] at running
      rw [lastSound.empty running] at same
      rw [show (lastRunning env started labels).generators.flatMap _ = [] from same.symm] at entries
      exact Or.inr (places_eq_nil.mp (List.forall₂_nil_right_iff.mp entries))
  · rintro (inTime | none)
    · rw [finalEntries, runs_to_end begun between inTime run]
    · rw [places_eq_nil.mpr none] at entries
      rw [finalEntries, List.forall₂_nil_left_iff.mp entries]
      by_cases running : last.generationStarted = true
      · have inTime := inTime_of_running sound begun between run running
        rw [runs_to_end begun between inTime run] at entries
        exact List.forall₂_nil_left_iff.mp entries
      · rw [Bool.not_eq_true] at running
        rw [lastSound.empty running]
        rfl

/-- A generation that runs until it is stopped is not interrupted. -/
theorem Stopped.between {cfg : GenConfig} {started : GenState} {labels : List GenLabel}
    {last : GenManager} {next : GenState} (stopped : Stopped env cfg started labels last next) :
    (genMachine env).AllSteps (Uninterrupted env) started labels := by
  refine (genMachine env).allSteps_of_allStates
    (fun state => state.manager.generationStarted = true) (Uninterrupted env)
    (fun state label next begun step still => ⟨fun handled => ?_, fun finished => ?_⟩)
    stopped.running
  · cases (genStep_spec step).2 with
    | handle manager msg rest input =>
      rw [show msg.msg = .stopGeneration from Option.some.inj handled] at still
      exact absurd still Bool.false_ne_true
    | dequeue | tick | fire | flush | nic => exact absurd handled (by simp [GenState.handled])
  · exact absurd (finished.symm.trans begun) Bool.false_ne_true

/-- A generation stopped in time. -/
theorem stop_report_twoEvents : ∃ started last next res,
    HandlesStop (sampleEnv samplePool) started (eventsAndStop twoEvents) last next ∧
      next.manager.ops.outMsgs = last.ops.outMsgs ++ [.stopGeneration res] ∧
      res.detailed = finalEntries (sampleEnv samplePool) started (eventsAndStop twoEvents) := by
  obtain ⟨started, last, next, stopped, -⟩ := sample_stopped twoEvents
  obtain ⟨res, answered, -, iff⟩ := stop_report_iff stopped.start stopped.between stopped.stop
  refine ⟨started, last, next, res, stopped.stop, answered, iff.mpr (Or.inl ?_)⟩
  obtain ⟨request, rest, input, run, -⟩ := stopped.stop
  exact inTime_of_running stopped.start.begun.1 stopped.running.head stopped.between run
    (stopped.running.last _ run)

/-- The duration of a second is over before the request to stop. -/
def stopAfterEnd : List GenLabel :=
  [.tick (tickAt 1000001 0), .dequeue [⟨none, .stopGeneration⟩]]

/-- The flow of a generation that ended by itself is in no summary. -/
theorem stop_report_lost : ∃ started last next res,
    Starts (sampleEnv samplePool) (sampleCfg [oneFlow]) started ∧
      (genMachine (sampleEnv samplePool)).AllSteps (Uninterrupted (sampleEnv samplePool)) started
        stopAfterEnd ∧
      HandlesStop (sampleEnv samplePool) started stopAfterEnd last next ∧
      next.manager.ops.outMsgs = last.ops.outMsgs ++ [.stopGeneration res] ∧
      res.detailed = [] ∧
      (finalEntries (sampleEnv samplePool) started stopAfterEnd).length = 1 := by
  have values : (((genMachine (sampleEnv samplePool)).step ⟨{}, .handling
      [⟨none, .startGeneration (sampleCfg [oneFlow])⟩]⟩ (.handle {})).bind fun started =>
        ((genMachine (sampleEnv samplePool)).step started (.tick (tickAt 1000001 0))).map
          fun ended => started.manager.generationStarted && !ended.manager.generationStarted &&
            !ended.manager.ops.aborted && ended.place matches .idle) = some true := by
    decide +kernel
  obtain ⟨started, start, values⟩ := Option.bind_eq_some_iff.mp values
  obtain ⟨⟨ended, place⟩, tick, values⟩ := Option.map_eq_some_iff.mp values
  simp only [Bool.and_eq_true, Bool.not_eq_true'] at values
  obtain ⟨⟨⟨begun, finished⟩, alive⟩, idle⟩ := values
  obtain rfl : place = .idle := by
    cases place with
    | idle => rfl
    | timers => exact absurd idle (by simp)
    | handling msgs => exact absurd idle (by simp)
  have dequeue : (genMachine (sampleEnv samplePool)).step ⟨ended, .idle⟩
      (.dequeue [⟨none, .stopGeneration⟩]) = some ⟨ended, .handling [⟨none, .stopGeneration⟩]⟩ :=
    step_part alive rfl
  have starts : Starts (sampleEnv samplePool) (sampleCfg [oneFlow]) started :=
    ⟨"", aboutToStart, {}, none, [], {}, rfl, rfl, start, begun⟩
  have between : (genMachine (sampleEnv samplePool)).AllSteps
      (Uninterrupted (sampleEnv samplePool)) started stopAfterEnd := by
    intro next step
    obtain rfl := Option.some.inj (tick.symm.trans step)
    refine ⟨⟨by simp [GenState.handled], fun none => ?_⟩, fun next step => ?_⟩
    · exact absurd (none.symm.trans begun) Bool.false_ne_true
    · obtain rfl := Option.some.inj (dequeue.symm.trans step)
      refine ⟨⟨by simp [GenState.handled], fun _ next step => ?_⟩, trivial⟩
      obtain rfl := Option.some.inj (dequeue.symm.trans step)
      exact finished
  have stop : HandlesStop (sampleEnv samplePool) started stopAfterEnd ended _ :=
    ⟨none, [], {}, by
      rw [stopAfterEnd, Machine.run_cons, tick, Option.bind_some, Machine.run_cons, dequeue,
        Option.bind_some, Machine.run_nil], step_part alive rfl⟩
  obtain ⟨sound, tallied⟩ := starts.begun
  obtain ⟨endedSound, summary, answered⟩ := stop.answered sound
  refine ⟨started, ended, _, _, starts, between, stop, answered, ?_, ?_⟩
  · rw [endedSound.empty finished]
    rfl
  · obtain ⟨request, rest, input, run, -⟩ := stop
    exact (lastRunning_tallied sound begun tallied between run).entries.length_eq.symm

end TrafficGenerator
