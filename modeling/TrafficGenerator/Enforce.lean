/-
This file is about `TG_ENFORCE` as `put/tg_assert.h` defines it. The macro
aborts when its condition holds, and the conditions are what the code relies
on, so it aborts exactly where everything is as it should be: the first call of
the generator's `process_events` and the first response the management handles
both end the process.
-/

import TrafficGenerator.GenInvariant
import TrafficGenerator.MgmtSteps

namespace TrafficGenerator

variable {env : Env} {manager : GenManager}

/-! ### The generator -/

/-- What holds of the generator at all times: nothing was started without an abort. -/
def GenManager.AbortedOrIdle (manager : GenManager) : Prop :=
  manager.ops.aborted = true ∨ manager.genCycles = none ∧ manager.ops.txPkts = []

/-- A check of a condition that holds aborts. -/
theorem Env.EnforceAsDefined.aborts (asDefined : env.EnforceAsDefined) :
    env.enforce true = true := by
  rw [show env.enforce = id from asDefined]
  rfl

/-- A request does not start anything without an abort. -/
theorem onIncMsg_abortedOrIdle (asDefined : env.EnforceAsDefined) (input : StartIn)
    (msg : ReqMsg) (sound : manager.Sound) (before : manager.AbortedOrIdle) :
    (onIncMsg env input manager msg).AbortedOrIdle := by
  rcases before with aborted | ⟨idle, txPkts⟩
  · exact Or.inl ((onIncMsg_aborted env input msg sound).kept aborted)
  · have quiet := (onIncMsg_sound env input msg sound).2.trans txPkts
    cases msg with
    | startGeneration cfg =>
      have notStarted : manager.generationStarted = false := by
        rw [GenManager.generationStarted, idle]
        rfl
      rw [onIncMsg]
      cases onStartGeneration_cases env input cfg manager sound.empty with
      | refused started => exact absurd (notStarted.symm.trans started) Bool.false_ne_true
      | failed thrown middle _ undone result =>
        refine Or.inr ⟨?_, quiet⟩
        rw [result]
        exact idle
      | begun gens middle _ built done result =>
        refine Or.inl ?_
        rw [result, asDefined.aborts]
        exact Bool.or_true _
    | stopGeneration => exact Or.inr ⟨rfl, quiet⟩
    | statsReport => exact Or.inr ⟨idle, quiet⟩

/-- The messages of a call do not either. -/
theorem handle_abortedOrIdle (asDefined : env.EnforceAsDefined)
    (msgs : List (Tagged ReqMsg × StartIn)) (sound : manager.Sound)
    (before : manager.AbortedOrIdle) :
    let handled := msgs.foldl (fun manager msg => onIncMsg env msg.2 manager msg.1.msg) manager
    handled.Sound ∧ handled.ops.txPkts = manager.ops.txPkts ∧ handled.AbortedOrIdle := by
  induction msgs generalizing manager with
  | nil => exact ⟨sound, rfl, before⟩
  | cons msg rest inductionHypothesis =>
    obtain ⟨handled, txPkts⟩ := onIncMsg_sound env msg.2 msg.1.msg sound
    obtain ⟨final, finalTxPkts, after⟩ := inductionHypothesis handled
      (onIncMsg_abortedOrIdle asDefined msg.2 msg.1.msg sound before)
    exact ⟨final, finalTxPkts.trans txPkts, after⟩

/-- The checks of an idle manager abort. -/
theorem beforeTimers_aborts (asDefined : env.EnforceAsDefined) (input : TickIn)
    (sound : manager.Sound) (before : manager.AbortedOrIdle) :
    (beforeTimers env input manager).2.ops.aborted = true := by
  rcases before with aborted | ⟨idle, txPkts⟩
  · exact (beforeTimers_aborted env input sound).kept aborted
  · rw [beforeTimers]
    dsimp only
    rw [idle]
    show (manager.ops.aborted || env.enforce (manager.ops.txPkts.isEmpty == true) || _) = true
    rw [txPkts, show (([] : List MbufId).isEmpty == true) = true from rfl, asDefined.aborts,
      Bool.or_true, Bool.true_or]

/-- The timers keep the invariant and undo no abort. -/
theorem runTimers_sound (env : Env) (expirations : List Expiration) (sound : manager.Sound) :
    (runTimers env expirations manager).Sound ∧
      env.MayAbort manager.ops.aborted (runTimers env expirations manager).ops.aborted := by
  induction expirations generalizing manager with
  | nil => exact ⟨sound, Env.MayAbort.refl _⟩
  | cons expiration rest inductionHypothesis =>
    rw [runTimers, List.foldl_cons]
    cases run : manager.fire env expiration.pos expiration.flow expiration.event with
    | none => exact inductionHypothesis sound
    | some next =>
      obtain ⟨final, may⟩ := inductionHypothesis (fire_sound sound run).1
      exact ⟨final, (fire_aborted run).trans may⟩

/-- Every call of `process_events` aborts. -/
theorem processEvents_aborts (asDefined : env.EnforceAsDefined) (call : Call)
    (sound : GenState.Sound ⟨manager, .idle⟩) (before : manager.AbortedOrIdle) :
    GenState.Sound ⟨processEvents env call manager, .idle⟩ ∧
      (processEvents env call manager).ops.aborted = true := by
  obtain ⟨handled, txPkts, after⟩ := handle_abortedOrIdle asDefined call.msgs sound.manager before
  have quiet := txPkts.trans (sound.quiet (by simp))
  obtain ⟨ticked, tickedTxPkts, -⟩ := beforeTimers_sound env call.tick handled quiet
  have aborted := beforeTimers_aborts asDefined call.tick handled after
  unfold processEvents
  dsimp only
  split
  · obtain ⟨timers, may⟩ := runTimers_sound env call.expirations ticked
    refine ⟨⟨flush_sound call.tx timers, fun _ => flushTxPkts_txPkts _ _, by simp⟩, ?_⟩
    exact (flushTxPkts_frame call.tx _).2.2.2.2.1.trans (may.kept aborted)
  · exact ⟨⟨ticked, fun _ => tickedTxPkts, by simp⟩, aborted⟩

/-- The manager after some calls of `process_events`. -/
def afterCalls (env : Env) (workingDir : String) (calls : List Call) : GenManager :=
  calls.foldl (fun manager call => processEvents env call manager) { workingDir }

/-- From the first call on the generator has aborted. -/
theorem afterCalls_aborted (asDefined : env.EnforceAsDefined) (workingDir : String)
    (calls : List Call) :
    GenState.Sound ⟨afterCalls env workingDir calls, .idle⟩ ∧
      (afterCalls env workingDir calls).AbortedOrIdle ∧
      ((afterCalls env workingDir calls).ops.aborted = false ↔ calls = []) := by
  induction calls using List.reverseRecOn with
  | nil =>
    exact ⟨GenState.sound_init workingDir, Or.inr ⟨rfl, rfl⟩, Iff.intro (fun _ => rfl) fun _ => rfl⟩
  | append_singleton calls call inductionHypothesis =>
    obtain ⟨sound, before, -⟩ := inductionHypothesis
    rw [afterCalls, List.foldl_append]
    obtain ⟨after, aborted⟩ := processEvents_aborts asDefined call sound before
    exact ⟨after, Or.inl aborted, Iff.intro
      (fun alive => absurd (aborted.symm.trans alive) Bool.noConfusion) (by simp)⟩

/-! ### The management -/

/-- A response answers a pending request. -/
def MgmtLabel.AnswersPending (state : MgmtState) : MgmtLabel → Prop
  | .handle msg => ∀ kind ∈ msg.kind, (state.manager.cb kind).isSome = true
  | _ => True

/-- Whether a step handles a response. -/
def MgmtLabel.isResponse : MgmtLabel → Bool
  | .handle msg => msg.kind.isSome
  | _ => false

/-- A step of the management aborts exactly when it handles a response. -/
theorem mgmtStep_aborted {mgmtEnv : MgmtEnv} (asDefined : mgmtEnv.enforce = id)
    {state next : MgmtState} {label : MgmtLabel} (answers : label.AnswersPending state)
    (step : (mgmtMachine mgmtEnv).step state label = some next) :
    state.manager.aborted = false ∧ next.manager.aborted = label.isResponse := by
  simp only [mgmtMachine, mgmtStep] at step
  split at step
  · exact absurd step (by simp)
  · next alive =>
    rw [Bool.not_eq_true] at alive
    refine ⟨alive, ?_⟩
    split at step
    · next cb target req =>
      obtain rfl := Option.some.inj step
      exact (onHttpRequest_requested mgmtEnv cb target req state.manager state.queue).aborted.trans
        alive
    · next msg =>
      obtain rfl := Option.some.inj step
      cases kind : msg.kind with
      | none =>
        rw [onResMsg_report mgmtEnv state.manager kind, MgmtLabel.isResponse, kind]
        exact alive
      | some kind' =>
        obtain ⟨status, body, -, result⟩ := onResMsg_response mgmtEnv state.manager kind
        rw [result, respond_aborted, answers kind' kind, asDefined, MgmtLabel.isResponse, kind]
        exact Bool.or_true _
    · obtain ⟨popped, -, rfl⟩ := Option.map_eq_some_iff.mp step
      exact alive

/-- A run of the management has not aborted exactly when it handles no response. -/
theorem mgmtRun_aborted {mgmtEnv : MgmtEnv} (asDefined : mgmtEnv.enforce = id)
    {state final : MgmtState} {labels : List MgmtLabel} (alive : state.manager.aborted = false)
    (answers : (mgmtMachine mgmtEnv).AllSteps (fun state label => label.AnswersPending state)
      state labels)
    (run : (mgmtMachine mgmtEnv).run state labels = some final) :
    final.manager.aborted = false ↔ ∀ label ∈ labels, label.isResponse = false := by
  induction labels generalizing state with
  | nil =>
    obtain rfl := Option.some.inj run
    exact Iff.intro (fun _ => by simp) fun _ => alive
  | cons label rest inductionHypothesis =>
    obtain ⟨next, step, run⟩ := ((mgmtMachine mgmtEnv).run_cons_eq_some).mp run
    obtain ⟨-, aborted⟩ := mgmtStep_aborted asDefined (answers next step).1 step
    rw [List.forall_mem_cons, ← aborted]
    by_cases response : next.manager.aborted = false
    · rw [inductionHypothesis response (answers next step).2 run]
      exact Iff.intro (fun none => ⟨response, none⟩) And.right
    · -- an aborted process has no more steps
      refine Iff.intro (fun ends => absurd ?_ response) fun none => absurd none.1 response
      cases rest with
      | nil => exact Option.some.inj run ▸ ends
      | cons label' rest =>
        obtain ⟨next', step', -⟩ := ((mgmtMachine mgmtEnv).run_cons_eq_some).mp run
        exact (mgmtStep_aborted asDefined ((answers next step).2 next' step').1 step').1

/-! ### Both managers -/

/-- With the macro as it is defined no part of the program gets far: the generator has not
aborted exactly as long as `process_events` was never called, and the management exactly as
long as it has handled no response. -/
theorem enforce_aborts (env : Env) (asDefined : env.EnforceAsDefined) (mgmtEnv : MgmtEnv)
    (mgmtAsDefined : mgmtEnv.enforce = id) (workingDir : String) (calls : List Call)
    {labels : List MgmtLabel} {final : MgmtState}
    (run : (mgmtMachine mgmtEnv).run {} labels = some final)
    (answers : (mgmtMachine mgmtEnv).AllSteps (fun state label => label.AnswersPending state)
      {} labels) :
    ((afterCalls env workingDir calls).ops.aborted = false ↔ calls = []) ∧
      (final.manager.aborted = false ↔ ∀ label ∈ labels, label.isResponse = false) :=
  ⟨(afterCalls_aborted asDefined workingDir calls).2.2,
    mgmtRun_aborted mgmtAsDefined rfl answers run⟩

/-- The sample environment with the macro as it is defined. -/
def abortingEnv : Env := { sampleEnv samplePool with enforce := id }

/-- A management without any valid configuration. -/
def abortingMgmt : MgmtEnv where
  enforce := id
  hz := 1000000
  parseCfg _ := .error "invalid"

/-- The first call of `process_events`, with nothing to do, aborts. -/
theorem idle_call_aborts : (afterCalls abortingEnv "" [{}]).ops.aborted = true := by
  decide +kernel

/-- A request for the statistics is made, and answered. -/
def statsAnswered : List MgmtLabel := [.http 0 "/get_stats" "", .drain 1, .handle (.statsReport {})]

/-- Both have aborted after one call and one response. -/
theorem enforce_aborts_idleCall_statsAnswered : ∃ final,
    (mgmtMachine abortingMgmt).run {} statsAnswered = some final ∧
    ((afterCalls abortingEnv "" [{}]).ops.aborted = false ↔ ([{}] : List Call) = []) ∧
    (final.manager.aborted = false ↔ ∀ label ∈ statsAnswered, label.isResponse = false) := by
  have runs : ((mgmtMachine abortingMgmt).run {} statsAnswered).isSome = true := by decide +kernel
  obtain ⟨final, run⟩ := Option.isSome_iff_exists.mp runs
  have pending : ((mgmtMachine abortingMgmt).run {} (statsAnswered.take 2)).map
      (fun state => (state.manager.cb .stats).isSome) = some true := by decide +kernel
  refine ⟨final, run, enforce_aborts abortingEnv rfl abortingMgmt rfl "" [{}] run ?_⟩
  refine Machine.AllSteps.of_take _ fun count label here state before => ?_
  rcases count with _ | _ | _ | count
  · obtain rfl := Option.some.inj here
    exact trivial
  · obtain rfl := Option.some.inj here
    exact trivial
  · obtain rfl := Option.some.inj here
    intro kind response
    obtain rfl := Option.some.inj response
    rw [before] at pending
    exact Option.some.inj pending
  · exact absurd here (by simp [statsAnswered])

end TrafficGenerator
