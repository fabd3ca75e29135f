/-
This file says once what every step of the system does to the two queues and to
the messages taken off them. A request handled by the generator leads to exactly
one response of its kind, a flow event to one report, and nothing else the
generator does to any message; whether the queue takes what is offered depends
on its length only.
-/

import TrafficGenerator.GenInvariant
import TrafficGenerator.MgmtSteps
import TrafficGenerator.System

namespace TrafficGenerator

variable {env : Env} {mgmtEnv : MgmtEnv} {manager : GenManager}

/-! ### The messages of the generator -/

/-- Every request leads to one response of its kind. -/
theorem onIncMsg_outMsgs (env : Env) (input : StartIn) (msg : ReqMsg) (sound : manager.Sound) :
    ∃ res : ResMsg, res.kind = some msg.kind ∧
      (onIncMsg env input manager msg).ops.outMsgs = manager.ops.outMsgs ++ [res] := by
  cases msg with
  | startGeneration cfg =>
    rw [onIncMsg]
    cases onStartGeneration_cases env input cfg manager sound.empty with
    | refused started result =>
      rw [result]
      exact ⟨_, rfl, rfl⟩
    | failed thrown middle idle undone result =>
      rw [result]
      exact ⟨_, rfl, congrArg (· ++ [_]) undone.frame.outMsgs⟩
    | begun gens middle idle built done result =>
      obtain ⟨-, -, -, -, outMsgs, -⟩ := resetStats_frame input.resetErr middle
      rw [result]
      exact ⟨.startGeneration (.ok ()), rfl,
        congrArg (· ++ [_]) (outMsgs.trans done.frame.outMsgs)⟩
  | stopGeneration =>
    obtain ⟨aborted, -, result⟩ := stopGeneration_eq env manager sound.ownsTimers
    rw [onIncMsg, onStopGeneration, result]
    exact ⟨_, rfl, rfl⟩
  | statsReport => exact ⟨_, rfl, rfl⟩

/-- The part up to the timers offers nothing. -/
theorem beforeTimers_outMsgs (env : Env) (input : TickIn) (sound : manager.Sound) :
    (beforeTimers env input manager).2.ops.outMsgs = manager.ops.outMsgs := by
  rcases beforeTimers_cases env input manager with
    ⟨-, aborted, -, result⟩ | ⟨-, result⟩ | ⟨-, result⟩ | ⟨-, result⟩ <;> rw [result]
  · rfl
  · obtain ⟨aborted, -, stopped⟩ :=
      stopGeneration_eq env _ (receive_sound input.rx sound).ownsTimers
    rw [stopped]
    exact (flushTxPkts_frame _ _).2.1
  · rfl
  · exact (flushTxPkts_frame _ _).2.1

/-- What a step of the generator offers, and what it does to the requests it has taken. -/
inductive GenOffer : GenState → GenLabel → GenState → Prop
  | dequeue {state next : GenState} (msgs : List (Tagged ReqMsg)) (before : state.batch = [])
      (after : next.batch = msgs) : GenOffer state (.dequeue msgs) next
  | handle {state next : GenState} (input : StartIn) (msg : Tagged ReqMsg)
      (rest : List (Tagged ReqMsg)) (res : ResMsg) (before : state.batch = msg :: rest)
      (after : next.batch = rest) (answers : res.kind = some msg.msg.kind)
      (offered : state.offered next = [res]) : GenOffer state (.handle input) next
  | report {state next : GenState} (pos flow : ℕ) (event : EventIn) (report : GenerationReport)
      (same : next.batch = state.batch)
      (offered : state.offered next = [.generationReport report]) :
      GenOffer state (.fire pos flow event) next
  | quiet {state next : GenState} {label : GenLabel} (same : next.batch = state.batch)
      (noDequeue : ∀ msgs, label ≠ .dequeue msgs) (noHandle : ∀ input, label ≠ .handle input)
      (noFire : ∀ pos flow event, label ≠ .fire pos flow event)
      (offered : state.offered next = []) :
      GenOffer state label next

theorem offered_eq {before after : GenState} {msgs : List ResMsg}
    (grew : after.manager.ops.outMsgs = before.manager.ops.outMsgs ++ msgs) :
    before.offered after = msgs := by
  rw [GenState.offered, grew, List.drop_left]

theorem genStep_offer {state next : GenState} {label : GenLabel} (sound : state.Sound)
    (step : (genMachine env).step state label = some next) : GenOffer state label next := by
  cases (genStep_spec step).2 with
  | dequeue manager msgs batch => exact .dequeue msgs rfl rfl
  | handle manager msg rest input =>
    obtain ⟨res, answers, grew⟩ := onIncMsg_outMsgs env input msg.msg sound.manager
    exact .handle input msg rest res rfl rfl answers (offered_eq grew)
  | tick manager input =>
    refine .quiet ?_ (by simp) (by simp) (by simp) (offered_eq ?_)
    · by_cases timers : (beforeTimers env input manager).1 = true
      · rw [if_pos timers]
        rfl
      · rw [if_neg timers]
        rfl
    · exact (beforeTimers_outMsgs env input sound.manager).trans (List.append_nil _).symm
  | fire manager next pos flow event run =>
    obtain ⟨gen, fl, -, flowFound, -, rfl⟩ := fire_eq_some.mp run
    obtain ⟨report, grew⟩ := (emitPkt_frame env gen event (gen.advanced fl) manager.ops).outMsgs
    refine .report pos flow event report rfl (offered_eq ?_)
    show (gen.onFlowEvent env event flow manager.ops).2.outMsgs = _
    rw [onFlowEvent_eq gen event flowFound manager.ops]
    exact grew
  | flush manager tx =>
    refine .quiet rfl (by simp) (by simp) (by simp) (offered_eq ?_)
    exact ((flushTxPkts_frame tx manager.ops).2.1).trans (List.append_nil _).symm
  | nic manager place stats =>
    exact .quiet rfl (by simp) (by simp) (by simp) (offered_eq (List.append_nil _).symm)

/-- A part of the generator offers one message at most. -/
theorem offered_short {state next : GenState} {label : GenLabel} (sound : state.Sound)
    (step : (genMachine env).step state label = some next)
    (notDequeue : ∀ msgs, label ≠ .dequeue msgs) : (state.offered next).length ≤ 1 := by
  cases genStep_offer sound step with
  | dequeue msgs => exact absurd rfl (notDequeue msgs)
  | handle input msg rest res before after answers offered =>
    rw [offered, List.length_singleton]
  | report pos flow event report same offered => rw [offered, List.length_singleton]
  | quiet same noDequeue noHandle noFire offered =>
    rw [offered]
    exact Nat.zero_le _

/-! ### One step of the system -/

/-- The steps of the system, by what they do to the messages. -/
inductive SystemStep (mgmtEnv : MgmtEnv) : System → SystemLabel → System → Prop
  | http (system : System) (target req : String) (next : MgmtManager × ReqQueue)
      (requested : Requested system.requests system.mgmt system.reqQueue next) :
      SystemStep mgmtEnv system (.http target req)
        { system with mgmt := next.1, reqQueue := next.2, requests := system.requests + 1 }
  | mgmtDequeue (system : System) (count : ℕ) (taken rest : ResQueue)
      (idle : system.mgmtBatch = []) (queue : system.resQueue = taken ++ rest) :
      SystemStep mgmtEnv system (.mgmtDequeue count)
        { system with mgmtBatch := taken, resQueue := rest }
  | mgmtHandle (system : System) (msg : Tagged ResMsg) (rest : List (Tagged ResMsg))
      (batch : system.mgmtBatch = msg :: rest) :
      SystemStep mgmtEnv system .mgmtHandle
        { system with mgmt := onResMsg mgmtEnv system.mgmt msg.msg, mgmtBatch := rest }
  | genDequeue (system : System) (count : ℕ) (taken rest : ReqQueue) (gen : GenState)
      (queue : system.reqQueue = taken ++ rest) (before : system.gen.batch = [])
      (after : gen.batch = taken) :
      SystemStep mgmtEnv system (.genDequeue count) { system with gen, reqQueue := rest }
  | genHandle (system : System) (input : StartIn) (msg : Tagged ReqMsg)
      (rest : List (Tagged ReqMsg)) (gen : GenState) (res : ResMsg)
      (before : system.gen.batch = msg :: rest) (after : gen.batch = rest)
      (answers : res.kind = some msg.msg.kind) :
      SystemStep mgmtEnv system (.gen (.handle input))
        { system with gen, resQueue := offer system.resQueue ⟨msg.request, res⟩ }
  | genReport (system : System) (pos flow : ℕ) (event : EventIn) (gen : GenState)
      (request : Option ℕ) (report : GenerationReport) (same : gen.batch = system.gen.batch) :
      SystemStep mgmtEnv system (.gen (.fire pos flow event))
        { system with gen, resQueue := offer system.resQueue ⟨request, .generationReport report⟩ }
  | genQuiet (system : System) (label : GenLabel) (gen : GenState)
      (noHandle : ∀ input, label ≠ .handle input) (same : gen.batch = system.gen.batch) :
      SystemStep mgmtEnv system (.gen label) { system with gen }

theorem mgmtStep_spec {system next : System} {label : SystemLabel}
    (step : system.mgmtStep mgmtEnv label = some next) :
    SystemStep mgmtEnv system label next ∧ next.gen = system.gen := by
  unfold System.mgmtStep at step
  split at step
  · next target req =>
    split at step
    · obtain rfl := Option.some.inj step
      exact ⟨.http system target req _ (onHttpRequest_requested mgmtEnv system.requests target req
        system.mgmt system.reqQueue), rfl⟩
    · exact absurd step (by simp)
  · next count =>
    split at step
    · next idle =>
      obtain ⟨⟨taken, rest⟩, popped, rfl⟩ := Option.map_eq_some_iff.mp step
      obtain ⟨queue, -⟩ := BoundedFifo.pop_eq_some.mp popped
      exact ⟨.mgmtDequeue system count taken rest idle.1 queue, rfl⟩
    · exact absurd step (by simp)
  · split at step
    · exact absurd step (by simp)
    · next msg rest batch =>
      obtain rfl := Option.some.inj step
      exact ⟨.mgmtHandle system msg rest batch, rfl⟩
  · exact absurd step (by simp)

theorem genStep_system {system next : System} {label : SystemLabel} (sound : system.gen.Sound)
    (step : system.genStep env label = some next) :
    SystemStep mgmtEnv system label next ∧ next.gen.Sound := by
  unfold System.genStep at step
  split at step
  · next count =>
    obtain ⟨⟨taken, rest⟩, popped, step⟩ := Option.bind_eq_some_iff.mp step
    obtain ⟨gen, moved, rfl⟩ := Option.map_eq_some_iff.mp step
    obtain ⟨queue, -⟩ := BoundedFifo.pop_eq_some.mp popped
    have after := GenState.Sound.step sound moved
    cases genStep_offer sound moved with
    | dequeue msgs before batch =>
      exact ⟨.genDequeue system count taken rest gen queue before batch, after⟩
    | quiet _ noDequeue => exact absurd rfl (noDequeue taken)
  · exact absurd step (by simp)
  · next label notDequeue =>
    obtain ⟨gen, moved, rfl⟩ := Option.map_eq_some_iff.mp step
    refine ⟨?_, GenState.Sound.step sound moved⟩
    cases genStep_offer sound moved with
    | dequeue msgs before batch => exact absurd rfl (notDequeue msgs)
    | handle input msg rest res before after answers offered =>
      have serves : system.gen.serves (.handle input) = msg.request := by
        unfold GenState.serves
        rw [before]
      rw [offered, serves]
      exact .genHandle system input msg rest gen res before after answers
    | report pos flow event report same offered =>
      rw [offered]
      exact .genReport system pos flow event gen _ report same
    | quiet same _ noHandle _ offered =>
      rw [offered]
      exact .genQuiet system label gen noHandle same
  · exact absurd step (by simp)

/-- The system takes no other steps. -/
theorem systemStep_spec {system next : System} {label : SystemLabel} (sound : system.gen.Sound)
    (step : (systemMachine env mgmtEnv).step system label = some next) :
    SystemStep mgmtEnv system label next ∧ next.gen.Sound := by
  simp only [systemMachine, System.step] at step
  split at step
  · exact absurd step (by simp)
  · split at step
    · exact genStep_system sound step
    · exact genStep_system sound step
    · obtain ⟨spec, same⟩ := mgmtStep_spec step
      exact ⟨spec, same ▸ sound⟩

/-! ### The callbacks and the requests -/

/-- Callbacks are called one after the other, and none is taken back. -/
theorem answers_grow {system next : System} {label : SystemLabel}
    (step : SystemStep mgmtEnv system label next) :
    ∃ calls, next.mgmt.answers = system.mgmt.answers ++ calls := by
  cases step with
  | http target req next requested =>
    cases requested with
    | enqueued msg free room => exact ⟨[], by rw [setCb_answers, List.append_nil]⟩
    | full | answered => exact ⟨_, rfl⟩
  | mgmtHandle msg rest batch =>
    cases response : msg.msg.kind with
    | none => exact ⟨[], by rw [onResMsg_report mgmtEnv system.mgmt response, List.append_nil]⟩
    | some kind =>
      obtain ⟨status, body, -, result⟩ := onResMsg_response mgmtEnv system.mgmt response
      exact ⟨_, by rw [result, respond_answers]⟩
  | mgmtDequeue | genDequeue | genHandle | genReport | genQuiet =>
    exact ⟨[], (List.append_nil _).symm⟩

/-- Only an HTTP request takes a number. -/
theorem requests_step {system next : System} {label : SystemLabel}
    (step : SystemStep mgmtEnv system label next) :
    ((∃ target req, label = .http target req) ∧ next.requests = system.requests + 1) ∨
      next.requests = system.requests := by
  cases step with
  | http target req next requested => exact .inl ⟨⟨target, req, rfl⟩, rfl⟩
  | mgmtHandle | mgmtDequeue | genDequeue | genHandle | genReport | genQuiet => exact .inr rfl

theorem requests_http {system next : System} {target req : String}
    (step : SystemStep mgmtEnv system (.http target req) next) :
    next.requests = system.requests + 1 := by
  cases step with
  | http target req next requested => rfl

/-! ### The steps of the two threads -/

/-- While the process has not aborted, a step of the management is a step of the system. -/
theorem systemStep_of_mgmtStep {before after : System} {label : SystemLabel}
    (running : (before.mgmt.aborted || before.gen.manager.ops.aborted) = false)
    (step : before.mgmtStep mgmtEnv label = some after) :
    (systemMachine env mgmtEnv).step before label = some after := by
  simp only [systemMachine, System.step]
  rw [if_neg (by rw [running]; exact Bool.false_ne_true)]
  split
  · exact absurd step (by simp [System.mgmtStep])
  · exact absurd step (by simp [System.mgmtStep])
  · exact step

/-- And so is a step of the generator. -/
theorem systemStep_of_genStep {before after : System} {label : SystemLabel}
    (running : (before.mgmt.aborted || before.gen.manager.ops.aborted) = false)
    (step : before.genStep env label = some after) :
    (systemMachine env mgmtEnv).step before label = some after := by
  simp only [systemMachine, System.step]
  rw [if_neg (by rw [running]; exact Bool.false_ne_true)]
  split
  · exact step
  · exact step
  · next noDequeue noGen =>
    unfold System.genStep at step
    split at step
    · next count => exact absurd rfl (noDequeue count)
    · exact absurd step (by simp)
    · next label _ => exact absurd rfl (noGen label)
    · exact absurd step (by simp)

theorem reaches_of_mgmtStep {before after : System} {label : SystemLabel}
    (running : (before.mgmt.aborted || before.gen.manager.ops.aborted) = false)
    (step : before.mgmtStep mgmtEnv label = some after) :
    (systemMachine env mgmtEnv).Reachable before after :=
  Machine.Reachable.tail _ (Machine.Reachable.refl _ before) (systemStep_of_mgmtStep running step)

theorem reaches_of_genStep {before after : System} {label : SystemLabel}
    (running : (before.mgmt.aborted || before.gen.manager.ops.aborted) = false)
    (step : before.genStep env label = some after) :
    (systemMachine env mgmtEnv).Reachable before after :=
  Machine.Reachable.tail _ (Machine.Reachable.refl _ before) (systemStep_of_genStep running step)

end TrafficGenerator
