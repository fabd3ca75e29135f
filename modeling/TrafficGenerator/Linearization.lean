/-
This file is about what the answers say. An HTTP request is refused at the step
that receives it, for what it asks or because an earlier one for the same target
has no answer yet, or it is served at one step of the generator that lies between
the request and its answer, and the answer tells what that step did to the
generation. So whatever the two threads do meanwhile, the clients see a generator
that serves their requests one after the other.
-/

import TrafficGenerator.Provenance

namespace TrafficGenerator

variable {env : Env} {mgmtEnv : MgmtEnv} {manager : GenManager}

/-! ### The generator seen by the clients -/

/-- What serving an HTTP request does to the generator, and the answer that tells it: from the
manager before to the one after, with the status and the body. -/
inductive Served (env : Env) (mgmtEnv : MgmtEnv) (before after : GenManager) :
    String × String → HttpStatus → String → Prop
  | started (body : String) (cfg : GenConfig) (accepted : mgmtEnv.parseCfg body = .ok cfg)
      (idle : before.genCycles = none) (running : after.genCycles ≠ none)
      (works : after.WorksOn env cfg) :
      Served env mgmtEnv before after ("/start_gen", body) .ok
        (makeResponseBody "Generation started")
  | alreadyStarted (body : String) (running : before.genCycles ≠ none)
      (genCycles : after.genCycles = before.genCycles)
      (generators : after.generators = before.generators) :
      Served env mgmtEnv before after ("/start_gen", body) .preconditionFailed
        (makeResponseBody "Failed to start generation: Already started\n")
  | failed (body : String) (cfg : GenConfig) (thrown : Thrown)
      (accepted : mgmtEnv.parseCfg body = .ok cfg) (idle : before.genCycles = none)
      (threw : (createGens env before.workingDir cfg.dutAddr 0 cfg.flowsCfgs [] before.ops).1 =
        .error thrown)
      (genCycles : after.genCycles = none) (generators : after.generators = []) :
      Served env mgmtEnv before after ("/start_gen", body) .preconditionFailed
        (makeResponseBody s!"Failed to start generation: {thrown.what env}\n")
  | stopped (body : String) (genCycles : after.genCycles = none)
      (generators : after.generators = []) :
      Served env mgmtEnv before after ("/stop_gen", body) .ok (stopBody mgmtEnv.hz {
        summary := getEthStats before.ops
        detailed := before.generators.flatMap fun gen => gen.flows.map (summaryEntry gen) })
  | reported (body : String) (genCycles : after.genCycles = before.genCycles)
      (generators : after.generators = before.generators) :
      Served env mgmtEnv before after ("/get_stats", body) .ok
        (statsBody (getEthStats before.ops))

/-- The status and the body that a message of the generator becomes. -/
def ResMsg.answer (mgmtEnv : MgmtEnv) : ResMsg → Option (HttpStatus × String)
  | .startGeneration (.ok ()) => some (.ok, makeResponseBody "Generation started")
  | .startGeneration (.error text) =>
    some (.preconditionFailed, makeResponseBody s!"Failed to start generation: {text}\n")
  | .stopGeneration res => some (.ok, stopBody mgmtEnv.hz res)
  | .statsReport res => some (.ok, statsBody res)
  | .generationReport _ => none

theorem onResMsg_answer {res : ResMsg} {kind : ReqKind} (response : res.kind = some kind)
    (mgmt : MgmtManager) : ∃ status body, res.answer mgmtEnv = some (status, body) ∧
      onResMsg mgmtEnv mgmt res = respond mgmtEnv kind status body mgmt := by
  cases res with
  | startGeneration res =>
    obtain rfl := Option.some.inj response
    cases res with
    | ok => exact ⟨_, _, rfl, rfl⟩
    | error text => exact ⟨_, _, rfl, rfl⟩
  | stopGeneration res =>
    obtain rfl := Option.some.inj response
    exact ⟨_, _, rfl, rfl⟩
  | statsReport res =>
    obtain rfl := Option.some.inj response
    exact ⟨_, _, rfl, rfl⟩
  | generationReport report => exact absurd response (by simp [ResMsg.kind])

/-- The handler of a start request. -/
theorem onStartGeneration_served (input : StartIn) {body : String} {cfg : GenConfig}
    (sound : manager.Sound) (accepted : mgmtEnv.parseCfg body = .ok cfg) :
    ∃ res status text, (onStartGeneration env input cfg manager).ops.outMsgs =
        manager.ops.outMsgs ++ [res] ∧ res.answer mgmtEnv = some (status, text) ∧
      Served env mgmtEnv manager (onStartGeneration env input cfg manager) ("/start_gen", body)
        status text := by
  by_cases started : manager.generationStarted = true
  · rw [onStartGeneration_started input cfg started]
    refine ⟨_, _, _, rfl, rfl, .alreadyStarted body (fun idle => ?_) rfl rfl⟩
    rw [GenManager.generationStarted, idle] at started
    exact absurd started Bool.false_ne_true
  · have idle : manager.genCycles = none := Option.not_isSome_iff_eq_none.mp started
    rw [Bool.not_eq_true] at started
    cases built : createGens env manager.workingDir cfg.dutAddr 0 cfg.flowsCfgs [] manager.ops with
    | mk res middle =>
      have frame := (createGens_spec (Built.refl manager.ops) built).frame
      cases res with
      | error thrown =>
        rw [onStartGeneration_failed input cfg manager started built]
        exact ⟨_, _, _, congrArg (· ++ [_]) frame.outMsgs, rfl,
          .failed body cfg thrown accepted idle (congrArg Prod.fst built) idle (sound.idle idle)⟩
      | ok gens =>
        have works := onStartGeneration_worksOn input started (sound.empty started) built
        obtain ⟨-, -, -, -, outMsgs, -⟩ := resetStats_frame input.resetErr middle
        rw [onStartGeneration_built input cfg manager started (sound.empty started) built]
          at works ⊢
        exact ⟨.startGeneration (.ok ()), _, _,
          congrArg (· ++ [_]) (outMsgs.trans frame.outMsgs), rfl,
          .started body cfg accepted idle (by simp) works⟩

/-- Every request the generator handles is served. -/
theorem onIncMsg_served (input : StartIn) {http : String × String} {msg : ReqMsg}
    (sound : manager.Sound) (callsFor : mgmtEnv.CallsFor http msg) :
    ∃ res status text,
      (onIncMsg env input manager msg).ops.outMsgs = manager.ops.outMsgs ++ [res] ∧
      res.answer mgmtEnv = some (status, text) ∧
      Served env mgmtEnv manager (onIncMsg env input manager msg) http status text := by
  cases callsFor with
  | start body cfg accepted => exact onStartGeneration_served input sound accepted
  | stop body =>
    obtain ⟨aborted, -, result⟩ := stopGeneration_eq env manager sound.ownsTimers
    rw [onIncMsg, onStopGeneration, result]
    exact ⟨_, _, _, rfl, rfl, .stopped body rfl rfl⟩
  | stats body => exact ⟨_, _, _, rfl, rfl, .reported body rfl rfl⟩

/-! ### The place of a request in a run -/

/-- A request is served at a step of a run, after it was received, and the step tells the answer. -/
def ServedIn (env : Env) (mgmtEnv : MgmtEnv) (start : System) (labels : List SystemLabel)
    (number : ℕ) (status : HttpStatus) (body : String) : Prop :=
  ∃ (first rest : List SystemLabel) (input : StartIn) (before after : System)
      (http : String × String),
    labels = first ++ .gen (.handle input) :: rest ∧
    (systemMachine env mgmtEnv).run start first = some before ∧
    (systemMachine env mgmtEnv).step before (.gen (.handle input)) = some after ∧
    before.gen.serves (.handle input) = some number ∧
    (httpRequests first)[number]? = some http ∧
    Served env mgmtEnv before.gen.manager after.gen.manager http status body

theorem ServedIn.snoc {start : System} {labels : List SystemLabel} {number : ℕ}
    {status : HttpStatus} {body : String}
    (served : ServedIn env mgmtEnv start labels number status body) (label : SystemLabel) :
    ServedIn env mgmtEnv start (labels ++ [label]) number status body := by
  obtain ⟨first, rest, input, before, after, http, rfl, run, step, serves, place, effect⟩ := served
  exact ⟨first, rest ++ [label], input, before, after, http, by
    rw [List.append_assoc, List.cons_append], run, step, serves, place, effect⟩

theorem httpRequests_snoc (labels : List SystemLabel) (label : SystemLabel) :
    httpRequests (labels ++ [label]) = httpRequests labels ++ label.https := by
  rw [httpRequests, List.flatMap_append, List.flatMap_singleton]
  rfl

/-- After some HTTP requests one of them waits for its answer: its callback is kept, and was not
called. -/
structure System.Awaits (system : System) (https : List (String × String)) (kind : ReqKind)
    (number : ℕ) : Prop where
  callback : system.mgmt.cb kind = some number
  request : ∃ body, https[number]? = some (kind.target, body)
  unanswered : ∀ answer ∈ system.mgmt.answers, answer.request ≠ some number

/-- A callback that is pending was not called before. -/
theorem System.Matched.unanswered {system : System} (matched : system.Matched) {kind : ReqKind}
    {number : ℕ} (pending : system.mgmt.cb kind = some number) :
    ∀ answer ∈ system.mgmt.answers, answer.request ≠ some number := by
  have nodup : ((List.range system.requests).map some).Nodup :=
    (List.nodup_map_iff fun _ _ => Option.some.inj).mpr List.nodup_range
  have once := matched.callbacks.nodup_iff.mpr nodup
  have awaited : some number ∈ system.mgmt.pending := by
    obtain ⟨others, perm, -⟩ := pending_setCb system.mgmt kind
    refine perm.mem_iff.mpr (List.mem_append_left _ ?_)
    rw [MgmtManager.awaited, pending]
    exact List.mem_singleton_self _
  intro answer member same
  have called : some number ∈ system.mgmt.answers.map HttpAnswer.request :=
    same ▸ List.mem_map_of_mem member
  exact (List.nodup_append'.mp once).2.2 called awaited

/-- Where a callback is pending, one of the HTTP requests waits for its answer. -/
theorem System.isSome_cb_iff {https : List (String × String)} {system : System}
    (matched : system.Matched) (traced : system.Traced env mgmtEnv https) (kind : ReqKind) :
    (system.mgmt.cb kind).isSome = true ↔ ∃ number, system.Awaits https kind number := by
  rw [Option.isSome_iff_exists]
  constructor
  · rintro ⟨number, pending⟩
    exact ⟨number, pending, traced.callbacks kind number pending, matched.unanswered pending⟩
  · rintro ⟨number, awaits⟩
    exact ⟨number, awaits.callback⟩

/-- A request is refused at the step of a run that receives it, and the step answers it. -/
def RefusedIn (env : Env) (mgmtEnv : MgmtEnv) (start : System) (labels : List SystemLabel)
    (number : ℕ) (status : HttpStatus) (body : String) : Prop :=
  ∃ (first rest : List SystemLabel) (target req : String) (before after : System),
    labels = first ++ .http target req :: rest ∧
    (systemMachine env mgmtEnv).run start first = some before ∧
    (systemMachine env mgmtEnv).step before (.http target req) = some after ∧
    (httpRequests first).length = number ∧
    ⟨some number, status, body⟩ ∈ after.mgmt.answers ∧
    mgmtEnv.Refuses (fun kind => ∃ other, before.Awaits (httpRequests first) kind other)
      (target, req) status body

theorem RefusedIn.snoc {start : System} {labels : List SystemLabel} {number : ℕ}
    {status : HttpStatus} {body : String}
    (refused : RefusedIn env mgmtEnv start labels number status body) (label : SystemLabel) :
    RefusedIn env mgmtEnv start (labels ++ [label]) number status body := by
  obtain ⟨first, rest, target, req, before, after, rfl, run, step, place, answered, refuses⟩ :=
    refused
  exact ⟨first, rest ++ [label], target, req, before, after, by
    rw [List.append_assoc, List.cons_append], run, step, place, answered, refuses⟩

/-- How a request was answered in a run: refused at once, or served. -/
def AnsweredIn (env : Env) (mgmtEnv : MgmtEnv) (start : System) (labels : List SystemLabel)
    (number : ℕ) (status : HttpStatus) (body : String) : Prop :=
  RefusedIn env mgmtEnv start labels number status body ∨
    ServedIn env mgmtEnv start labels number status body

theorem AnsweredIn.snoc {start : System} {labels : List SystemLabel} {number : ℕ}
    {status : HttpStatus} {body : String}
    (answered : AnsweredIn env mgmtEnv start labels number status body) (label : SystemLabel) :
    AnsweredIn env mgmtEnv start (labels ++ [label]) number status body :=
  answered.imp (fun refused => refused.snoc label) fun served => served.snoc label

/-! ### The invariant -/

/-- Every response on its way, and every answer, is one the run accounts for. -/
structure System.Linearized (env : Env) (mgmtEnv : MgmtEnv) (system start : System)
    (labels : List SystemLabel) : Prop where
  responses : ∀ msg ∈ system.mgmtBatch ++ system.resQueue, ∀ status body,
    msg.msg.answer mgmtEnv = some (status, body) → ∃ number, msg.request = some number ∧
      ServedIn env mgmtEnv start labels number status body
  answers : ∀ answer ∈ system.mgmt.answers, ∃ number, answer.request = some number ∧
    AnsweredIn env mgmtEnv start labels number answer.status answer.body

theorem System.linearized_init (start : System) (quiet : start.mgmtBatch ++ start.resQueue = [])
    (unanswered : start.mgmt.answers = []) : start.Linearized env mgmtEnv start [] where
  responses _ member := absurd (quiet ▸ member) List.not_mem_nil
  answers _ member := absurd (unanswered ▸ member) List.not_mem_nil

/-- What was accounted for still is after one more step. -/
theorem System.Linearized.snoc {start system : System} {labels : List SystemLabel}
    (linearized : system.Linearized env mgmtEnv start labels) (label : SystemLabel) :
    system.Linearized env mgmtEnv start (labels ++ [label]) where
  responses msg member status body answer := by
    obtain ⟨number, request, served⟩ := linearized.responses msg member status body answer
    exact ⟨number, request, served.snoc label⟩
  answers answer member := by
    obtain ⟨number, request, answered⟩ := linearized.answers answer member
    exact ⟨number, request, answered.snoc label⟩

/-- The handler of a message makes an answer of a response. -/
theorem System.Linearized.mgmtHandle {start system : System} {labels : List SystemLabel}
    (matched : system.Matched) (linearized : system.Linearized env mgmtEnv start labels)
    {msg : Tagged ResMsg} {rest : List (Tagged ResMsg)} (batch : system.mgmtBatch = msg :: rest) :
    { system with
      mgmt := onResMsg mgmtEnv system.mgmt msg.msg, mgmtBatch := rest }.Linearized env mgmtEnv
        start labels := by
  have fewer : ∀ other ∈ rest ++ system.resQueue, other ∈ system.mgmtBatch ++ system.resQueue := by
    intro other member
    rw [batch]
    exact List.mem_cons_of_mem msg member
  refine {
    responses := fun other member => linearized.responses other (fewer other member)
    answers := ?_ }
  cases response : msg.msg.kind with
  | none =>
    rw [onResMsg_report mgmtEnv system.mgmt response]
    exact linearized.answers
  | some kind =>
    obtain ⟨status, body, answer, result⟩ := onResMsg_answer response system.mgmt
    obtain ⟨number, pending, request⟩ := matched.response batch response
    obtain ⟨number', request', served⟩ := linearized.responses msg
      (by rw [batch]; exact List.mem_cons_self) status body answer
    obtain rfl := Option.some.inj (request.symm.trans request')
    intro other member
    rw [result, respond_answers, pending] at member
    rcases List.mem_append.mp member with before | last
    · exact linearized.answers other before
    · obtain rfl := List.mem_singleton.mp last
      exact ⟨number, rfl, Or.inr served⟩

theorem mem_foldl_offer {queue : ResQueue} {msgs : List (Tagged ResMsg)} {msg : Tagged ResMsg}
    (member : msg ∈ msgs.foldl offer queue) : msg ∈ queue ∨ msg ∈ msgs := by
  induction msgs generalizing queue with
  | nil => exact Or.inl member
  | cons first rest inductionHypothesis =>
    rcases inductionHypothesis member with before | later
    · rw [offer_eq] at before
      split at before
      · rcases List.mem_append.mp before with before | last
        · exact Or.inl before
        · exact Or.inr (List.mem_singleton.mp last ▸ List.mem_cons_self)
      · exact Or.inl before
    · exact Or.inr (List.mem_cons_of_mem first later)

/-- The handler of the generator runs on the first of the requests it has taken. -/
theorem handle_eq {state next : GenState} {input : StartIn}
    (step : (genMachine env).step state (.handle input) = some next) :
    ∃ msg rest, state.batch = msg :: rest ∧
      next.manager = onIncMsg env input state.manager msg.msg := by
  cases (genStep_spec step).2 with
  | handle manager msg rest input => exact ⟨msg, rest, rfl, rfl⟩

/-- A step of the generator adds no response but the one that serves a request. -/
theorem System.Linearized.genPart {start system next : System} {labels : List SystemLabel}
    (matched : system.Matched) (traced : system.Traced env mgmtEnv (httpRequests labels))
    (linearized : system.Linearized env mgmtEnv start labels)
    (run : (systemMachine env mgmtEnv).run start labels = some system)
    {label : GenLabel} {gen : GenState}
    (notDequeue : ∀ msgs, label ≠ .dequeue msgs)
    (moved : (genMachine env).step system.gen label = some gen)
    (step : (systemMachine env mgmtEnv).step system (.gen label) = some next)
    (result : next = { system with
      gen
      resQueue := ((system.gen.offered gen).map (Tagged.mk (system.gen.serves label))).foldl
        offer system.resQueue }) :
    next.Linearized env mgmtEnv start (labels ++ [.gen label]) := by
  have before := linearized.snoc (.gen label)
  refine { responses := fun msg member status body answer => ?_, answers := ?_ }
  · have place : msg ∈ system.mgmtBatch ++ system.resQueue ∨
        ∃ res ∈ system.gen.offered gen, msg = ⟨system.gen.serves label, res⟩ := by
      rw [result] at member
      rcases List.mem_append.mp member with batch | queue
      · exact Or.inl (List.mem_append_left _ batch)
      · rcases mem_foldl_offer queue with old | new
        · exact Or.inl (List.mem_append_right _ old)
        · obtain ⟨res, offered, rfl⟩ := List.mem_map.mp new
          exact Or.inr ⟨res, offered, rfl⟩
    rcases place with old | ⟨res, offered, rfl⟩
    · exact before.responses msg old status body answer
    · cases genStep_offer matched.gen moved with
      | dequeue msgs => exact absurd rfl (notDequeue msgs)
      | report pos flow event report same alone =>
        rw [alone, List.mem_singleton] at offered
        subst offered
        exact absurd answer (by simp [ResMsg.answer])
      | quiet same noDequeue noHandle noFire none =>
        rw [none] at offered
        exact absurd offered List.not_mem_nil
      | handle input first rest res' batch after answers alone =>
        obtain ⟨msg, others, found, handled⟩ := handle_eq moved
        obtain ⟨number, http, request, place, callsFor⟩ := traced.pending msg
          (List.mem_append_left _ (found ▸ List.mem_cons_self))
        obtain ⟨own, ownStatus, ownBody, grew, ownAnswer, effect⟩ :=
          @onIncMsg_served env mgmtEnv _ input http _ matched.gen.manager callsFor
        rw [← handled] at grew effect
        obtain rfl : res = own := List.mem_singleton.mp (offered_eq grew ▸ offered)
        obtain ⟨rfl, rfl⟩ := Prod.mk.inj (Option.some.inj (answer.symm.trans ownAnswer))
        have serves : system.gen.serves (.handle input) = some number := by
          unfold GenState.serves
          rw [found]
          exact request
        refine ⟨number, serves, labels, [], input, system, next, http, rfl, run, step, serves,
          place, ?_⟩
        rw [result]
        exact effect
  · rw [result]
    exact before.answers

/-- A request is refused at once or sent on. -/
theorem System.Linearized.http {start system after : System} {labels : List SystemLabel}
    (matched : system.Matched) (traced : system.Traced env mgmtEnv (httpRequests labels))
    (linearized : system.Linearized env mgmtEnv start labels)
    (run : (systemMachine env mgmtEnv).run start labels = some system) {target req : String}
    (step : (systemMachine env mgmtEnv).step system (.http target req) = some after)
    {next : MgmtManager × ReqQueue}
    (posted : Posted mgmtEnv system.requests (target, req) system.mgmt system.reqQueue next)
    (result : after = { system with
      mgmt := next.1, reqQueue := next.2, requests := system.requests + 1 }) :
    after.Linearized env mgmtEnv start (labels ++ [SystemLabel.http target req]) := by
  have before := linearized.snoc (.http target req)
  subst result
  refine { responses := before.responses, answers := fun answer member => ?_ }
  cases posted with
  | enqueued msg callsFor =>
    rw [setCb_answers] at member
    exact before.answers answer member
  | refused status body refuses =>
    rcases List.mem_append.mp member with old | last
    · exact before.answers answer old
    · obtain rfl := List.mem_singleton.mp last
      exact ⟨system.requests, rfl, Or.inl ⟨labels, [], target, req, system, _, rfl, run, step,
        traced.count.symm, member, refuses.congr (System.isSome_cb_iff matched traced)⟩⟩

theorem System.Linearized.mgmtStep {start system next : System} {labels : List SystemLabel}
    {label : SystemLabel} (matched : system.Matched)
    (traced : system.Traced env mgmtEnv (httpRequests labels))
    (linearized : system.Linearized env mgmtEnv start labels)
    (run : (systemMachine env mgmtEnv).run start labels = some system)
    (whole : (systemMachine env mgmtEnv).step system label = some next)
    (step : system.mgmtStep mgmtEnv label = some next) :
    next.Linearized env mgmtEnv start (labels ++ [label]) := by
  unfold System.mgmtStep at step
  split at step
  · next target req =>
    split at step
    · exact linearized.http matched traced run whole
        (onHttpRequest_posted mgmtEnv system.requests target req system.mgmt matched.room)
        (Option.some.inj step).symm
    · exact absurd step (by simp)
  · next count =>
    split at step
    · next idle =>
      obtain ⟨popped, taken, rfl⟩ := Option.map_eq_some_iff.mp step
      obtain ⟨queue, -⟩ := BoundedFifo.pop_eq_some.mp taken
      have before := linearized.snoc (.mgmtDequeue count)
      refine { responses := fun msg member => before.responses msg ?_, answers := before.answers }
      rw [idle.1, List.nil_append, queue]
      exact member
    · exact absurd step (by simp)
  · split at step
    · exact absurd step (by simp)
    · next msg rest batch =>
      obtain rfl := Option.some.inj step
      exact (linearized.mgmtHandle matched batch).snoc .mgmtHandle
  · exact absurd step (by simp)

theorem System.Linearized.step {start system next : System} {labels : List SystemLabel}
    {label : SystemLabel} (matched : system.Matched)
    (traced : system.Traced env mgmtEnv (httpRequests labels))
    (linearized : system.Linearized env mgmtEnv start labels)
    (run : (systemMachine env mgmtEnv).run start labels = some system)
    (step : (systemMachine env mgmtEnv).step system label = some next) :
    next.Linearized env mgmtEnv start (labels ++ [label]) := by
  have whole := step
  simp only [systemMachine, System.step] at step
  split at step
  · exact absurd step (by simp)
  · split at step
    · next count =>
      unfold System.genStep at step
      obtain ⟨popped, -, step⟩ := Option.bind_eq_some_iff.mp step
      obtain ⟨gen, -, rfl⟩ := Option.map_eq_some_iff.mp step
      have before := linearized.snoc (.genDequeue count)
      exact { responses := before.responses, answers := before.answers }
    · next label =>
      unfold System.genStep at step
      split at step
      · next noDequeue => exact absurd noDequeue (by simp)
      · exact absurd step (by simp)
      · next label' notDequeue same =>
        obtain rfl := SystemLabel.gen.inj same
        obtain ⟨gen, moved, result⟩ := Option.map_eq_some_iff.mp step
        exact linearized.genPart matched traced run notDequeue moved whole result.symm
      · exact absurd step (by simp)
    · exact linearized.mgmtStep matched traced run whole step

theorem System.linearized_of_run {workingDir : String} {labels : List SystemLabel} {system : System}
    (run : (systemMachine env mgmtEnv).run (System.init workingDir) labels = some system) :
    system.Linearized env mgmtEnv (System.init workingDir) labels := by
  have whole := (systemMachine env mgmtEnv).run_history (fun label => [label])
    (fun labels system =>
      (systemMachine env mgmtEnv).run (System.init workingDir) labels = some system ∧
      system.Matched ∧ system.Traced env mgmtEnv (httpRequests labels) ∧
      system.Linearized env mgmtEnv (System.init workingDir) labels)
    (fun labels system label next holds step => by
      obtain ⟨run, matched, traced, linearized⟩ := holds
      refine ⟨?_, matched.step step, ?_, linearized.step matched traced run step⟩
      · rw [Machine.run_append, run, Option.bind_some, Machine.run_cons, step]
        rfl
      · rw [httpRequests_snoc]
        exact traced.step matched step)
    ⟨rfl, System.matched_init workingDir, System.traced_init workingDir,
      System.linearized_init _ rfl rfl⟩ run
  rw [List.nil_append, List.flatMap_singleton'] at whole
  exact whole.2.2.2

/-- In every run of the system, whatever the schedule and whatever the environment does: an answer
is for one of the HTTP requests received. Either the step that received it refused it, for its
target, for its body, or because an earlier one for the same target had no answer yet; or the answer
tells what the generator did at one step that handled this request, after it was received. -/
theorem answers_linearized (env : Env) (mgmtEnv : MgmtEnv) (workingDir : String)
    {labels : List SystemLabel} {system : System}
    (run : (systemMachine env mgmtEnv).run (System.init workingDir) labels = some system) :
    ∀ answer ∈ system.mgmt.answers, ∃ number, answer.request = some number ∧
      AnsweredIn env mgmtEnv (System.init workingDir) labels number answer.status answer.body :=
  (System.linearized_of_run run).answers

theorem answers_linearized_startedOverHttp : ∃ system,
    (systemMachine (sampleEnv samplePool) sampleMgmt).run (System.init "") startedOverHttp =
      some system ∧
    system.mgmt.answers.map HttpAnswer.status = [.notFound, .preconditionFailed, .ok] ∧
    ∀ answer ∈ system.mgmt.answers, ∃ number, answer.request = some number ∧
      AnsweredIn (sampleEnv samplePool) sampleMgmt (System.init "") startedOverHttp number
        answer.status answer.body := by
  have runs : ((systemMachine (sampleEnv samplePool) sampleMgmt).run (System.init "")
      startedOverHttp).map (fun system => system.mgmt.answers.map HttpAnswer.status) =
        some [.notFound, .preconditionFailed, .ok] := by
    decide +kernel
  obtain ⟨system, run, statuses⟩ := Option.map_eq_some_iff.mp runs
  exact ⟨system, run, statuses, answers_linearized (sampleEnv samplePool) sampleMgmt "" run⟩

end TrafficGenerator
