/-
This file follows a start request through the system. A generation that runs is
at work on the configuration that was made of the body of one of the HTTP
requests: one generator for each capture, with the packets of that capture, its
flows, its addresses and its duration in cycles.
-/

import TrafficGenerator.FlowStats
import TrafficGenerator.Matching

namespace TrafficGenerator

variable {env : Env} {mgmtEnv : MgmtEnv} {manager : GenManager} {ops ops' : Ops}

/-! ### Generators and their configuration -/

/-- A generator is at work on a configuration: its packets were loaded from the capture, its flows
are as many as were asked for, with the numbers from zero on, and it hands out the addresses of the
two networks. -/
structure FlowsGenerator.WorksOn (env : Env) (cfg : FlowsGeneratorConfig) (gen : FlowsGenerator) :
    Prop where
  loaded : ∃ before after, loadPkts env cfg before = (.ok gen.pkts, after)
  idx : gen.idx = cfg.idx
  clnIpAddrs : gen.clnIpAddrs = cfg.clnIpAddrs.hosts
  srvIpAddrs : gen.srvIpAddrs = cfg.srvIpAddrs.hosts
  burstCnt : gen.burstCnt = cfg.burst
  flows : gen.flows.length = cfg.flowsPerSec.toNat
  numbered : ∀ flow fl, gen.flows[flow]? = some fl → fl.idx = UInt32.ofNat flow

theorem construct_worksOn {cfg : FlowsGeneratorConfig} {gen : FlowsGenerator}
    (run : FlowsGenerator.construct env cfg ops = (.ok gen, ops')) : gen.WorksOn env cfg := by
  obtain ⟨pkts, middle, loaded, rfl, -⟩ := FlowsGenerator.construct_ok run
  refine ⟨⟨ops, middle, loaded⟩, rfl, rfl, rfl, rfl, ?_, fun flow fl found => ?_⟩
  · rw [FlowsGenerator.withEvents, armed_length, withFlows_length]
  · rw [FlowsGenerator.withEvents, armed_getElem?] at found
    obtain ⟨before, foundBefore, rfl⟩ := Option.map_eq_some_iff.mp found
    exact (setupFlows_numbered foundBefore).1.trans (UInt32.zero_add _)

/-- The events of the flows change none of it. -/
theorem FlowsGenerator.WorksOn.onFlowEvent {cfg : FlowsGeneratorConfig} {gen : FlowsGenerator}
    (works : gen.WorksOn env cfg) {pos : ℕ} {fl : Flow} (found : gen.flows[pos]? = some fl)
    (event : EventIn) (ops : Ops) : (gen.onFlowEvent env event pos ops).1.WorksOn env cfg := by
  rw [onFlowEvent_eq gen event found ops]
  refine ⟨works.loaded, works.idx, works.clnIpAddrs, works.srvIpAddrs, works.burstCnt,
    (List.length_set ..).trans works.flows, fun flow other foundAfter => ?_⟩
  have number : (gen.emitPkt env event (gen.advanced fl) ops).1.idx = fl.idx := by
    rw [emitPkt_flow]
    exact (advanced_tally gen fl).1
  rw [List.getElem?_set] at foundAfter
  split at foundAfter
  · next same =>
    subst same
    split at foundAfter
    · obtain rfl := Option.some.inj foundAfter
      exact number.trans (works.numbered pos fl found)
    · exact absurd foundAfter (by simp)
  · exact works.numbered flow other foundAfter

/-- The generators of a manager are at work on a configuration, one for each capture, and the
duration of the run is the one it has as `from_duration` converts it. -/
structure GenManager.WorksOn (env : Env) (cfg : GenConfig) (manager : GenManager) : Prop where
  length : manager.generators.length = cfg.flowsCfgs.length
  each : ∀ (pos : ℕ) (gen : FlowsGenerator) (cap : FlowsConfig),
    manager.generators[pos]? = some gen → cfg.flowsCfgs[pos]? = some cap →
    gen.WorksOn env (generatorConfig env manager.workingDir cfg.dutAddr (UInt32.ofNat pos) cap)
  duration : ∀ cycles, manager.genCycles = some cycles →
    cycles.duration = Cycles.fromDuration env.hz .milliseconds cfg.duration

theorem GenManager.WorksOn.congr {cfg : GenConfig} {next : GenManager}
    (works : manager.WorksOn env cfg) (generators : next.generators = manager.generators)
    (genCycles : next.genCycles = manager.genCycles)
    (workingDir : next.workingDir = manager.workingDir) : next.WorksOn env cfg where
  length := generators ▸ works.length
  each := by
    rw [generators, workingDir]
    exact works.each
  duration := genCycles ▸ works.duration

/-- The generators of a start request. -/
theorem createGens_worksOn {workingDir : String} {dutAddress : EtherAddr} {pos : ℕ}
    {caps : List FlowsConfig} {gens more : List FlowsGenerator}
    (run : createGens env workingDir dutAddress (UInt32.ofNat pos) caps gens ops =
      (.ok more, ops')) :
    ∃ built, more = gens ++ built ∧ built.length = caps.length ∧
      ∀ (place : ℕ) (gen : FlowsGenerator) (cap : FlowsConfig), built[place]? = some gen →
        caps[place]? = some cap →
        gen.WorksOn env (generatorConfig env workingDir dutAddress (UInt32.ofNat (pos + place))
          cap) := by
  induction caps generalizing pos gens ops with
  | nil =>
    obtain ⟨same, -⟩ := Prod.mk.inj run
    exact ⟨[], (Except.ok.inj same).symm.trans (List.append_nil _).symm, rfl,
      fun place gen cap found => absurd found (by simp)⟩
  | cons cap rest inductionHypothesis =>
    rw [createGens] at run
    split at run
    · exact absurd (Prod.mk.inj run).1 (by simp)
    · next gen middle one =>
      have next : UInt32.ofNat pos + 1 = UInt32.ofNat (pos + 1) := by
        rw [UInt32.ofNat_add]
        rfl
      rw [next] at run
      obtain ⟨built, same, length, works⟩ := inductionHypothesis run
      refine ⟨gen :: built, by rw [same, List.append_assoc]; rfl, congrArg (· + 1) length, ?_⟩
      rintro (_ | place) other cap' found foundCap
      · obtain rfl := Option.some.inj found
        obtain rfl := Option.some.inj foundCap
        exact construct_worksOn one
      · rw [show pos + (place + 1) = pos + 1 + place by omega]
        exact works place other cap' found foundCap

/-- A start request whose generators are built sets the generation to work on its configuration. -/
theorem onStartGeneration_worksOn (input : StartIn) {cfg : GenConfig}
    (idle : manager.generationStarted = false) (empty : manager.generators = [])
    {gens : List FlowsGenerator} {middle : Ops}
    (built : createGens env manager.workingDir cfg.dutAddr 0 cfg.flowsCfgs [] manager.ops =
      (.ok gens, middle)) : (onStartGeneration env input cfg manager).WorksOn env cfg := by
  obtain ⟨all, same, length, works⟩ := createGens_worksOn
    (show createGens env manager.workingDir cfg.dutAddr (UInt32.ofNat 0) cfg.flowsCfgs []
      manager.ops = (.ok gens, middle) from built)
  rw [List.nil_append] at same
  subst same
  rw [onStartGeneration_built input cfg manager idle empty built]
  refine ⟨length, fun pos gen cap found foundCap => ?_, fun cycles running => ?_⟩
  · rw [← Nat.zero_add pos]
    exact works pos gen cap found foundCap
  · rw [← Option.some.inj running]

/-- What becomes of the generation: it goes on, it stops, or one begins on the configuration of a
start request. -/
inductive GenManager.Onward (env : Env) (requests : List (Tagged ReqMsg))
    (before after : GenManager) : Prop
  | same (works : ∀ cfg, before.WorksOn env cfg → after.WorksOn env cfg)
      (genCycles : after.genCycles = before.genCycles)
  | stopped (idle : after.genCycles = none)
  | begun (msg : Tagged ReqMsg) (cfg : GenConfig) (member : msg ∈ requests)
      (start : msg.msg = .startGeneration cfg) (works : after.WorksOn env cfg)

theorem onStartGeneration_onward (input : StartIn) (cfg : GenConfig) (sound : manager.Sound)
    {requests : List (Tagged ReqMsg)} {msg : Tagged ReqMsg} (member : msg ∈ requests)
    (start : msg.msg = .startGeneration cfg) :
    manager.Onward env requests (onStartGeneration env input cfg manager) := by
  cases onStartGeneration_cases env input cfg manager sound.empty with
  | refused running result =>
    rw [result]
    exact .same (fun _ works => works.congr rfl rfl rfl) rfl
  | failed thrown middle _ undone result =>
    rw [result]
    exact .same (fun _ works => works.congr rfl rfl rfl) rfl
  | begun gens middle idle built done result =>
    exact .begun msg cfg member start
      (onStartGeneration_worksOn input idle (sound.empty idle) built)

/-- The callback of a timer leaves the other generators alone. -/
theorem fire_onward {pos flow : ℕ} {event : EventIn} {next : GenManager}
    {requests : List (Tagged ReqMsg)} (run : manager.fire env pos flow event = some next) :
    manager.Onward env requests next := by
  obtain ⟨gen, fl, found, flowFound, -, rfl⟩ := fire_eq_some.mp run
  refine .same (fun cfg works => ?_) rfl
  refine ⟨(List.length_set ..).trans works.length, fun place other cap foundAfter foundCap => ?_,
    works.duration⟩
  rw [List.getElem?_set] at foundAfter
  split at foundAfter
  · next same =>
    subst same
    split at foundAfter
    · obtain rfl := Option.some.inj foundAfter
      exact (works.each pos gen cap found foundCap).onFlowEvent flowFound event manager.ops
    · exact absurd foundAfter (by simp)
  · exact works.each place other cap foundAfter foundCap

/-- Every part of `process_events`, with the requests it has taken off the queue. -/
theorem genStep_onward {state next : GenState} {label : GenLabel} (sound : state.Sound)
    (step : (genMachine env).step state label = some next) :
    state.manager.Onward env state.batch next.manager := by
  cases (genStep_spec step).2 with
  | dequeue manager msgs batch => exact .same (fun _ works => works) rfl
  | handle manager msg rest input =>
    cases request : msg.msg with
    | startGeneration cfg =>
      exact onStartGeneration_onward input cfg sound.manager List.mem_cons_self request
    | stopGeneration => exact .stopped rfl
    | statsReport => exact .same (fun _ works => works.congr rfl rfl rfl) rfl
  | tick manager input =>
    rcases beforeTimers_cases env input manager with
      ⟨-, aborted, -, result⟩ | ⟨-, result⟩ | ⟨-, result⟩ | ⟨-, result⟩
    · rw [result]
      exact .same (fun _ works => works.congr rfl rfl rfl) rfl
    · rw [result]
      exact .stopped rfl
    · rw [result]
      exact .same (fun _ works => works.congr rfl rfl rfl) rfl
    · rw [result]
      exact .same (fun _ works => works.congr rfl rfl rfl) rfl
  | fire manager next pos flow event run => exact fire_onward run
  | flush manager tx => exact .same (fun _ works => works.congr rfl rfl rfl) rfl
  | nic manager place stats => exact .same (fun _ works => works.congr rfl rfl rfl) rfl

/-! ### HTTP requests -/

/-- The target of a request in the table of `init_req_handlers`. -/
def ReqKind.target : ReqKind → String
  | .start => "/start_gen"
  | .stop => "/stop_gen"
  | .stats => "/get_stats"

/-- The refusal of a request while another one of its kind is pending. -/
def ReqKind.busy : ReqKind → String
  | .start => "Start already in progress"
  | .stop => "Stop already in progress"
  | .stats => "Stats request already in progress"

/-- The message an HTTP request, a target and a body, calls for. -/
inductive MgmtEnv.CallsFor (mgmtEnv : MgmtEnv) : String × String → ReqMsg → Prop
  | start (body : String) (cfg : GenConfig) (accepted : mgmtEnv.parseCfg body = .ok cfg) :
      mgmtEnv.CallsFor ("/start_gen", body) (.startGeneration cfg)
  | stop (body : String) : mgmtEnv.CallsFor ("/stop_gen", body) .stopGeneration
  | stats (body : String) : mgmtEnv.CallsFor ("/get_stats", body) .statsReport

theorem MgmtEnv.CallsFor.target {http : String × String} {msg : ReqMsg}
    (callsFor : mgmtEnv.CallsFor http msg) : http.1 = msg.kind.target := by
  cases callsFor <;> rfl

/-- The answers, status and body, with which an HTTP request is refused at once: for its body,
because one of its kind is pending, or for its target. -/
inductive MgmtEnv.Refuses (mgmtEnv : MgmtEnv) (pends : ReqKind → Prop) :
    String × String → HttpStatus → String → Prop
  | invalid (body what : String) (free : ¬ pends .start)
      (refused : mgmtEnv.parseCfg body = .error what) :
      mgmtEnv.Refuses pends ("/start_gen", body) .badRequest
        (makeResponseBody s!"Invalid generation configuration: {what}")
  | busy (kind : ReqKind) (body : String) (pending : pends kind) :
      mgmtEnv.Refuses pends (kind.target, body) .preconditionFailed (makeResponseBody kind.busy)
  | unknown (target body : String) (unlisted : ∀ kind : ReqKind, target ≠ kind.target) :
      mgmtEnv.Refuses pends (target, body) .notFound
        (makeResponseBody s!"Invalid target: {target}")

theorem MgmtEnv.Refuses.congr {pends pends' : ReqKind → Prop} {http : String × String}
    {status : HttpStatus} {body : String} (refuses : mgmtEnv.Refuses pends http status body)
    (same : ∀ kind, pends kind ↔ pends' kind) : mgmtEnv.Refuses pends' http status body := by
  cases refuses with
  | invalid body what free refused => exact .invalid body what (mt (same .start).mpr free) refused
  | busy kind body pending => exact .busy kind body ((same kind).mp pending)
  | unknown target body unlisted => exact .unknown target body unlisted

/-- What an HTTP request leads to while there is room in the queue: the message it calls for, with
its callback kept, or a refusal. -/
inductive Posted (mgmtEnv : MgmtEnv) (cb : ℕ) (http : String × String) (manager : MgmtManager)
    (queue : ReqQueue) : MgmtManager × ReqQueue → Prop
  | enqueued (msg : ReqMsg) (callsFor : mgmtEnv.CallsFor http msg) :
      Posted mgmtEnv cb http manager queue
        (manager.setCb (some cb) msg.kind, queue ++ [{ request := some cb, msg }])
  | refused (status : HttpStatus) (body : String)
      (refuses : mgmtEnv.Refuses (fun kind => (manager.cb kind).isSome = true) http status body) :
      Posted mgmtEnv cb http manager queue (manager.answer (some cb) status body, queue)

theorem enqueueReq_posted {cb : ℕ} {http : String × String} {manager : MgmtManager}
    {queue : ReqQueue} (msg : ReqMsg) (room : queue.length < reqCapacity)
    (callsFor : mgmtEnv.CallsFor http msg) :
    Posted mgmtEnv cb http manager queue (enqueueReq msg.kind cb msg manager queue) := by
  rw [enqueueReq, BoundedFifo.push, List.length_singleton,
    if_pos (show queue.length + 1 ≤ reqCapacity from room)]
  exact .enqueued msg callsFor

theorem onHttpRequest_posted (mgmtEnv : MgmtEnv) (cb : ℕ) (target req : String)
    (manager : MgmtManager) {queue : ReqQueue} (room : queue.length < reqCapacity) :
    Posted mgmtEnv cb (target, req) manager queue
      (onHttpRequest mgmtEnv cb target req manager queue) := by
  rw [onHttpRequest]
  split
  · next start =>
    subst start
    rw [onReqStartGen]
    split
    · next pending => exact .refused _ _ (.busy .start req pending)
    · next free =>
      split
      · next cfg accepted =>
        exact enqueueReq_posted (.startGeneration cfg) room (.start req cfg accepted)
      · next what refused => exact .refused _ _ (.invalid req what free refused)
  · next notStart =>
    split
    · next stop =>
      subst stop
      rw [onReqStopGen]
      split
      · next pending => exact .refused _ _ (.busy .stop req pending)
      · exact enqueueReq_posted .stopGeneration room (.stop req)
    · next notStop =>
      split
      · next stats =>
        subst stats
        rw [onReqGetStats]
        split
        · next pending => exact .refused _ _ (.busy .stats req pending)
        · exact enqueueReq_posted .statsReport room (.stats req)
      · next notStats =>
        refine .refused _ _ (.unknown target req ?_)
        rintro (_ | _ | _)
        · exact notStart
        · exact notStop
        · exact notStats

/-! ### The invariant -/

/-- The HTTP request a step makes. -/
def SystemLabel.https : SystemLabel → List (String × String)
  | .http target req => [(target, req)]
  | _ => []

/-- The system after some HTTP requests: every message and every callback is there because of the
request with its number, and the generation is at work on the configuration of a start request. -/
structure System.Traced (env : Env) (mgmtEnv : MgmtEnv) (https : List (String × String))
    (system : System) : Prop where
  count : system.requests = https.length
  pending : ∀ msg ∈ system.gen.batch ++ system.reqQueue, ∃ (number : ℕ) (http : String × String),
    msg.request = some number ∧ https[number]? = some http ∧ mgmtEnv.CallsFor http msg.msg
  callbacks : ∀ kind number, system.mgmt.cb kind = some number →
    ∃ body, https[number]? = some (kind.target, body)
  running : system.gen.manager.genCycles ≠ none → ∃ (number : ℕ) (body : String) (cfg : GenConfig),
    https[number]? = some ("/start_gen", body) ∧ mgmtEnv.parseCfg body = .ok cfg ∧
      system.gen.manager.WorksOn env cfg

theorem System.traced_init (workingDir : String) :
    (System.init workingDir).Traced env mgmtEnv [] where
  count := rfl
  pending _ member := absurd member List.not_mem_nil
  callbacks kind _ stored := by cases kind <;> exact absurd stored (by simp [System.init,
    MgmtManager.cb])
  running started := absurd rfl started

theorem MgmtEnv.CallsFor.start_eq {http : String × String} {cfg : GenConfig}
    (callsFor : mgmtEnv.CallsFor http (.startGeneration cfg)) :
    ∃ body, http = ("/start_gen", body) ∧ mgmtEnv.parseCfg body = .ok cfg := by
  cases callsFor with
  | start body cfg accepted => exact ⟨body, rfl, accepted⟩

/-- What was said of the requests before still holds after one more. -/
theorem System.Traced.grow {https : List (String × String)} {system : System}
    (traced : system.Traced env mgmtEnv https) (http : String × String) :
    { system with requests := system.requests + 1 }.Traced env mgmtEnv (https ++ [http]) := by
  have earlier : ∀ {number : ℕ} {found : String × String}, https[number]? = some found →
      (https ++ [http])[number]? = some found := by
    intro number found at_
    obtain ⟨bound, -⟩ := List.getElem?_eq_some_iff.mp at_
    rw [List.getElem?_append_left bound, at_]
  refine {
    count := ?_
    pending := fun msg member => ?_
    callbacks := fun kind number stored => ?_
    running := fun started => ?_ }
  · rw [List.length_append, ← traced.count]
    rfl
  · obtain ⟨number, found, request, place, callsFor⟩ := traced.pending msg member
    exact ⟨number, found, request, earlier place, callsFor⟩
  · obtain ⟨body, place⟩ := traced.callbacks kind number stored
    exact ⟨body, earlier place⟩
  · obtain ⟨number, body, cfg, place, accepted, works⟩ := traced.running started
    exact ⟨number, body, cfg, earlier place, accepted, works⟩

theorem System.Traced.http {https : List (String × String)} {system : System}
    (traced : system.Traced env mgmtEnv https) (target req : String) {next : MgmtManager × ReqQueue}
    (posted : Posted mgmtEnv system.requests (target, req) system.mgmt system.reqQueue next) :
    { system with
      mgmt := next.1, reqQueue := next.2, requests := system.requests + 1 }.Traced env mgmtEnv
        (https ++ [(target, req)]) := by
  have grown := traced.grow (target, req)
  have now : (https ++ [(target, req)])[system.requests]? = some (target, req) := by
    rw [traced.count, List.getElem?_concat_length]
  cases posted with
  | enqueued msg callsFor =>
    refine { grown with
      pending := fun other member => ?_
      callbacks := fun kind number stored => ?_ }
    · rw [← List.append_assoc] at member
      rcases List.mem_append.mp member with before | last
      · exact grown.pending other before
      · obtain rfl := List.mem_singleton.mp last
        exact ⟨system.requests, _, rfl, now, callsFor⟩
    · rw [cb_setCb] at stored
      split at stored
      · next same =>
        obtain rfl := Option.some.inj stored
        obtain rfl : target = kind.target := same ▸ callsFor.target
        exact ⟨req, now⟩
      · exact grown.callbacks kind number stored
  | refused status body refuses =>
    refine { grown with callbacks := fun kind number stored => ?_ }
    rw [cb_answer] at stored
    exact grown.callbacks kind number stored

/-- The handler of a message keeps no callback that was not there. -/
theorem onResMsg_cb {mgmt : MgmtManager} {res : ResMsg} {kind : ReqKind} {number : ℕ}
    (stored : (onResMsg mgmtEnv mgmt res).cb kind = some number) : mgmt.cb kind = some number := by
  cases response : res.kind with
  | none => rwa [onResMsg_report mgmtEnv mgmt response] at stored
  | some answered =>
    obtain ⟨status, body, -, result⟩ := onResMsg_response mgmtEnv mgmt response
    rw [result, respond_cb] at stored
    split at stored
    · exact absurd stored (by simp)
    · exact stored

/-- There is always room for one more request. -/
theorem System.Matched.room {system : System} (matched : system.Matched) :
    system.reqQueue.length < reqCapacity := by
  have few := matched.requests_length
  rw [List.length_append] at few
  exact Nat.lt_of_le_of_lt (Nat.le_trans (Nat.le_add_left _ _) few) (by decide)

theorem System.Traced.mgmtStep {https : List (String × String)} {system next : System}
    {label : SystemLabel} (matched : system.Matched) (traced : system.Traced env mgmtEnv https)
    (step : system.mgmtStep mgmtEnv label = some next) :
    next.Traced env mgmtEnv (https ++ label.https) := by
  unfold System.mgmtStep at step
  split at step
  · next target req =>
    split at step
    · obtain rfl := Option.some.inj step
      exact traced.http target req
        (onHttpRequest_posted mgmtEnv system.requests target req system.mgmt matched.room)
    · exact absurd step (by simp)
  · split at step
    · obtain ⟨popped, -, rfl⟩ := Option.map_eq_some_iff.mp step
      change System.Traced env mgmtEnv (https ++ []) _
      rw [List.append_nil]
      exact { traced with }
    · exact absurd step (by simp)
  · split at step
    · exact absurd step (by simp)
    · obtain rfl := Option.some.inj step
      change System.Traced env mgmtEnv (https ++ []) _
      rw [List.append_nil]
      exact { traced with
        callbacks := fun kind number stored => traced.callbacks kind number (onResMsg_cb stored) }
  · exact absurd step (by simp)

/-- The generator handles the requests it has taken off the queue, and no others. -/
theorem System.Traced.gen {https : List (String × String)} {system : System}
    (traced : system.Traced env mgmtEnv https) {gen : GenState} {reqQueue : ReqQueue}
    {resQueue : ResQueue}
    (requests : ∀ msg ∈ gen.batch ++ reqQueue, msg ∈ system.gen.batch ++ system.reqQueue)
    (onward : system.gen.manager.Onward env system.gen.batch gen.manager) :
    { system with gen, reqQueue, resQueue }.Traced env mgmtEnv https := by
  refine { traced with
    pending := fun msg member => traced.pending msg (requests msg member)
    running := fun started => ?_ }
  cases onward with
  | same works genCycles =>
    obtain ⟨number, body, cfg, place, accepted, before⟩ :=
      traced.running (genCycles ▸ started)
    exact ⟨number, body, cfg, place, accepted, works cfg before⟩
  | stopped idle => exact absurd idle started
  | begun msg cfg member start works =>
    obtain ⟨number, http, -, place, callsFor⟩ :=
      traced.pending msg (List.mem_append_left _ member)
    rw [start] at callsFor
    obtain ⟨body, rfl, accepted⟩ := callsFor.start_eq
    exact ⟨number, body, cfg, place, accepted, works⟩

theorem System.Traced.genStep {https : List (String × String)} {system next : System}
    {label : SystemLabel} (matched : system.Matched) (traced : system.Traced env mgmtEnv https)
    (step : system.genStep env label = some next) : next.Traced env mgmtEnv https := by
  unfold System.genStep at step
  split at step
  · next count =>
    obtain ⟨⟨taken, rest⟩, popped, step⟩ := Option.bind_eq_some_iff.mp step
    obtain ⟨gen, moved, rfl⟩ := Option.map_eq_some_iff.mp step
    obtain ⟨queue, -⟩ := BoundedFifo.pop_eq_some.mp popped
    refine traced.gen (fun msg member => ?_) (genStep_onward matched.gen moved)
    cases genStep_offer matched.gen moved with
    | dequeue msgs before batch =>
      rw [before, queue]
      rw [batch] at member
      exact member
    | quiet _ noDequeue => exact absurd rfl (noDequeue taken)
  · exact absurd step (by simp)
  · next label notDequeue =>
    obtain ⟨gen, moved, rfl⟩ := Option.map_eq_some_iff.mp step
    refine traced.gen (fun msg member => ?_) (genStep_onward matched.gen moved)
    cases genStep_offer matched.gen moved with
    | dequeue msgs before batch => exact absurd rfl (notDequeue msgs)
    | handle input first rest res before after answers offered =>
      rw [after] at member
      rw [before]
      exact List.mem_cons_of_mem _ member
    | report pos flow event report same offered =>
      rw [same] at member
      exact member
    | quiet same _ noHandle _ offered =>
      rw [same] at member
      exact member
  · exact absurd step (by simp)

theorem System.Traced.step {https : List (String × String)} {system next : System}
    {label : SystemLabel} (matched : system.Matched) (traced : system.Traced env mgmtEnv https)
    (step : (systemMachine env mgmtEnv).step system label = some next) :
    next.Traced env mgmtEnv (https ++ label.https) := by
  simp only [systemMachine, System.step] at step
  split at step
  · exact absurd step (by simp)
  · split at step
    · exact (List.append_nil https).symm ▸ traced.genStep matched step
    · exact (List.append_nil https).symm ▸ traced.genStep matched step
    · exact traced.mgmtStep matched step

/-- The HTTP requests of a run, in order: the number of a request is its place among them. -/
def httpRequests (labels : List SystemLabel) : List (String × String) :=
  labels.flatMap SystemLabel.https

theorem System.traced_of_run {workingDir : String} {labels : List SystemLabel} {system : System}
    (run : (systemMachine env mgmtEnv).run (System.init workingDir) labels = some system) :
    system.Traced env mgmtEnv (httpRequests labels) := by
  have both : system.Matched ∧ system.Traced env mgmtEnv ([] ++ httpRequests labels) :=
    (systemMachine env mgmtEnv).run_history SystemLabel.https
      (fun https system => system.Matched ∧ system.Traced env mgmtEnv https)
      (fun _ _ _ _ holds step => ⟨holds.1.step step, holds.2.step holds.1 step⟩)
      ⟨System.matched_init workingDir, System.traced_init workingDir⟩ run
  exact both.2

/-- In every run of the system, whatever the constructor of `gen_config` makes of a body: a
generation that runs is at work on the configuration made of the body of a start request received
before. It has one generator for each capture of that configuration, in order, which replays the
packets of the capture over the number of flows, the networks and the burst it has there, and its
duration is the one it has there, as `from_duration` converts it. -/
theorem generation_requested (env : Env) (mgmtEnv : MgmtEnv) (workingDir : String)
    {labels : List SystemLabel} {system : System}
    (run : (systemMachine env mgmtEnv).run (System.init workingDir) labels = some system)
    (running : system.gen.manager.generationStarted = true) :
    ∃ (number : ℕ) (body : String) (cfg : GenConfig),
      (httpRequests labels)[number]? = some ("/start_gen", body) ∧
      mgmtEnv.parseCfg body = .ok cfg ∧ system.gen.manager.WorksOn env cfg := by
  refine (System.traced_of_run run).running fun idle => ?_
  rw [GenManager.generationStarted, idle] at running
  exact absurd running Bool.false_ne_true

/-- A generation has been started over HTTP, and another request refused. -/
def startedOverHttp : List SystemLabel :=
  [.http "/stats" "", .http "/start_gen" "one flow", .http "/start_gen" "again", .genDequeue 1,
    .gen (.handle {}), .mgmtDequeue 1, .mgmtHandle]

theorem generation_requested_startedOverHttp : ∃ system,
    (systemMachine (sampleEnv samplePool) sampleMgmt).run (System.init "") startedOverHttp =
      some system ∧
    ∃ (number : ℕ) (body : String) (cfg : GenConfig),
      (httpRequests startedOverHttp)[number]? = some ("/start_gen", body) ∧
      sampleMgmt.parseCfg body = .ok cfg ∧
      system.gen.manager.WorksOn (sampleEnv samplePool) cfg := by
  have runs : ((systemMachine (sampleEnv samplePool) sampleMgmt).run (System.init "")
      startedOverHttp).map (fun system => system.gen.manager.generationStarted) = some true := by
    decide +kernel
  obtain ⟨system, run, running⟩ := Option.map_eq_some_iff.mp runs
  exact ⟨system, run, generation_requested (sampleEnv samplePool) sampleMgmt "" run running⟩

end TrafficGenerator
