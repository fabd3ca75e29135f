/-
This file is about responses that get lost. The generator does not look at the
result of `enqueue`, and the queue of its responses is also the one of its
reports, so a response is lost when the reports have filled the queue; its
request is then pending forever.
-/

import TrafficGenerator.Matching
import TrafficGenerator.Replay

namespace TrafficGenerator

variable {env : Env} {mgmtEnv : MgmtEnv}

/-- Every pending callback has exactly one message in flight, a request or a response. -/
def System.Answerable (system : System) : Prop :=
  ∀ kind, (system.mgmt.cb kind).isSome = true →
    (system.requestsOf kind).length + (system.responsesOf kind).length = 1

/-- The queue of the responses is not full when the generator handles a request. -/
def RoomForResponse (system : System) : SystemLabel → Prop
  | .gen (.handle _) => system.resQueue.length < resCapacity
  | _ => True

theorem System.Answerable.flight {system : System} (answerable : system.Answerable)
    (kind : ReqKind) (pending : (system.mgmt.cb kind).isSome = true) :
    (system.inFlight kind).length = 1 :=
  List.length_append.trans (answerable kind pending)

/-- With room for the response every step keeps the pending callbacks answerable. -/
theorem System.Answerable.step {system next : System} {label : SystemLabel}
    (matched : system.Matched) (answerable : system.Answerable)
    (room : RoomForResponse system label)
    (step : (systemMachine env mgmtEnv).step system label = some next) : next.Answerable := by
  intro kind pending
  have bound := (matched.step step).flight_length kind
  rw [← List.length_append]
  show (next.inFlight kind).length = 1
  cases kindStep_of_systemStep (systemStep_spec matched.gen step).1 kind with
  | sent id free stored flight =>
    rw [flight.length_eq, List.length_cons] at bound ⊢
    omega
  | answered request cleared =>
    rw [cleared] at pending
    exact absurd pending (by simp)
  | lost input request full => exact absurd room full
  | kept same flight =>
    rw [same] at pending
    rw [flight.length_eq]
    exact answerable.flight kind pending

/-- Without it the callback that waits for the response is answered by nothing in flight. -/
theorem System.Answerable.room {system next : System} {label : SystemLabel}
    (matched : system.Matched)
    (step : (systemMachine env mgmtEnv).step system label = some next)
    (answerable : next.Answerable) : RoomForResponse system label := by
  cases (systemStep_spec matched.gen step).1 with
  | genHandle input msg rest gen res before after answers =>
    by_contra full
    have full : ¬ system.resQueue.length < resCapacity := full
    have flight := inFlight_handling before msg.msg.kind
    rw [if_pos rfl, List.singleton_append] at flight
    -- the request was the only message of its kind, and served the pending callback
    have bound := matched.flight_length msg.msg.kind
    obtain ⟨id, pending, -⟩ := MgmtManager.mem_awaited
      ((matched.inFlight msg.msg.kind).subset (flight ▸ List.mem_cons_self))
    have one := answerable.flight msg.msg.kind (by
      show (system.mgmt.cb msg.msg.kind).isSome = true
      rw [pending]
      rfl)
    rw [offer_eq, if_neg full, inFlight_handled system after] at one
    rw [flight, List.length_cons, System.responsesOf, one] at bound
    exact absurd bound (by simp)
  | http | mgmtDequeue | mgmtHandle | genDequeue | genReport => exact trivial
  | genQuiet label gen noHandle same =>
    cases label with
    | handle input => exact absurd rfl (noHandle input)
    | dequeue | tick | fire | flush | nic => exact trivial

/-- Every pending callback has exactly one message in flight in all states of a run exactly when
the queue of the responses has room each time the generator handles a request. -/
theorem responses_delivered_iff (env : Env) (mgmtEnv : MgmtEnv) (workingDir : String)
    (labels : List SystemLabel) :
    (systemMachine env mgmtEnv).AllStates System.Answerable (System.init workingDir) labels ↔
      (systemMachine env mgmtEnv).AllSteps RoomForResponse (System.init workingDir) labels := by
  have preserved : ∀ system label next, System.Matched system →
      (systemMachine env mgmtEnv).step system label = some next → next.Matched :=
    fun _ _ _ matched step => matched.step step
  have matched := System.matched_init workingDir
  constructor
  · intro states
    exact (systemMachine env mgmtEnv).allSteps_of_allStates _ RoomForResponse
      (fun _ _ _ holds step after => System.Answerable.room holds.1 step after.2)
      (states.and_invariant _ System.Matched preserved matched)
  · intro steps
    have both := (systemMachine env mgmtEnv).allStates_of_allSteps
      (fun system => system.Matched ∧ system.Answerable) RoomForResponse
      (fun _ _ _ holds room step =>
        ⟨holds.1.step step, System.Answerable.step holds.1 holds.2 room step⟩)
      ⟨matched, fun kind pending => by cases kind <;> exact absurd pending Bool.false_ne_true⟩ steps
    exact both.imp _ fun _ holds => holds.2

/-! ### A response that is lost -/

/-- A management for which every configuration asks for 300 flows of the sample capture. -/
def busyMgmt : MgmtEnv where
  enforce _ := false
  hz := 1000000
  parseCfg _ := .ok (sampleCfg [sampleFlows 300 (by decide)])

/-- The event of a flow of the first generator. -/
def flowEvent (flow : ℕ) : SystemLabel := .gen (.fire 0 flow ⟨950000, TxAnswer.all⟩)

/-- A generation is started, the statistics are asked for, and the timers are run. -/
def busyStart : List SystemLabel :=
  [.http "/start_gen" "", .genDequeue 1, .gen (.handle {}), .http "/get_stats" "",
    .gen (.tick (tickAt 950000 950000))]

/-- Inside the timers, with the request for the statistics still in its queue. -/
structure Busy (system : System) (queued : ℕ) : Prop where
  sound : system.gen.Sound
  place : system.gen.place = .timers
  alive : system.gen.manager.ops.aborted = false
  mgmtAlive : system.mgmt.aborted = false
  flows : (system.gen.manager.generators[0]?.map fun gen => gen.flows.length) = some 300
  pending : system.gen.AllPending
  request : system.reqQueue.length = 1
  queued : system.resQueue.length = queued

/-- Whether the generation thread is inside the timers. -/
def GenPlace.isTimers : GenPlace → Bool
  | .timers => true
  | _ => false

theorem busy_begins : ∃ system, (systemMachine (sampleEnv samplePool) busyMgmt).run
    (System.init "") busyStart = some system ∧ Busy system 1 := by
  have view : ((systemMachine (sampleEnv samplePool) busyMgmt).run (System.init "") busyStart).map
      (fun system => system.gen.place.isTimers && !system.gen.manager.ops.aborted &&
        !system.mgmt.aborted &&
        (system.gen.manager.generators[0]?.map fun gen => gen.flows.length) == some 300 &&
        (system.gen.manager.generators.all fun gen => gen.flows.all fun flow => flow.event.armed) &&
        system.reqQueue.length == 1 && system.resQueue.length == 1) = some true := by
    decide +kernel
  obtain ⟨system, run, seen⟩ := Option.map_eq_some_iff.mp view
  simp only [Bool.and_eq_true, Bool.not_eq_true', beq_iff_eq] at seen
  obtain ⟨⟨⟨⟨⟨⟨place, alive⟩, mgmtAlive⟩, flows⟩, pending⟩, request⟩, queued⟩ := seen
  refine ⟨system, run, (System.matched_of_run run).gen, ?_, alive, mgmtAlive, flows,
    fun gen member => List.all_eq_true.mp (List.all_eq_true.mp pending gen member), request, queued⟩
  cases here : system.gen.place with
  | timers => rfl
  | idle | handling => exact absurd place (by simp [here, GenPlace.isTimers])

/-- A step of the generator is one of the system. -/
theorem gen_step {system : System} {label : GenLabel} {gen : GenState}
    (alive : system.mgmt.aborted = false) (notDequeue : ∀ msgs, label ≠ .dequeue msgs)
    (moved : (genMachine env).step system.gen label = some gen) :
    (systemMachine env mgmtEnv).step system (.gen label) = some { system with
      gen
      resQueue := ((system.gen.offered gen).map (Tagged.mk (system.gen.serves label))).foldl
        offer system.resQueue } := by
  have stillAlive := (genStep_spec moved).1
  simp only [systemMachine, System.step, alive, stillAlive, Bool.or_false, Bool.false_eq_true,
    if_false]
  unfold System.genStep
  split
  · next same => exact absurd same (by simp)
  · next msgs same => exact absurd (SystemLabel.gen.inj same) (notDequeue msgs)
  · next label' _ same =>
    obtain rfl := SystemLabel.gen.inj same
    show Option.map _ ((genMachine env).step _ _) = _
    rw [moved, Option.map_some]
  · next other => exact absurd rfl (other label)

/-- A flow event puts one report in the queue, and its flow is pending again. -/
theorem Busy.flowEvent {system : System} {queued : ℕ} (busy : Busy system queued)
    (room : queued < resCapacity) {flow : ℕ} (among : flow < 300) :
    ∃ next, (systemMachine (sampleEnv samplePool) busyMgmt).step system (flowEvent flow) =
      some next ∧ Busy next (queued + 1) := by
  obtain ⟨mgmt, mgmtBatch, ⟨manager, place⟩, reqQueue, resQueue, requests⟩ := system
  obtain ⟨sound, rfl, alive, mgmtAlive, flows, pending, request, rfl⟩ := busy
  obtain ⟨gen, found, length⟩ := Option.map_eq_some_iff.mp flows
  have flowFound : gen.flows[flow]? = some gen.flows[flow] := List.getElem?_eq_getElem _
  have armed := pending gen (List.mem_of_getElem? found) _ (List.mem_of_getElem? flowFound)
  have fires : manager.fire (sampleEnv samplePool) 0 flow ⟨950000, TxAnswer.all⟩ = some _ :=
    fire_eq_some.mpr ⟨gen, _, found, flowFound, armed, rfl⟩
  have keeps : ((manager.generators.set 0
      (gen.onFlowEvent (sampleEnv samplePool) ⟨950000, TxAnswer.all⟩ flow manager.ops).1)[0]?.map
        fun gen => gen.flows.length) = some 300 := by
    rw [List.getElem?_set_self (List.getElem?_eq_some_iff.mp found).1,
      onFlowEvent_eq gen _ flowFound manager.ops]
    show some (List.length (gen.flows.set _ _)) = _
    rw [List.length_set, length]
  generalize step : GenManager.mk _ _ _ _ _ = next at fires
  have moved : (genMachine (sampleEnv samplePool)).step ⟨manager, .timers⟩
      (.fire 0 flow ⟨950000, TxAnswer.all⟩) = some ⟨next, .timers⟩ := by
    show genStep _ _ _ = _
    rw [genStep, alive, if_neg Bool.false_ne_true]
    exact congrArg (Option.map fun manager => (⟨manager, .timers⟩ : GenState)) fires
  have stillAlive := ((fire_aborted fires).noop rfl).trans alive
  have stillPending := GenState.AllPending.step sound pending
    (show CopySucceeds (sampleEnv samplePool) _ (.fire 0 flow _) from fun _ _ _ _ => rfl) moved
  have total : (next.generators[0]?.map fun gen => gen.flows.length) = some 300 := step ▸ keeps
  cases genStep_offer sound moved with
  | quiet _ _ _ noFire => exact absurd rfl (noFire _ _ _)
  | report pos flow event report same offered =>
    refine ⟨⟨mgmt, mgmtBatch, ⟨next, .timers⟩, reqQueue,
      offer resQueue ⟨none, .generationReport report⟩, requests⟩, ?_,
      ⟨sound.step moved, rfl, stillAlive, mgmtAlive, total, stillPending, request, ?_⟩⟩
    · refine (gen_step mgmtAlive (by simp) moved).trans ?_
      rw [offered]
      rfl
    · rw [offer_eq, if_pos room, List.length_append, List.length_singleton]

/-- The events of several flows put as many reports in the queue. -/
theorem Busy.flowEvents {flows : List ℕ} (among : ∀ flow ∈ flows, flow < 300) {system : System}
    {queued : ℕ} (busy : Busy system queued) (room : queued + flows.length ≤ resCapacity) :
    ∃ next, (systemMachine (sampleEnv samplePool) busyMgmt).run system
      (flows.map TrafficGenerator.flowEvent) = some next ∧ Busy next (queued + flows.length) := by
  induction flows generalizing system queued with
  | nil => exact ⟨system, rfl, busy⟩
  | cons flow rest inductionHypothesis =>
    rw [List.length_cons] at room
    obtain ⟨middle, step, busy⟩ := busy.flowEvent (by omega) (among flow List.mem_cons_self)
    obtain ⟨next, run, busy⟩ := inductionHypothesis
      (fun flow member => among flow (List.mem_cons_of_mem _ member)) busy (by omega)
    refine ⟨next, ?_, ?_⟩
    · rw [List.map_cons, Machine.run_cons, step, Option.bind_some, run]
    · rw [List.length_cons]
      rwa [Nat.add_right_comm, Nat.add_assoc] at busy

/-- The timers end, and the request for the statistics is handled by the next call. -/
def statsHandled : List SystemLabel := [.gen (.flush TxAnswer.all), .genDequeue 1]

theorem Busy.statsHandled {system : System} {queued : ℕ} (busy : Busy system queued) :
    ∃ before next, (systemMachine (sampleEnv samplePool) busyMgmt).run system
        TrafficGenerator.statsHandled = some before ∧ before.resQueue.length = queued ∧
      (systemMachine (sampleEnv samplePool) busyMgmt).step before (.gen (.handle {})) =
        some next := by
  obtain ⟨mgmt, mgmtBatch, ⟨manager, place⟩, reqQueue, resQueue, requests⟩ := system
  obtain ⟨-, rfl, alive, mgmtAlive, -, -, request, rfl⟩ := busy
  obtain ⟨msg, rfl⟩ := List.length_eq_one_iff.mp request
  have alive : manager.ops.aborted = false := alive
  have mgmtAlive : mgmt.aborted = false := mgmtAlive
  have flushAlive : (manager.flush TxAnswer.all).ops.aborted = false :=
    (flushTxPkts_frame TxAnswer.all manager.ops).2.2.2.2.1.trans alive
  have flushed : (genMachine (sampleEnv samplePool)).step ⟨manager, .timers⟩
      (.flush TxAnswer.all) = some ⟨manager.flush TxAnswer.all, .idle⟩ := by
    show genStep _ _ _ = _
    rw [genStep, alive, if_neg Bool.false_ne_true]
    rfl
  have quiet : GenState.offered ⟨manager, .timers⟩ ⟨manager.flush TxAnswer.all, .idle⟩ = [] :=
    offered_eq (((flushTxPkts_frame TxAnswer.all manager.ops).2.1).trans (List.append_nil _).symm)
  have dequeued : (genMachine (sampleEnv samplePool)).step
      ⟨manager.flush TxAnswer.all, .idle⟩ (.dequeue [msg]) =
        some ⟨manager.flush TxAnswer.all, .handling [msg]⟩ := by
    have batch : [msg].length ≤ dequeueBatch reqCapacity := (by decide : 1 ≤ min 32 8)
    have part : genPart (sampleEnv samplePool) ⟨manager.flush TxAnswer.all, .idle⟩
        (.dequeue [msg]) = if [msg].length ≤ dequeueBatch reqCapacity then
          some ⟨manager.flush TxAnswer.all, .handling [msg]⟩ else none := rfl
    show genStep _ _ _ = _
    rw [genStep, flushAlive, if_neg Bool.false_ne_true, part, if_pos batch]
  have dequeue : (systemMachine (sampleEnv samplePool) busyMgmt).step
      ⟨mgmt, mgmtBatch, ⟨manager.flush TxAnswer.all, .idle⟩, [msg], resQueue, requests⟩
      (.genDequeue 1) = some
      ⟨mgmt, mgmtBatch, ⟨manager.flush TxAnswer.all, .handling [msg]⟩, [], resQueue, requests⟩ := by
    simp only [systemMachine, System.step, mgmtAlive, flushAlive, Bool.or_false,
      Bool.false_eq_true, if_false]
    show Option.map _ ((genMachine (sampleEnv samplePool)).step _ (.dequeue [msg])) = _
    rw [dequeued]
    rfl
  have handled : (genMachine (sampleEnv samplePool)).step
      ⟨manager.flush TxAnswer.all, .handling [msg]⟩ (.handle {}) =
        some ⟨onIncMsg (sampleEnv samplePool) {} (manager.flush TxAnswer.all) msg.msg,
          .handling []⟩ := by
    show genStep _ _ _ = _
    rw [genStep, flushAlive, if_neg Bool.false_ne_true]
    rfl
  refine ⟨⟨mgmt, mgmtBatch, ⟨manager.flush TxAnswer.all, .handling [msg]⟩, [], resQueue, requests⟩,
    _, ?_, rfl, gen_step mgmtAlive (by simp) handled⟩
  rw [TrafficGenerator.statsHandled, Machine.run_cons, gen_step mgmtAlive (by simp) flushed, quiet,
    Option.bind_some, Machine.run_cons]
  exact congrArg (Option.bind · _) dequeue

/-- A generation of 300 flows is started, the statistics are asked for, and 255 of the flows
have their first event before the management handles anything. -/
def fullQueue : List SystemLabel :=
  busyStart ++ (List.range 255).map flowEvent ++ statsHandled ++ [.gen (.handle {})]

/-- The response with the statistics does not fit in the queue, and nothing else will ever
answer the request. -/
theorem response_lost : ¬ (systemMachine (sampleEnv samplePool) busyMgmt).AllStates
    System.Answerable (System.init "") fullQueue := by
  intro states
  obtain ⟨started, startRun, busy⟩ := busy_begins
  obtain ⟨middle, eventRun, busy⟩ := busy.flowEvents
    (fun flow member => Nat.lt_of_lt_of_le (List.mem_range.mp member) (by decide : 255 ≤ 300))
    (by rw [List.length_range]; decide)
  obtain ⟨before, next, run, full, step⟩ := busy.statsHandled
  have reached : (systemMachine (sampleEnv samplePool) busyMgmt).run (System.init "")
      (busyStart ++ (List.range 255).map flowEvent ++ statsHandled) = some before := by
    rw [Machine.run_append, Machine.run_append, startRun, Option.bind_some, eventRun,
      Option.bind_some, run]
  have answerable : next.Answerable := by
    refine states.last _ ?_
    rw [fullQueue, Machine.run_append, reached, Option.bind_some, Machine.run_cons, step]
    rfl
  have room := answerable.room (System.matched_of_run reached) step
  rw [List.length_range] at full
  exact absurd room (by rw [RoomForResponse, full]; decide)

end TrafficGenerator
