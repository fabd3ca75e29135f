/-
This file proves that the two threads never wait for each other in a circle.
When no response was lost, there is a way for them to go on, without any new
request, after which every callback has been called: the management empties its
queue, the generator ends the call it is in and handles what is queued, and the
management handles the responses.
-/

import TrafficGenerator.Delivery

namespace TrafficGenerator

variable {env : Env} {mgmtEnv : MgmtEnv}

/-! ### Runs without requests -/

/-- The system gets from one state to another without an HTTP request. -/
def QuietlyReaches (env : Env) (mgmtEnv : MgmtEnv) (system final : System) : Prop :=
  ∃ labels, (∀ target req, SystemLabel.http target req ∉ labels) ∧
    (systemMachine env mgmtEnv).run system labels = some final

theorem QuietlyReaches.refl (system : System) : QuietlyReaches env mgmtEnv system system :=
  ⟨[], fun _ _ => List.not_mem_nil, rfl⟩

theorem QuietlyReaches.head {system next final : System} {label : SystemLabel}
    (quiet : ∀ target req, label ≠ .http target req)
    (step : (systemMachine env mgmtEnv).step system label = some next)
    (rest : QuietlyReaches env mgmtEnv next final) : QuietlyReaches env mgmtEnv system final := by
  obtain ⟨labels, quietLabels, run⟩ := rest
  refine ⟨label :: labels, fun target req member => ?_, ?_⟩
  · rcases List.mem_cons.mp member with same | among
    · exact quiet target req same.symm
    · exact quietLabels target req among
  · exact ((systemMachine env mgmtEnv).run_cons_eq_some).mpr ⟨next, step, run⟩

theorem QuietlyReaches.trans {system middle final : System}
    (first : QuietlyReaches env mgmtEnv system middle)
    (second : QuietlyReaches env mgmtEnv middle final) :
    QuietlyReaches env mgmtEnv system final := by
  obtain ⟨labels, quiet, run⟩ := first
  obtain ⟨others, quietOthers, otherRun⟩ := second
  refine ⟨labels ++ others, fun target req member => ?_, ?_⟩
  · rcases List.mem_append.mp member with among | among
    · exact quiet target req among
    · exact quietOthers target req among
  · rw [Machine.run_append, run]
    exact otherRun

/-! ### States that can go on -/

/-- A state the threads can go on from: nothing aborted, and no response was lost. -/
structure System.Alive (system : System) : Prop where
  matched : system.Matched
  answerable : system.Answerable
  mgmt : system.mgmt.aborted = false
  gen : system.gen.manager.ops.aborted = false

theorem System.Alive.running {system : System} (alive : system.Alive) :
    (system.mgmt.aborted || system.gen.manager.ops.aborted) = false := by
  rw [alive.mgmt, alive.gen]
  rfl

/-- No part of the generator aborts when `TG_ENFORCE` is a no-op. -/
theorem genStep_alive (noop : env.EnforceNoop) {state next : GenState} {label : GenLabel}
    (sound : state.Sound) (step : (genMachine env).step state label = some next) :
    next.manager.ops.aborted = false := by
  obtain ⟨alive, spec⟩ := genStep_spec step
  cases spec with
  | dequeue manager msgs batch => exact alive
  | handle manager msg rest input =>
    exact ((onIncMsg_aborted env input msg.msg sound.manager).noop noop).trans alive
  | tick manager input =>
    exact ((beforeTimers_aborted env input sound.manager).noop noop).trans alive
  | fire manager next pos flow event run => exact ((fire_aborted run).noop noop).trans alive
  | flush manager tx => exact ((flushTxPkts_frame tx manager.ops).2.2.2.2.1).trans alive
  | nic manager place stats => exact alive

theorem systemStep_gen {system next : System} {label : SystemLabel}
    (step : (systemMachine env mgmtEnv).step system label = some next) :
    next.gen = system.gen ∨
      ∃ part, (genMachine env).step system.gen part = some next.gen := by
  simp only [systemMachine, System.step] at step
  have moved : system.genStep env label = some next →
      ∃ part, (genMachine env).step system.gen part = some next.gen := by
    intro step
    unfold System.genStep at step
    split at step
    · obtain ⟨popped, -, step⟩ := Option.bind_eq_some_iff.mp step
      obtain ⟨gen, moved, rfl⟩ := Option.map_eq_some_iff.mp step
      exact ⟨_, moved⟩
    · exact absurd step (by simp)
    · obtain ⟨gen, moved, rfl⟩ := Option.map_eq_some_iff.mp step
      exact ⟨_, moved⟩
    · exact absurd step (by simp)
  split at step
  · exact absurd step (by simp)
  · split at step
    · exact .inr (moved step)
    · exact .inr (moved step)
    · exact .inl (mgmtStep_spec step).2

theorem systemStep_mgmt_aborted (noop : mgmtEnv.enforce = fun _ => false)
    {system next : System} {label : SystemLabel} (step : SystemStep mgmtEnv system label next) :
    next.mgmt.aborted = system.mgmt.aborted := by
  cases step with
  | http target req next requested => exact requested.aborted
  | mgmtHandle msg rest batch =>
    cases response : msg.msg.kind with
    | none => rw [onResMsg_report mgmtEnv system.mgmt response]
    | some kind =>
      obtain ⟨status, body, -, result⟩ := onResMsg_response mgmtEnv system.mgmt response
      rw [result, respond_aborted, noop, Bool.or_false]
  | mgmtDequeue | genDequeue | genHandle | genReport | genQuiet => rfl

theorem System.Alive.step (noop : env.EnforceNoop) (mgmtNoop : mgmtEnv.enforce = fun _ => false)
    {system next : System} {label : SystemLabel} (alive : system.Alive)
    (room : RoomForResponse system label)
    (step : (systemMachine env mgmtEnv).step system label = some next) : next.Alive where
  matched := alive.matched.step step
  answerable := alive.answerable.step alive.matched room step
  mgmt := (systemStep_mgmt_aborted mgmtNoop (systemStep_spec alive.matched.gen step).1).trans
    alive.mgmt
  gen := by
    rcases systemStep_gen step with same | ⟨part, moved⟩
    · rw [same]
      exact alive.gen
    · exact genStep_alive noop alive.matched.gen moved

theorem length_offers (queue : ResQueue) (msgs : List (Tagged ResMsg)) :
    (msgs.foldl offer queue).length ≤ queue.length + msgs.length := by
  induction msgs generalizing queue with
  | nil => exact Nat.le_refl _
  | cons msg rest inductionHypothesis =>
    refine (inductionHypothesis (offer queue msg)).trans ?_
    rw [offer_eq, List.length_cons]
    split
    · rw [List.length_append, List.length_singleton]
      omega
    · omega

theorem genPart_handle {state : GenState} {msg : Tagged ReqMsg} {rest : List (Tagged ReqMsg)}
    (input : StartIn) (place : state.place = .handling (msg :: rest)) :
    genPart env state (.handle input) =
      some ⟨onIncMsg env input state.manager msg.msg, .handling rest⟩ := by
  obtain ⟨manager, _⟩ := state
  obtain rfl := place
  rfl

theorem genPart_dequeue {state : GenState} {msgs : List (Tagged ReqMsg)}
    (place : state.place = .idle) (few : msgs.length ≤ dequeueBatch reqCapacity) :
    genPart env state (.dequeue msgs) = some { state with place := .handling msgs } := by
  obtain ⟨manager, _⟩ := state
  obtain rfl := place
  exact if_pos few

theorem genPart_tick {state : GenState} (input : TickIn) (place : state.place = .handling []) :
    genPart env state (.tick input) = some ⟨(beforeTimers env input state.manager).2,
      if (beforeTimers env input state.manager).1 then .timers else .idle⟩ := by
  obtain ⟨manager, _⟩ := state
  obtain rfl := place
  rfl

theorem genPart_flush {state : GenState} (tx : TxAnswer) (place : state.place = .timers) :
    genPart env state (.flush tx) = some ⟨state.manager.flush tx, .idle⟩ := by
  obtain ⟨manager, _⟩ := state
  obtain rfl := place
  rfl

/-- When nothing is in flight nothing is pending. -/
theorem System.Alive.settled {system : System} (alive : system.Alive)
    (place : system.gen.place = .handling []) (reqQueue : system.reqQueue = [])
    (batch : system.mgmtBatch = []) (resQueue : system.resQueue = []) (kind : ReqKind) :
    system.mgmt.cb kind = none := by
  by_contra pending
  have one := alive.answerable kind (Option.isSome_iff_ne_none.mpr pending)
  have handled : system.gen.batch = [] := by
    unfold GenState.batch
    rw [place]
  rw [System.requestsOf, System.responsesOf, handled, reqQueue, batch, resQueue] at one
  exact absurd one (by simp [servedBy_nil])

/-- Without requests their number stays. -/
theorem QuietlyReaches.requests {system final : System} (alive : system.Matched)
    (reaches : QuietlyReaches env mgmtEnv system final) :
    final.Matched ∧ final.requests = system.requests := by
  obtain ⟨labels, quiet, run⟩ := reaches
  refine (systemMachine env mgmtEnv).run_invariant_of_labels
    (fun other => other.Matched ∧ other.requests = system.requests)
    (fun label => ∀ target req, label ≠ .http target req) ?_ ⟨alive, rfl⟩ ?_ run
  · intro before label after holds quietLabel step
    refine ⟨holds.1.step step, ?_⟩
    rcases requests_step (systemStep_spec holds.1.gen step).1 with ⟨⟨target, req, same⟩, -⟩ | same
    · exact absurd same (quietLabel target req)
    · exact same.trans holds.2
  · rintro label member target req rfl
    exact quiet target req member

/-! ### The management empties its queue -/

section Drain

variable (noop : env.EnforceNoop) (mgmtNoop : mgmtEnv.enforce = fun _ => false)

include noop mgmtNoop

/-- Every message takes two steps: it is taken off the queue, and it is handled. -/
theorem mgmt_drains {system : System} (alive : system.Alive) :
    ∃ final, QuietlyReaches env mgmtEnv system final ∧ final.Alive ∧ final.mgmtBatch = [] ∧
      final.resQueue = [] ∧ final.gen = system.gen ∧ final.reqQueue = system.reqQueue := by
  induction left : 2 * system.resQueue.length + system.mgmtBatch.length using Nat.strongRecOn
    generalizing system with
  | ind left inductionHypothesis =>
    obtain rfl := left
    cases batch : system.mgmtBatch with
    | cons msg rest =>
      have step : (systemMachine env mgmtEnv).step system .mgmtHandle = some { system with
          mgmt := onResMsg mgmtEnv system.mgmt msg.msg
          mgmtBatch := rest } := by
        refine systemStep_of_mgmtStep alive.running ?_
        rw [System.mgmtStep, batch]
      obtain ⟨final, reaches, finally_⟩ := inductionHypothesis _ (by
        rw [batch, List.length_cons]
        exact Nat.lt_succ_self _)
        (alive.step noop mgmtNoop (show RoomForResponse system .mgmtHandle from trivial) step) rfl
      exact ⟨final, .head (by simp) step reaches, finally_⟩
    | nil =>
      cases queue : system.resQueue with
      | nil => exact ⟨system, .refl system, alive, batch, queue, rfl, rfl⟩
      | cons msg rest =>
        have step : (systemMachine env mgmtEnv).step system (.mgmtDequeue 1) = some { system with
            mgmtBatch := [msg]
            resQueue := rest } := by
          refine systemStep_of_mgmtStep alive.running ?_
          rw [System.mgmtStep, if_pos ⟨batch, by decide⟩, queue,
            BoundedFifo.pop_eq_some.mpr (show msg :: rest = [msg] ++ rest ∧ [msg].length = 1 from
              ⟨rfl, rfl⟩)]
          rfl
        obtain ⟨final, reaches, finally_⟩ := inductionHypothesis _ (by
          rw [batch, queue]
          simp only [List.length_cons, List.length_nil]
          omega) (alive.step noop mgmtNoop
            (show RoomForResponse system (.mgmtDequeue 1) from trivial) step) rfl
        exact ⟨final, .head (by simp) step reaches, finally_⟩

/-! ### The generator ends its call -/

/-- The requests taken off the queue are handled one after the other. -/
theorem gen_handles {system : System} {msgs : List (Tagged ReqMsg)} (alive : system.Alive)
    (place : system.gen.place = .handling msgs)
    (room : system.resQueue.length + msgs.length < resCapacity) :
    ∃ final, QuietlyReaches env mgmtEnv system final ∧ final.Alive ∧
      final.gen.place = .handling [] ∧ final.reqQueue = system.reqQueue := by
  induction msgs generalizing system with
  | nil => exact ⟨system, .refl system, alive, place, rfl⟩
  | cons msg rest inductionHypothesis =>
    rw [List.length_cons] at room
    have moved : (genMachine env).step system.gen (.handle {}) = some _ :=
      step_part alive.gen (genPart_handle {} place)
    have step : (systemMachine env mgmtEnv).step system (.gen (.handle {})) = some _ :=
      gen_step alive.mgmt (by simp) moved
    have after := alive.step noop mgmtNoop
      (show RoomForResponse system (.gen (.handle {})) from by
        show system.resQueue.length < resCapacity
        omega) step
    obtain ⟨final, reaches, finally_⟩ := inductionHypothesis after rfl (by
      refine Nat.lt_of_le_of_lt (Nat.add_le_add_right (length_offers _ _) _) ?_
      have short := offered_short alive.matched.gen moved (by simp)
      rw [List.length_map]
      omega)
    exact ⟨final, .head (by simp) step reaches, finally_⟩

/-- A step of the generator that offers nothing. -/
theorem gen_quiet_step {system : System} {gen : GenState} (label : GenLabel)
    (alive : system.Alive) (notDequeue : ∀ msgs, label ≠ .dequeue msgs)
    (notHandle : ∀ input, label ≠ .handle input)
    (part : genPart env system.gen label = some gen) :
    ∃ next, QuietlyReaches env mgmtEnv system next ∧ next.Alive ∧ next.gen = gen ∧
      next.reqQueue = system.reqQueue := by
  have step : (systemMachine env mgmtEnv).step system (.gen label) = some _ :=
    gen_step alive.mgmt notDequeue (step_part alive.gen part)
  refine ⟨_, .head (by simp) step (.refl _), alive.step noop mgmtNoop ?_ step, rfl, rfl⟩
  cases label with
  | handle input => exact absurd rfl (notHandle input)
  | dequeue | tick | fire | flush | nic => exact trivial

/-- Wherever the generator is in a call, it can end it. -/
theorem gen_ends {system : System} (alive : system.Alive) (empty : system.resQueue = []) :
    ∃ final, QuietlyReaches env mgmtEnv system final ∧ final.Alive ∧ final.gen.place = .idle ∧
      final.reqQueue = system.reqQueue := by
  -- from the timers only the last transmission is left
  have flushes {system : System} (alive : system.Alive) (place : system.gen.place = .timers) :
      ∃ final, QuietlyReaches env mgmtEnv system final ∧ final.Alive ∧ final.gen.place = .idle ∧
        final.reqQueue = system.reqQueue := by
    obtain ⟨final, reaches, finalAlive, gen, queue⟩ :=
      gen_quiet_step noop mgmtNoop (.flush TxAnswer.all) alive (by simp) (by simp)
        (genPart_flush TxAnswer.all place)
    exact ⟨final, reaches, finalAlive, by rw [gen], queue⟩
  cases place : system.gen.place with
  | idle => exact ⟨system, .refl system, alive, place, rfl⟩
  | timers => exact flushes alive place
  | handling msgs =>
    have few := alive.matched.requests_length
    have batch : system.gen.batch = msgs := by
      unfold GenState.batch
      rw [place]
    rw [batch, List.length_append] at few
    obtain ⟨handled, reaches, handledAlive, handledPlace, queue⟩ :=
      gen_handles noop mgmtNoop alive place (by
        rw [empty]
        exact Nat.lt_of_le_of_lt (Nat.le_trans (Nat.le_of_eq (Nat.zero_add _))
          (Nat.le_of_add_right_le few)) (by decide))
    obtain ⟨ticked, ticks, tickedAlive, gen, tickedQueue⟩ :=
      gen_quiet_step noop mgmtNoop (.tick {}) handledAlive (by simp) (by simp)
        (genPart_tick {} handledPlace)
    have reachesTicked := reaches.trans ticks
    by_cases timers : (beforeTimers env {} handled.gen.manager).1 = true
    · obtain ⟨final, flush, finalAlive, idle, finalQueue⟩ :=
        flushes tickedAlive (by rw [gen, if_pos timers])
      exact ⟨final, reachesTicked.trans flush, finalAlive, idle,
        finalQueue.trans (tickedQueue.trans queue)⟩
    · exact ⟨ticked, reachesTicked, tickedAlive, by rw [gen, if_neg timers],
        tickedQueue.trans queue⟩

/-- Between two calls the generator can take every request off its queue and handle it. -/
theorem gen_drains {system : System} (alive : system.Alive) (empty : system.resQueue = [])
    (idle : system.gen.place = .idle) :
    ∃ final, QuietlyReaches env mgmtEnv system final ∧ final.Alive ∧
      final.gen.place = .handling [] ∧ final.reqQueue = [] := by
  have few := alive.matched.requests_length
  rw [List.length_append] at few
  have few := Nat.le_of_add_left_le few
  have step : (systemMachine env mgmtEnv).step system (.genDequeue system.reqQueue.length) =
      some { system with
        gen := { system.gen with place := .handling system.reqQueue }
        reqQueue := [] } := by
    refine systemStep_of_genStep alive.running ?_
    rw [System.genStep, BoundedFifo.pop_eq_some.mpr ⟨(List.append_nil _).symm, rfl⟩,
      Option.bind_some, show TrafficGenerator.genStep env system.gen _ = _ from
        step_part alive.gen (genPart_dequeue idle (Nat.le_trans few (by decide)))]
    rfl
  have after := alive.step noop mgmtNoop
    (show RoomForResponse system (.genDequeue _) from trivial) step
  obtain ⟨final, reaches, finalAlive, place, queue⟩ := gen_handles noop mgmtNoop after rfl (by
    show system.resQueue.length + system.reqQueue.length < resCapacity
    rw [empty]
    exact Nat.lt_of_le_of_lt (Nat.le_trans (Nat.le_of_eq (Nat.zero_add _)) few) (by decide))
  exact ⟨final, .head (by simp) step reaches, finalAlive, place, queue⟩

/-- The whole way. -/
theorem System.Alive.drains {system : System} (alive : system.Alive) :
    ∃ final, QuietlyReaches env mgmtEnv system final ∧ ∀ kind, final.mgmt.cb kind = none := by
  obtain ⟨first, toFirst, firstAlive, -, firstEmpty, -, -⟩ := mgmt_drains noop mgmtNoop alive
  obtain ⟨ended, toEnded, endedAlive, idle, -⟩ := gen_ends noop mgmtNoop firstAlive firstEmpty
  obtain ⟨second, toSecond, secondAlive, -, secondEmpty, secondGen, -⟩ :=
    mgmt_drains noop mgmtNoop endedAlive
  obtain ⟨handled, toHandled, handledAlive, place, reqQueue⟩ :=
    gen_drains noop mgmtNoop secondAlive secondEmpty (by rw [secondGen, idle])
  obtain ⟨final, toFinal, finalAlive, batch, resQueue, gen, reqs⟩ :=
    mgmt_drains noop mgmtNoop handledAlive
  refine ⟨final, toFirst.trans (toEnded.trans (toSecond.trans (toHandled.trans toFinal))), ?_⟩
  exact finalAlive.settled (by rw [gen, place]) (reqs.trans reqQueue) batch resQueue

end Drain

/-- As long as no response was lost, the two threads can go on from wherever they are, without any
new request, to a state in which no callback is pending and every request there ever was has been
answered once. -/
theorem requests_can_be_answered (env : Env) (noop : env.EnforceNoop) (mgmtEnv : MgmtEnv)
    (mgmtNoop : mgmtEnv.enforce = fun _ => false) (workingDir : String)
    {labels : List SystemLabel} {system : System}
    (run : (systemMachine env mgmtEnv).run (System.init workingDir) labels = some system)
    (room : (systemMachine env mgmtEnv).AllSteps RoomForResponse (System.init workingDir)
      labels) :
    ∃ final, QuietlyReaches env mgmtEnv system final ∧
      (∀ kind, final.mgmt.cb kind = none) ∧
      (final.mgmt.answers.map HttpAnswer.request).Perm
        ((List.range system.requests).map some) := by
  have init : (System.init workingDir).Alive := {
    matched := System.matched_init workingDir
    answerable := fun kind pending => by cases kind <;> exact absurd pending Bool.false_ne_true
    mgmt := rfl
    gen := rfl }
  have alive : system.Alive := ((systemMachine env mgmtEnv).allStates_of_allSteps System.Alive
    RoomForResponse (fun _ _ _ alive room step => alive.step noop mgmtNoop room step) init
    room).last _ run
  obtain ⟨final, reaches, idle⟩ := alive.drains noop mgmtNoop
  obtain ⟨matched, requests⟩ := reaches.requests alive.matched
  refine ⟨final, reaches, idle, ?_⟩
  have callbacks := matched.callbacks
  rw [requests, MgmtManager.callbacks, MgmtManager.pending,
    MgmtManager.awaited_none (idle .start), MgmtManager.awaited_none (idle .stop),
    MgmtManager.awaited_none (idle .stats), List.append_nil, List.append_nil,
    List.append_nil] at callbacks
  exact callbacks

/-- A start and a stop are on their way when the management is asked for the statistics. -/
theorem requests_can_be_answered_onTheirWay : ∃ system final,
    (systemMachine (sampleEnv samplePool) sampleMgmt).run (System.init "")
      [.http "/start_gen" "", .http "/stop_gen" "", .genDequeue 1, .http "/get_stats" ""] =
        some system ∧
    system.requests = 3 ∧
    QuietlyReaches (sampleEnv samplePool) sampleMgmt system final ∧
    (final.mgmt.answers.map HttpAnswer.request).Perm
      ((List.range system.requests).map some) := by
  have runs : ((systemMachine (sampleEnv samplePool) sampleMgmt).run (System.init "")
      [.http "/start_gen" "", .http "/stop_gen" "", .genDequeue 1, .http "/get_stats" ""]).map
        System.requests = some 3 := by
    decide +kernel
  obtain ⟨system, run, three⟩ := Option.map_eq_some_iff.mp runs
  obtain ⟨final, reaches, -, answered⟩ := requests_can_be_answered (sampleEnv samplePool) rfl
    sampleMgmt rfl "" run fun _ _ => ⟨trivial, fun _ _ => ⟨trivial, fun _ _ => ⟨trivial,
      fun _ _ => ⟨trivial, trivial⟩⟩⟩⟩
  exact ⟨system, final, run, three, reaches, answered⟩

end TrafficGenerator
