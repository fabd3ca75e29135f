/-
This file says once what each part of `process_events` can do: the three
handlers, the part up to the timers, one timer callback and the final
transmission. The invariants of the later files are derived from these cases
and look into none of the functions again.
-/

import TrafficGenerator.StartLedger

namespace TrafficGenerator

variable {env : Env} {ops ops' : Ops} {manager : GenManager}

/-! ### The handlers -/

/-- A start request while a generation runs is answered and changes nothing else. -/
theorem onStartGeneration_started (input : StartIn) (cfg : GenConfig)
    (started : manager.generationStarted = true) :
    onStartGeneration env input cfg manager =
      { manager with
        ops := enqueueOut (.startGeneration (.error "Already started")) manager.ops } := by
  rw [onStartGeneration, if_pos started]

/-- A start request whose generators cannot be built is answered with the error. -/
theorem onStartGeneration_failed (input : StartIn) (cfg : GenConfig) (manager : GenManager)
    (idle : manager.generationStarted = false) {thrown : Thrown} {middle : Ops}
    (failed : createGens env manager.workingDir cfg.dutAddr 0 cfg.flowsCfgs [] manager.ops =
      (.error thrown, middle)) :
    onStartGeneration env input cfg manager =
      { manager with ops := enqueueOut (.startGeneration (.error (thrown.what env))) middle } := by
  rw [onStartGeneration, idle, if_neg Bool.false_ne_true, failed]

/-- A failed start changes nothing. Whatever throws, and whatever was built before it: the
manager is as before but for the count of failed allocations and one response with the error,
and of the buffers granted on the way each was freed exactly once. -/
theorem failed_start (env : Env) (input : StartIn) (cfg : GenConfig) (manager : GenManager)
    {thrown : Thrown} (idle : manager.generationStarted = false)
    (failed : (createGens env manager.workingDir cfg.dutAddr 0 cfg.flowsCfgs [] manager.ops).1 =
      .error thrown) :
    ∃ pool cntTxPktsNombuf aborted returned,
      onStartGeneration env input cfg manager = { manager with
        ops := { manager.ops with
          pool, cntTxPktsNombuf, aborted
          outMsgs := manager.ops.outMsgs ++ [.startGeneration (.error (thrown.what env))] } } ∧
      (env.EnforceNoop → aborted = manager.ops.aborted) ∧
      pool.freed = manager.ops.pool.freed ++ returned ∧
      returned.Perm (granted env.answers manager.ops.pool.attempts pool.attempts) ∧
      returned.Nodup := by
  obtain ⟨middle, built⟩ : ∃ middle, createGens env manager.workingDir cfg.dutAddr 0
      cfg.flowsCfgs [] manager.ops = (.error thrown, middle) := ⟨_, Prod.ext failed rfl⟩
  have undone : Built env manager.ops middle [] := createGens_spec (Built.refl manager.ops) built
  obtain ⟨returned, freed, perm⟩ := undone.books.freed_perm
  refine ⟨middle.pool, middle.cntTxPktsNombuf, middle.aborted, returned, ?_, undone.aborted.noop,
    freed, perm, perm.nodup_iff.mpr (granted_nodup _ _)⟩
  rw [onStartGeneration_failed input cfg manager idle built, undone.eq_of_nil]
  rfl

/-- The pool has one buffer. -/
def oneBuffer : PoolAnswers := { samplePool with
  grant := fun id => if id = 0 then some 2048 else none }

/-- Two captures, so that the first is built before the pool is exhausted in the second. -/
def twoCaptures : GenConfig := sampleCfg [sampleFlows 2 (by decide), oneFlow]

theorem failed_start_secondCapture :
    ∃ pool cntTxPktsNombuf aborted returned,
      onStartGeneration (sampleEnv oneBuffer) {} twoCaptures {} = {
        ops := {
          pool, cntTxPktsNombuf, aborted
          outMsgs := [.startGeneration (.error "Failed to load packet from sample.pcap")] } } ∧
      aborted = false ∧ pool.freed = returned ∧ returned.Nodup := by
  have failed : (createGens (sampleEnv oneBuffer) "" twoCaptures.dutAddr 0 twoCaptures.flowsCfgs
      [] {}).1 = .error (.systemError 12 "Failed to load packet from sample.pcap") := by
    decide +kernel
  obtain ⟨pool, cntTxPktsNombuf, aborted, returned, result, noop, freed, -, nodup⟩ :=
    failed_start (sampleEnv oneBuffer) {} twoCaptures {} rfl failed
  exact ⟨pool, cntTxPktsNombuf, aborted, returned, result, noop rfl, freed, nodup⟩

/-- A start request whose generators are built starts the generation. -/
theorem onStartGeneration_built (input : StartIn) (cfg : GenConfig) (manager : GenManager)
    (idle : manager.generationStarted = false) (empty : manager.generators = [])
    {gens : List FlowsGenerator} {middle : Ops}
    (built : createGens env manager.workingDir cfg.dutAddr 0 cfg.flowsCfgs [] manager.ops =
      (.ok gens, middle)) :
    onStartGeneration env input cfg manager = { manager with
      generators := gens
      genCycles := some {
        begin := input.now
        duration := Cycles.fromDuration env.hz .milliseconds cfg.duration }
      ops := enqueueOut (.startGeneration (.ok ())) { resetStats input.resetErr middle with
        aborted := middle.aborted || env.enforce true || env.enforce true } } := by
  rw [onStartGeneration, idle, if_neg Bool.false_ne_true, built, empty]
  by_cases reset : input.resetErr = 0
  · simp only [resetStats, if_pos reset]
    rfl
  · simp only [resetStats, if_neg reset]
    rfl

/-- What a start request leads to: it is refused, or fails and leaves nothing behind, or starts
the generation with the generators built. -/
inductive StartCase (env : Env) (input : StartIn) (cfg : GenConfig) (manager : GenManager) : Prop
  | refused (started : manager.generationStarted = true)
      (result : onStartGeneration env input cfg manager = { manager with
        ops := enqueueOut (.startGeneration (.error "Already started")) manager.ops })
  | failed (thrown : Thrown) (middle : Ops) (idle : manager.generationStarted = false)
      (undone : Built env manager.ops middle [])
      (result : onStartGeneration env input cfg manager = { manager with
        ops := enqueueOut (.startGeneration (.error (thrown.what env))) middle })
  | begun (gens : List FlowsGenerator) (middle : Ops) (idle : manager.generationStarted = false)
      (built : createGens env manager.workingDir cfg.dutAddr 0 cfg.flowsCfgs [] manager.ops =
        (.ok gens, middle))
      (done : Built env manager.ops middle gens)
      (result : onStartGeneration env input cfg manager = { manager with
        generators := gens
        genCycles := some {
          begin := input.now
          duration := Cycles.fromDuration env.hz .milliseconds cfg.duration }
        ops := enqueueOut (.startGeneration (.ok ())) { resetStats input.resetErr middle with
          aborted := middle.aborted || env.enforce true || env.enforce true } })

theorem onStartGeneration_cases (env : Env) (input : StartIn) (cfg : GenConfig)
    (manager : GenManager)
    (empty : manager.generationStarted = false → manager.generators = []) :
    StartCase env input cfg manager := by
  by_cases started : manager.generationStarted = true
  · exact .refused started (onStartGeneration_started input cfg started)
  · rw [Bool.not_eq_true] at started
    cases built : createGens env manager.workingDir cfg.dutAddr 0 cfg.flowsCfgs [] manager.ops with
    | mk res middle =>
      have books := createGens_spec (Built.refl manager.ops) built
      cases res with
      | error thrown =>
        exact .failed thrown middle started books
          (onStartGeneration_failed input cfg manager started built)
      | ok gens =>
        exact .begun gens middle started built books
          (onStartGeneration_built input cfg manager started (empty started) built)

/-- Resetting the statistics touches the counters and nothing else. -/
theorem resetStats_frame (err : Int) (ops : Ops) :
    (resetStats err ops).pool = ops.pool ∧ (resetStats err ops).sent = ops.sent ∧
      (resetStats err ops).bursts = ops.bursts ∧ (resetStats err ops).txPkts = ops.txPkts ∧
      (resetStats err ops).outMsgs = ops.outMsgs ∧
      (resetStats err ops).cntTimers = ops.cntTimers := by
  rw [resetStats]
  split <;> exact ⟨rfl, rfl, rfl, rfl, rfl, rfl⟩

/-- A request that leaves the generation running is answered and changes nothing else. -/
theorem onIncMsg_still (env : Env) (input : StartIn) (msg : ReqMsg)
    (started : manager.generationStarted = true)
    (still : (onIncMsg env input manager msg).generationStarted = true) :
    ∃ res, (∀ report, res ≠ .generationReport report) ∧
      onIncMsg env input manager msg = { manager with ops := enqueueOut res manager.ops } := by
  cases msg with
  | startGeneration cfg =>
    exact ⟨_, by simp, onStartGeneration_started input cfg started⟩
  | stopGeneration => exact absurd still Bool.false_ne_true
  | statsReport => exact ⟨_, by simp, rfl⟩

/-- Stopping destroys the generators and returns their timers. -/
theorem stopGeneration_eq (env : Env) (manager : GenManager)
    (owned : ∀ gen ∈ manager.generators, gen.OwnsTimers) :
    ∃ aborted, env.MayAbort manager.ops.aborted aborted ∧ stopGeneration env manager =
      { manager with
        generators := []
        genCycles := none
        ops := { manager.ops with
          pool := manager.ops.pool.freeBulk (gensMbufs manager.generators)
          cntTimers := manager.ops.cntTimers - UInt32.ofNat (totalFlows manager.generators)
          aborted } } := by
  obtain ⟨aborted, may, result⟩ := destroyGens_eq env manager.generators manager.ops owned
  refine ⟨_, may.trans (Env.MayAbort.enforce _
    (manager.ops.cntTimers - UInt32.ofNat (totalFlows manager.generators) == 0)), ?_⟩
  rw [stopGeneration, result]
  rfl

/-! ### Up to the timers -/

/-- What `beforeTimers` does: the idle checks, the end of the generation, the timers, or just
the transmission. -/
theorem beforeTimers_cases (env : Env) (input : TickIn) (manager : GenManager) :
    let received := { manager with ops := receiveRxPkts input.rx manager.ops }
    (manager.genCycles = none ∧ ∃ aborted, env.MayAbort manager.ops.aborted aborted ∧
      beforeTimers env input manager =
        (false, { received with ops := { received.ops with aborted } })) ∨
    (manager.genCycles ≠ none ∧
      beforeTimers env input manager = (false, (stopGeneration env received).flush input.tx)) ∨
    (manager.genCycles ≠ none ∧ beforeTimers env input manager =
      (true, { received with prevCycles := input.schedulerNow })) ∨
    (manager.genCycles ≠ none ∧
      beforeTimers env input manager = (false, received.flush input.tx)) := by
  rw [beforeTimers]
  cases cycles : manager.genCycles with
  | none =>
    exact Or.inl ⟨rfl, _, (Env.MayAbort.enforce _ _).trans (Env.MayAbort.enforce _ _), rfl⟩
  | some genCycles =>
    refine Or.inr ?_
    dsimp only
    split
    · exact Or.inl ⟨by simp, rfl⟩
    · split
      · exact Or.inr (Or.inl ⟨by simp, rfl⟩)
      · exact Or.inr (Or.inr ⟨by simp, rfl⟩)

/-- A generation that survives the part up to the timers has received, and has transmitted at
most. -/
theorem beforeTimers_still (env : Env) (input : TickIn)
    (still : (beforeTimers env input manager).2.generationStarted = true) :
    let received := { manager with ops := receiveRxPkts input.rx manager.ops }
    (∃ prevCycles, (beforeTimers env input manager).2 = { received with prevCycles }) ∨
      (beforeTimers env input manager).2 = received.flush input.tx := by
  rcases beforeTimers_cases env input manager with
    ⟨idle, aborted, -, result⟩ | ⟨-, result⟩ | ⟨-, result⟩ | ⟨-, result⟩
  · rw [result] at still
    exact absurd ((congrArg Option.isSome idle).symm.trans still) Bool.false_ne_true
  · rw [result] at still
    exact absurd still Bool.false_ne_true
  · rw [result]
    exact Or.inl ⟨_, rfl⟩
  · rw [result]
    exact Or.inr rfl

/-! ### One timer callback -/

/-- A timer callback happens at a pending flow of a generator. -/
theorem fire_eq_some {pos flow : ℕ} {event : EventIn} {next : GenManager} :
    manager.fire env pos flow event = some next ↔
      ∃ gen fl, manager.generators[pos]? = some gen ∧ gen.flows[flow]? = some fl ∧
        fl.event.armed = true ∧ next = { manager with
          generators := manager.generators.set pos (gen.onFlowEvent env event flow manager.ops).1
          ops := (gen.onFlowEvent env event flow manager.ops).2 } := by
  rw [GenManager.fire]
  constructor
  · intro run
    split at run
    · exact absurd run (by simp)
    · next gen found =>
      split at run
      · exact absurd run (by simp)
      · next fl flowFound =>
        split at run
        · next armed => exact ⟨gen, fl, found, flowFound, armed, (Option.some.inj run).symm⟩
        · exact absurd run (by simp)
  · rintro ⟨gen, fl, found, flowFound, armed, rfl⟩
    rw [found]
    dsimp only
    rw [flowFound]
    dsimp only
    rw [if_pos armed]

/-- A flow as the callback advances it to its next packet. -/
def FlowsGenerator.advanced (gen : FlowsGenerator) (fl : Flow) : Flow :=
  (gen.nextPkt { fl with event := fired fl.event }).2.1

/-- The flow with the packet it is at counted. -/
def FlowsGenerator.counted (gen : FlowsGenerator) (event : EventIn) (fl : Flow) (ops : Ops) :
    Flow :=
  fl.count event.now (ops.pool.mbufs (pktAt gen.pkts fl.pktIdx).mbuf).pktLen

/-- The report of a callback that succeeds. -/
def FlowsGenerator.reportOf (gen : FlowsGenerator) (event : EventIn) (fl : Flow) (ops : Ops) :
    GenerationReport :=
  gen.report event.now (ops.pool.mbufs (pktAt gen.pkts fl.pktIdx).mbuf).pktLen
    (gen.counted event fl ops)

/-- With a buffer for the copy the packet is sent and reported and the timer armed again, with
the relative time stamp of the packet just sent. -/
theorem emitPkt_copied (gen : FlowsGenerator) (event : EventIn) {fl : Flow} {mbuf : MbufId}
    (copied : copyPkt env (pktAt gen.pkts fl.pktIdx).mbuf ops = (some mbuf, ops')) :
    gen.emitPkt env event fl ops =
      ({ gen.counted event fl ops with
          event := fl.event.map fun _ => { pending := some (pktAt gen.pkts fl.pktIdx).relTsc } },
        tgEnforce env true (doReport (gen.reportOf event fl ops)
          (sendPkt event.tx mbuf (setAddrs (gen.reportOf event fl ops) mbuf ops')))) := by
  rw [FlowsGenerator.emitPkt]
  dsimp only
  rw [copied]
  rfl

/-- Without one, the packet is counted and reported as missed, and nothing else. -/
theorem emitPkt_refused (gen : FlowsGenerator) (event : EventIn) {fl : Flow}
    (refused : copyPkt env (pktAt gen.pkts fl.pktIdx).mbuf ops = (none, ops')) :
    gen.emitPkt env event fl ops =
      (gen.counted event fl ops,
        doReport { gen.reportOf event fl ops with ok := false } ops') := by
  rw [FlowsGenerator.emitPkt]
  dsimp only
  rw [refused]
  rfl

/-- One packet: with a buffer for its copy, or without. -/
inductive EmitCase (env : Env) (gen : FlowsGenerator) (event : EventIn) (fl : Flow) (ops : Ops) :
    Prop
  | missed (after : Ops)
      (refused : copyPkt env (pktAt gen.pkts fl.pktIdx).mbuf ops = (none, after))
      (result : gen.emitPkt env event fl ops = (gen.counted event fl ops,
        doReport { gen.reportOf event fl ops with ok := false } after))
  | sent (copy : MbufId) (after : Ops)
      (granted : copyPkt env (pktAt gen.pkts fl.pktIdx).mbuf ops = (some copy, after))
      (result : gen.emitPkt env event fl ops = ({ gen.counted event fl ops with
          event := fl.event.map fun _ => { pending := some (pktAt gen.pkts fl.pktIdx).relTsc } },
        tgEnforce env true (doReport (gen.reportOf event fl ops)
          (sendPkt event.tx copy (setAddrs (gen.reportOf event fl ops) copy after)))))

theorem emitPkt_cases (env : Env) (gen : FlowsGenerator) (event : EventIn) (fl : Flow)
    (ops : Ops) : EmitCase env gen event fl ops := by
  cases result : copyPkt env (pktAt gen.pkts fl.pktIdx).mbuf ops with
  | mk mbuf after =>
    cases mbuf with
    | none => exact .missed after result (emitPkt_refused gen event result)
    | some copy => exact .sent copy after result (emitPkt_copied gen event result)

/-- The flow after its packet: counted either way, with its timer armed again when there was a
buffer for the copy. -/
theorem emitPkt_flow (env : Env) (gen : FlowsGenerator) (event : EventIn) (fl : Flow) (ops : Ops) :
    (gen.emitPkt env event fl ops).1 = { gen.counted event fl ops with
      event := if (copyPkt env (pktAt gen.pkts fl.pktIdx).mbuf ops).1.isSome then
          fl.event.map fun _ => { pending := some (pktAt gen.pkts fl.pktIdx).relTsc }
        else fl.event } := by
  cases emitPkt_cases env gen event fl ops with
  | missed after refused result =>
    rw [result, refused]
    rfl
  | sent copy after granted result =>
    rw [result, granted]
    rfl

/-- The callback advances the flow and emits its packet. -/
theorem onFlowEvent_eq (gen : FlowsGenerator) (event : EventIn) {pos : ℕ} {fl : Flow}
    (found : gen.flows[pos]? = some fl) (ops : Ops) :
    gen.onFlowEvent env event pos ops =
      ({ gen with
          flows := gen.flows.set pos (gen.emitPkt env event (gen.advanced fl) ops).1
          cursor := (gen.nextPkt { fl with event := fired fl.event }).2.2 },
        (gen.emitPkt env event (gen.advanced fl) ops).2) := by
  rw [FlowsGenerator.onFlowEvent, found]
  rfl

/-! ### One step of the machine -/

/-- The steps of the generation thread, part by part. -/
inductive GenStep (env : Env) : GenState → GenLabel → GenState → Prop
  | dequeue (manager : GenManager) (msgs : List (Tagged ReqMsg))
      (batch : msgs.length ≤ dequeueBatch reqCapacity) :
      GenStep env ⟨manager, .idle⟩ (.dequeue msgs) ⟨manager, .handling msgs⟩
  | handle (manager : GenManager) (msg : Tagged ReqMsg) (rest : List (Tagged ReqMsg))
      (input : StartIn) :
      GenStep env ⟨manager, .handling (msg :: rest)⟩ (.handle input)
        ⟨onIncMsg env input manager msg.msg, .handling rest⟩
  | tick (manager : GenManager) (input : TickIn) :
      GenStep env ⟨manager, .handling []⟩ (.tick input)
        ⟨(beforeTimers env input manager).2,
          if (beforeTimers env input manager).1 then .timers else .idle⟩
  | fire (manager next : GenManager) (pos flow : ℕ) (event : EventIn)
      (run : manager.fire env pos flow event = some next) :
      GenStep env ⟨manager, .timers⟩ (.fire pos flow event) ⟨next, .timers⟩
  | flush (manager : GenManager) (tx : TxAnswer) :
      GenStep env ⟨manager, .timers⟩ (.flush tx) ⟨manager.flush tx, .idle⟩
  | nic (manager : GenManager) (place : GenPlace) (stats : EthStats) :
      GenStep env ⟨manager, place⟩ (.nic stats)
        ⟨{ manager with ops := { manager.ops with ethStats := stats } }, place⟩

/-- The machine takes no other steps, and none after an abort. -/
theorem genStep_spec {state next : GenState} {label : GenLabel}
    (step : (genMachine env).step state label = some next) :
    state.manager.ops.aborted = false ∧ GenStep env state label next := by
  obtain ⟨manager, place⟩ := state
  have alive : manager.ops.aborted = false ∧ genPart env ⟨manager, place⟩ label = some next := by
    simp only [genMachine, genStep] at step
    split at step
    · exact absurd step (by simp)
    · next alive => exact ⟨Bool.not_eq_true _ ▸ alive, step⟩
  refine ⟨alive.1, ?_⟩
  have part := alive.2
  unfold genPart at part
  split at part
  · next msgs place' =>
    obtain rfl : place = .idle := place'
    split at part
    · next batch =>
      obtain rfl := Option.some.inj part
      exact .dequeue manager msgs batch
    · exact absurd part (by simp)
  · next msg rest input place' =>
    obtain rfl : place = .handling (msg :: rest) := place'
    obtain rfl := Option.some.inj part
    exact .handle manager msg rest input
  · next input place' =>
    obtain rfl : place = .handling [] := place'
    obtain rfl := Option.some.inj part
    exact .tick manager input
  · next pos flow event place' =>
    obtain rfl : place = .timers := place'
    obtain ⟨fired, run, rfl⟩ := Option.map_eq_some_iff.mp part
    exact .fire manager fired pos flow event run
  · next tx place' =>
    obtain rfl : place = .timers := place'
    obtain rfl := Option.some.inj part
    exact .flush manager tx
  · next stats =>
    obtain rfl := Option.some.inj part
    exact .nic manager place stats
  · exact absurd part (by simp)

end TrafficGenerator
