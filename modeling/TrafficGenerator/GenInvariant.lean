/-
This file proves the invariant of the generation manager over all its runs: no
generators while idle, one timer for every flow, and a burst that is empty
between calls and never full between callbacks.
-/

import TrafficGenerator.GenSteps

namespace TrafficGenerator

variable {env : Env} {ops ops' : Ops} {manager : GenManager}

/-! ### The burst and the timers in each operation -/

/-- Copying a packet is an allocation: only the pool and the count of failures change. -/
theorem copyPkt_frame {pkt : MbufId} {mbuf : Option MbufId}
    (run : copyPkt env pkt ops = (mbuf, ops')) : ops.LoadFrame ops' := by
  rw [copyPkt] at run
  split at run
  · obtain ⟨-, rfl⟩ := run
    exact ops.loadFrame_pool _ _
  · obtain ⟨-, rfl⟩ := run
    exact ops.loadFrame_pool _ _

@[simp] theorem pushTxPkt_txPkts (pkt : MbufId) (ops : Ops) :
    (pushTxPkt pkt ops).txPkts = ops.txPkts ++ [pkt] := rfl

/-- `send_pkt` always leaves room in the burst. -/
theorem sendPkt_txPkts_length (tx : TxAnswer) (pkt : MbufId)
    (room : ops.txPkts.length < cntBurstPkts) :
    (sendPkt tx pkt ops).txPkts.length < cntBurstPkts := by
  rw [sendPkt]
  split
  · exact Nat.succ_pos _
  · next notFull =>
    rw [pushTxPkt_txPkts, List.length_append, List.length_singleton] at *
    omega

/-- What sending does not touch. -/
theorem sendPkt_frame (tx : TxAnswer) (pkt : MbufId) (ops : Ops) :
    (sendPkt tx pkt ops).cntTimers = ops.cntTimers ∧
      (sendPkt tx pkt ops).outMsgs = ops.outMsgs ∧
      (sendPkt tx pkt ops).ethStats = ops.ethStats ∧
      (sendPkt tx pkt ops).cntTxPktsNombuf = ops.cntTxPktsNombuf ∧
      (sendPkt tx pkt ops).aborted = ops.aborted := by
  rw [sendPkt]
  split <;> exact ⟨rfl, rfl, rfl, rfl, rfl⟩

@[simp] theorem flushTxPkts_txPkts (tx : TxAnswer) (ops : Ops) :
    (flushTxPkts tx ops).txPkts = [] := by
  rw [flushTxPkts]
  split
  · assumption
  · rfl

/-- What the final transmission does not touch. -/
theorem flushTxPkts_frame (tx : TxAnswer) (ops : Ops) :
    (flushTxPkts tx ops).cntTimers = ops.cntTimers ∧
      (flushTxPkts tx ops).outMsgs = ops.outMsgs ∧
      (flushTxPkts tx ops).ethStats = ops.ethStats ∧
      (flushTxPkts tx ops).cntTxPktsNombuf = ops.cntTxPktsNombuf ∧
      (flushTxPkts tx ops).aborted = ops.aborted ∧
      (flushTxPkts tx ops).sent = ops.sent := by
  rw [flushTxPkts]
  split <;> exact ⟨rfl, rfl, rfl, rfl, rfl, rfl⟩

/-! ### One callback -/

/-- What every callback does to the manager, with a buffer for the copy or without. -/
structure EmitFrame (env : Env) (before after : Ops) : Prop where
  cntTimers : after.cntTimers = before.cntTimers
  ethStats : after.ethStats = before.ethStats
  aborted : env.MayAbort before.aborted after.aborted
  outMsgs : ∃ report, after.outMsgs = before.outMsgs ++ [.generationReport report]
  txPkts : before.txPkts.length < cntBurstPkts → after.txPkts.length < cntBurstPkts

/-- Every callback reports its packet, sent or missed. -/
theorem emitPkt_outMsgs (env : Env) (gen : FlowsGenerator) (event : EventIn) (fl : Flow)
    (ops : Ops) :
    (gen.emitPkt env event fl ops).2.outMsgs = ops.outMsgs ++ [.generationReport
      { gen.reportOf event fl ops with
        ok := (copyPkt env (pktAt gen.pkts fl.pktIdx).mbuf ops).1.isSome }] := by
  cases emitPkt_cases env gen event fl ops with
  | missed after refused result =>
    rw [result, refused]
    exact congrArg (· ++ [_]) (copyPkt_frame refused).outMsgs
  | sent copy after granted result =>
    rw [result, granted]
    exact congrArg (· ++ [_])
      ((sendPkt_frame event.tx copy _).2.1.trans (copyPkt_frame granted).outMsgs)

theorem emitPkt_frame (env : Env) (gen : FlowsGenerator) (event : EventIn) (fl : Flow)
    (ops : Ops) : EmitFrame env ops (gen.emitPkt env event fl ops).2 := by
  have outMsgs : ∃ report, (gen.emitPkt env event fl ops).2.outMsgs =
      ops.outMsgs ++ [.generationReport report] := ⟨_, emitPkt_outMsgs env gen event fl ops⟩
  cases emitPkt_cases env gen event fl ops with
  | missed after refused result =>
    have frame := copyPkt_frame refused
    rw [result] at outMsgs ⊢
    exact {
      cntTimers := frame.cntTimers
      ethStats := frame.ethStats
      aborted := by
        show env.MayAbort ops.aborted after.aborted
        rw [frame.aborted]
        exact Env.MayAbort.refl _
      outMsgs
      txPkts := fun room => by
        show after.txPkts.length < _
        rwa [frame.txPkts] }
  | sent copy after granted result =>
    have frame := copyPkt_frame granted
    rw [result] at outMsgs ⊢
    obtain ⟨cntTimers, -, ethStats, -, aborted⟩ := sendPkt_frame event.tx copy
      (setAddrs (gen.reportOf event fl ops) copy after)
    have burst : ops.txPkts.length < cntBurstPkts → (sendPkt event.tx copy
        (setAddrs (gen.reportOf event fl ops) copy after)).txPkts.length < cntBurstPkts :=
      fun room => sendPkt_txPkts_length event.tx copy (by
        show after.txPkts.length < _
        rwa [frame.txPkts])
    -- The report and the timer do not touch what the transmission left.
    generalize sendPkt event.tx copy _ = sent at *
    exact {
      cntTimers := cntTimers.trans frame.cntTimers
      ethStats := ethStats.trans frame.ethStats
      aborted := by
        rw [← frame.aborted, show after.aborted = _ from aborted.symm]
        exact Env.MayAbort.enforce _ _
      outMsgs
      txPkts := burst }

/-- Counting and arming leave the timer of a flow its own. -/
theorem emitPkt_event (env : Env) (gen : FlowsGenerator) (event : EventIn) (fl : Flow)
    (ops : Ops) : (gen.emitPkt env event fl ops).1.event.isSome = fl.event.isSome := by
  rw [emitPkt_flow]
  dsimp only
  split
  · exact Option.isSome_map
  · rfl

theorem advanced_event (gen : FlowsGenerator) (fl : Flow) :
    (gen.advanced fl).event = fired fl.event := by
  rw [FlowsGenerator.advanced, FlowsGenerator.nextPkt]
  split <;> rfl

/-! ### The invariant -/

/-- The invariant of `gen::manager_impl`. -/
structure GenManager.Sound (manager : GenManager) : Prop where
  idle : manager.genCycles = none → manager.generators = []
  cntTimers : manager.ops.cntTimers = UInt32.ofNat (totalFlows manager.generators)
  ownsTimers : ∀ gen ∈ manager.generators, gen.OwnsTimers
  txPkts : manager.ops.txPkts.length < cntBurstPkts

/-- The invariant of the machine: outside the timers nothing waits for transmission, and the
timers run only during a generation. -/
structure GenState.Sound (state : GenState) : Prop where
  manager : state.manager.Sound
  quiet : state.place ≠ .timers → state.manager.ops.txPkts = []
  started : state.place = .timers → state.manager.genCycles ≠ none

/-- The invariant does not read the rest of the manager. -/
theorem GenManager.Sound.congr {next : GenManager} (sound : manager.Sound)
    (generators : next.generators = manager.generators)
    (genCycles : next.genCycles = manager.genCycles)
    (cntTimers : next.ops.cntTimers = manager.ops.cntTimers)
    (txPkts : next.ops.txPkts = manager.ops.txPkts) : next.Sound where
  idle idle := generators.trans (sound.idle (genCycles.symm.trans idle))
  cntTimers := by rw [cntTimers, generators, sound.cntTimers]
  ownsTimers := by
    rw [generators]
    exact sound.ownsTimers
  txPkts := by
    rw [txPkts]
    exact sound.txPkts

theorem GenManager.Sound.empty (sound : manager.Sound)
    (idle : manager.generationStarted = false) : manager.generators = [] :=
  sound.idle (Option.isNone_iff_eq_none.mp (Option.isSome_eq_false_iff.mp idle))

theorem GenState.sound_init (workingDir : String) : (GenState.init workingDir).Sound where
  manager := {
    idle := fun _ => rfl
    cntTimers := rfl
    ownsTimers := fun _ member => absurd member List.not_mem_nil
    txPkts := Nat.succ_pos _ }
  quiet _ := rfl
  started place := absurd place (by simp [GenState.init])

/-- What the start handler keeps of the invariant, in its three cases. -/
theorem onStartGeneration_sound (env : Env) (input : StartIn) (cfg : GenConfig)
    (sound : manager.Sound) :
    (onStartGeneration env input cfg manager).Sound ∧
      (onStartGeneration env input cfg manager).ops.txPkts = manager.ops.txPkts := by
  cases onStartGeneration_cases env input cfg manager sound.empty with
  | refused started result =>
    rw [result]
    exact ⟨sound.congr rfl rfl rfl rfl, rfl⟩
  | failed thrown middle idle undone result =>
    rw [result]
    refine ⟨sound.congr rfl rfl ?_ undone.frame.txPkts, undone.frame.txPkts⟩
    exact undone.cntTimers.trans (UInt32.add_zero _)
  | begun gens middle idle built done result =>
    obtain ⟨-, -, -, burst, -, timers⟩ := resetStats_frame input.resetErr middle
    replace burst := burst.trans done.frame.txPkts
    rw [result]
    refine ⟨{
      idle := fun idle => absurd idle (by simp)
      cntTimers := ?_
      ownsTimers := fun gen member => (done.fresh gen member).ownsTimers
      txPkts := burst ▸ sound.txPkts }, burst⟩
    show (resetStats input.resetErr middle).cntTimers = _
    rw [timers, done.cntTimers, sound.cntTimers, sound.empty idle]
    exact UInt32.zero_add _

theorem stopGeneration_sound (env : Env) (sound : manager.Sound) :
    (stopGeneration env manager).Sound ∧
      (stopGeneration env manager).ops.txPkts = manager.ops.txPkts := by
  obtain ⟨aborted, -, result⟩ := stopGeneration_eq env manager sound.ownsTimers
  rw [result]
  refine ⟨{
    idle := fun _ => rfl
    cntTimers := ?_
    ownsTimers := fun _ member => absurd member List.not_mem_nil
    txPkts := sound.txPkts }, rfl⟩
  show manager.ops.cntTimers - _ = _
  rw [sound.cntTimers]
  exact UInt32.sub_self _

/-- The handlers keep the invariant and the burst. -/
theorem onIncMsg_sound (env : Env) (input : StartIn) (msg : ReqMsg) (sound : manager.Sound) :
    (onIncMsg env input manager msg).Sound ∧
      (onIncMsg env input manager msg).ops.txPkts = manager.ops.txPkts := by
  cases msg with
  | startGeneration cfg => exact onStartGeneration_sound env input cfg sound
  | stopGeneration =>
    obtain ⟨stopped, txPkts⟩ := stopGeneration_sound env sound
    exact ⟨stopped.congr rfl rfl rfl rfl, txPkts⟩
  | statsReport => exact ⟨sound.congr rfl rfl rfl rfl, rfl⟩

theorem flush_sound (tx : TxAnswer) (sound : manager.Sound) : (manager.flush tx).Sound where
  idle := sound.idle
  cntTimers := (flushTxPkts_frame tx manager.ops).1.trans sound.cntTimers
  ownsTimers := sound.ownsTimers
  txPkts := by
    show (flushTxPkts tx manager.ops).txPkts.length < _
    rw [flushTxPkts_txPkts]
    exact Nat.succ_pos _

theorem receive_sound (cnt : ℕ) (sound : manager.Sound) :
    GenManager.Sound { manager with ops := receiveRxPkts cnt manager.ops } :=
  sound.congr rfl rfl rfl rfl

/-- The part up to the timers keeps the invariant; the timers run only when it says so. -/
theorem beforeTimers_sound (env : Env) (input : TickIn) (sound : manager.Sound)
    (quiet : manager.ops.txPkts = []) :
    (beforeTimers env input manager).2.Sound ∧
      (beforeTimers env input manager).2.ops.txPkts = [] ∧
      ((beforeTimers env input manager).1 = true →
        (beforeTimers env input manager).2.genCycles ≠ none) := by
  have received := receive_sound input.rx sound
  rcases beforeTimers_cases env input manager with
    ⟨-, aborted, -, result⟩ | ⟨-, result⟩ | ⟨started, result⟩ | ⟨-, result⟩ <;> rw [result]
  · exact ⟨received.congr rfl rfl rfl rfl, quiet, by simp⟩
  · exact ⟨flush_sound input.tx (stopGeneration_sound env received).1, flushTxPkts_txPkts _ _,
      by simp⟩
  · exact ⟨received.congr rfl rfl rfl rfl, quiet, fun _ => started⟩
  · exact ⟨flush_sound input.tx received, flushTxPkts_txPkts _ _, by simp⟩

/-- Replacing an item replaces its summand. -/
theorem sum_set {Item : Type} {items : List Item} (count : Item → ℕ) {pos : ℕ} {before : Item}
    (after : Item) (found : items[pos]? = some before) :
    ((items.set pos after).map count).sum + count before = (items.map count).sum + count after := by
  induction items generalizing pos with
  | nil => exact absurd found (by simp)
  | cons first rest inductionHypothesis =>
    cases pos with
    | zero =>
      obtain rfl := Option.some.inj found
      rw [List.set_cons_zero, List.map_cons, List.map_cons, List.sum_cons, List.sum_cons]
      omega
    | succ pos =>
      have step := inductionHypothesis found
      rw [List.set_cons_succ, List.map_cons, List.map_cons, List.sum_cons, List.sum_cons]
      omega

/-- Replacing one flow keeps the number of flows. -/
theorem totalFlows_set {gens : List FlowsGenerator} {pos : ℕ} {gen gen' : FlowsGenerator}
    (found : gens[pos]? = some gen) (same : gen'.flows.length = gen.flows.length) :
    totalFlows (gens.set pos gen') = totalFlows gens := by
  have sums := sum_set (fun gen : FlowsGenerator => gen.flows.length) gen' found
  rw [same] at sums
  exact Nat.add_right_cancel sums

/-- A timer callback keeps the invariant. -/
theorem fire_sound {pos flow : ℕ} {event : EventIn} {next : GenManager} (sound : manager.Sound)
    (run : manager.fire env pos flow event = some next) :
    next.Sound ∧ next.genCycles = manager.genCycles := by
  obtain ⟨gen, fl, found, flowFound, armed, rfl⟩ := fire_eq_some.mp run
  rw [onFlowEvent_eq gen event flowFound manager.ops]
  have frame := emitPkt_frame env gen event (gen.advanced fl) manager.ops
  have owns := sound.ownsTimers gen (List.mem_of_getElem? found)
  refine ⟨{
    idle := fun idle => ?_
    cntTimers := ?_
    ownsTimers := fun other member => ?_
    txPkts := frame.txPkts sound.txPkts }, rfl⟩
  · have none : manager.generators = [] := sound.idle idle
    rw [none] at found
    exact absurd found (by simp)
  · refine frame.cntTimers.trans (sound.cntTimers.trans (congrArg _ (Eq.symm ?_)))
    exact totalFlows_set found (List.length_set ..)
  · rcases List.mem_or_eq_of_mem_set member with before | rfl
    · exact sound.ownsTimers other before
    · intro flow' among
      rcases List.mem_or_eq_of_mem_set among with before | rfl
      · exact owns flow' before
      · rw [emitPkt_event, advanced_event, fired, Option.isSome_map]
        exact owns fl (List.mem_of_getElem? flowFound)

/-- Every step keeps the invariant. -/
theorem GenState.Sound.step {state next : GenState} {label : GenLabel} (sound : state.Sound)
    (step : (genMachine env).step state label = some next) : next.Sound := by
  cases (genStep_spec step).2 with
  | dequeue manager msgs batch =>
    exact ⟨sound.manager, fun _ => sound.quiet (by simp), by simp⟩
  | handle manager msg rest input =>
    obtain ⟨handled, txPkts⟩ := onIncMsg_sound env input msg.msg sound.manager
    exact ⟨handled, fun _ => txPkts.trans (sound.quiet (by simp)), by simp⟩
  | tick manager input =>
    obtain ⟨ticked, txPkts, started⟩ :=
      beforeTimers_sound env input sound.manager (sound.quiet (by simp))
    refine ⟨ticked, fun _ => txPkts, fun place => started ?_⟩
    by_contra idle
    exact absurd place (by simp [idle])
  | fire manager next pos flow event run =>
    obtain ⟨fired, genCycles⟩ := fire_sound sound.manager run
    exact ⟨fired, fun place => absurd rfl place, fun _ => genCycles ▸ sound.started rfl⟩
  | flush manager tx =>
    exact ⟨flush_sound tx sound.manager, fun _ => flushTxPkts_txPkts tx manager.ops, by simp⟩
  | nic manager place stats =>
    exact ⟨sound.manager.congr rfl rfl rfl rfl, sound.quiet, sound.started⟩

/-- Every reachable state meets the invariant. -/
theorem GenState.sound_of_run {workingDir : String} {labels : List GenLabel} {state : GenState}
    (run : (genMachine env).run (GenState.init workingDir) labels = some state) : state.Sound :=
  (genMachine env).run_invariant GenState.Sound
    (fun _ _ _ sound step => GenState.Sound.step sound step) (GenState.sound_init workingDir) run

/-! ### Aborts -/

theorem onStartGeneration_aborted (env : Env) (input : StartIn) (cfg : GenConfig)
    (sound : manager.Sound) :
    env.MayAbort manager.ops.aborted (onStartGeneration env input cfg manager).ops.aborted := by
  cases onStartGeneration_cases env input cfg manager sound.empty with
  | refused started result =>
    rw [result]
    exact Env.MayAbort.refl _
  | failed thrown middle idle undone result =>
    rw [result]
    exact undone.aborted
  | begun gens middle idle built done result =>
    rw [result]
    exact done.aborted.trans ((Env.MayAbort.enforce _ true).trans (Env.MayAbort.enforce _ true))

/-- The handlers do not undo an abort, and do not abort when `TG_ENFORCE` is a no-op. -/
theorem onIncMsg_aborted (env : Env) (input : StartIn) (msg : ReqMsg) (sound : manager.Sound) :
    env.MayAbort manager.ops.aborted (onIncMsg env input manager msg).ops.aborted := by
  cases msg with
  | startGeneration cfg => exact onStartGeneration_aborted env input cfg sound
  | stopGeneration =>
    obtain ⟨aborted, may, result⟩ := stopGeneration_eq env manager sound.ownsTimers
    rw [onIncMsg, onStopGeneration, result]
    exact may
  | statsReport => exact Env.MayAbort.refl _

theorem beforeTimers_aborted (env : Env) (input : TickIn) (sound : manager.Sound) :
    env.MayAbort manager.ops.aborted (beforeTimers env input manager).2.ops.aborted := by
  have received := receive_sound input.rx sound
  rcases beforeTimers_cases env input manager with
    ⟨-, aborted, may, result⟩ | ⟨-, result⟩ | ⟨-, result⟩ | ⟨-, result⟩ <;> rw [result]
  · exact may
  · obtain ⟨aborted, may, stopped⟩ := stopGeneration_eq env _ received.ownsTimers
    rw [stopped]
    show env.MayAbort _ (flushTxPkts _ _).aborted
    rw [(flushTxPkts_frame _ _).2.2.2.2.1]
    exact may
  · exact Env.MayAbort.refl _
  · show env.MayAbort _ (flushTxPkts _ _).aborted
    rw [(flushTxPkts_frame _ _).2.2.2.2.1]
    exact Env.MayAbort.refl _

theorem fire_aborted {pos flow : ℕ} {event : EventIn} {next : GenManager}
    (run : manager.fire env pos flow event = some next) :
    env.MayAbort manager.ops.aborted next.ops.aborted := by
  obtain ⟨gen, fl, -, flowFound, -, rfl⟩ := fire_eq_some.mp run
  rw [onFlowEvent_eq gen event flowFound manager.ops]
  exact (emitPkt_frame env gen event (gen.advanced fl) manager.ops).aborted

/-! ### The calls of `process_events` -/

/-- Any part of a process that has not aborted is a step of the machine. -/
theorem step_part {state next : GenState} {label : GenLabel}
    (alive : state.manager.ops.aborted = false) (part : genPart env state label = some next) :
    (genMachine env).step state label = some next := by
  show genStep env state label = _
  rw [genStep, alive, if_neg Bool.false_ne_true, part]

theorem reachable_part {state next : GenState} (label : GenLabel)
    (alive : state.manager.ops.aborted = false) (part : genPart env state label = some next) :
    (genMachine env).Reachable state next :=
  Machine.Reachable.tail _ (Machine.Reachable.refl _ state) (step_part alive part)

theorem handle_reachable (noop : env.EnforceNoop) (msgs : List (Tagged ReqMsg × StartIn))
    (sound : manager.Sound) (alive : manager.ops.aborted = false) :
    let handled := msgs.foldl (fun manager msg => onIncMsg env msg.2 manager msg.1.msg) manager
    (genMachine env).Reachable ⟨manager, .handling (msgs.map Prod.fst)⟩ ⟨handled, .handling []⟩ ∧
      handled.Sound ∧ handled.ops.aborted = false ∧ handled.ops.txPkts = manager.ops.txPkts := by
  induction msgs generalizing manager with
  | nil => exact ⟨Machine.Reachable.refl _ _, sound, alive, rfl⟩
  | cons msg rest inductionHypothesis =>
    obtain ⟨handled, txPkts⟩ := onIncMsg_sound env msg.2 msg.1.msg sound
    have stillAlive := ((onIncMsg_aborted env msg.2 msg.1.msg sound).noop noop).trans alive
    obtain ⟨reachable, final, finalAlive, finalTxPkts⟩ := inductionHypothesis handled stillAlive
    exact ⟨(reachable_part (.handle msg.2) alive rfl).trans _ reachable, final, finalAlive,
      finalTxPkts.trans txPkts⟩

theorem runTimers_reachable (noop : env.EnforceNoop) (expirations : List Expiration)
    (alive : manager.ops.aborted = false) :
    (genMachine env).Reachable ⟨manager, .timers⟩ ⟨runTimers env expirations manager, .timers⟩ ∧
      (runTimers env expirations manager).ops.aborted = false := by
  induction expirations generalizing manager with
  | nil => exact ⟨Machine.Reachable.refl _ _, alive⟩
  | cons expiration rest inductionHypothesis =>
    rw [runTimers, List.foldl_cons]
    cases run : manager.fire env expiration.pos expiration.flow expiration.event with
    | none => exact inductionHypothesis alive
    | some next =>
      obtain ⟨reachable, finalAlive⟩ :=
        inductionHypothesis (((fire_aborted run).noop noop).trans alive)
      have fired : (genMachine env).Reachable ⟨manager, .timers⟩ ⟨next, .timers⟩ :=
        reachable_part (.fire expiration.pos expiration.flow expiration.event) alive
          (congrArg (Option.map fun manager => (⟨manager, .timers⟩ : GenState)) run)
      exact ⟨fired.trans _ reachable, finalAlive⟩

/-- A call of `process_events` is a run of the machine. -/
theorem processEvents_reachable (noop : env.EnforceNoop) (call : Call)
    (sound : GenState.Sound ⟨manager, .idle⟩) (alive : manager.ops.aborted = false) :
    (genMachine env).Reachable ⟨manager, .idle⟩ ⟨processEvents env call manager, .idle⟩ := by
  obtain ⟨handling, handled, handledAlive, txPkts⟩ :=
    handle_reachable noop call.msgs sound.manager alive
  have dequeued : (genMachine env).Reachable ⟨manager, .idle⟩
      ⟨manager, .handling (call.msgs.map Prod.fst)⟩ := by
    refine reachable_part (.dequeue (call.msgs.map Prod.fst)) alive (if_pos ?_)
    rw [List.length_map]
    exact call.batch
  have ticked : (genMachine env).Reachable ⟨_, .handling []⟩ ⟨_, _⟩ :=
    reachable_part (.tick call.tick) handledAlive rfl
  have tickedAlive := ((beforeTimers_aborted env call.tick handled).noop noop).trans handledAlive
  refine (dequeued.trans _ handling).trans _ (ticked.trans _ ?_)
  rw [processEvents]
  dsimp only
  split
  · obtain ⟨timers, timersAlive⟩ := runTimers_reachable noop call.expirations tickedAlive
    exact timers.trans _ (reachable_part (.flush call.tx) timersAlive rfl)
  · exact Machine.Reachable.refl _ _

/-! ### Starting the sample capture -/

/-- The file once its header is read. -/
def sampleAfterHdr : File := { sampleFile with data := sampleFile.data.drop 24 }

/-- Loading the packet of the sample capture. -/
theorem sample_loadPkt (ops : Ops) :
    ∃ ops' : Ops, loadPkt (sampleEnv samplePool) ops sampleAfterHdr =
      (.ok ⟨0, ops.pool.attempts⟩, ops', { data := [] }) ∧
      (ops'.pool.mbufs ops.pool.attempts).data = samplePacket := by
  have read : fread pcapPktHdrSize sampleAfterHdr =
    (some [0, 0, 0, 0, 0, 0, 0, 0, 34, 0, 0, 0, 34, 0, 0, 0], { data := samplePacket }) := by rfl
  have alloc : allocMbuf (sampleEnv samplePool) ops = (some ops.pool.attempts, { ops with
      pool := { ops.pool with
        mbufs := Function.update ops.pool.mbufs ops.pool.attempts { tailroom := 2048 }
        attempts := ops.pool.attempts + 1 } }) := rfl
  have packet : fread 34 { data := samplePacket } = (some samplePacket, { data := [] }) := rfl
  rw [loadPkt, read]
  dsimp only
  rw [if_neg (by decide), alloc]
  dsimp only
  rw [show hostNumAt [0, 0, 0, 0, 0, 0, 0, 0, 34, 0, 0, 0, 34, 0, 0, 0] 8 4 = 33 + 1 from rfl,
    loadSegments, if_neg (by decide)]
  dsimp only
  rw [Function.update_self, show min (33 + 1) (2048 : UInt16).toNat = 34 from rfl, packet]
  dsimp only
  rw [show 33 + 1 - 34 = 0 from rfl, show (33 : ℕ) = 32 + 1 from rfl, loadSegments, if_pos rfl]
  refine ⟨_, rfl, ?_⟩
  simp [fillSegment, MbufPool.modify]

/-- The sample packet passes the checks of `load_pkts`. -/
theorem sample_preparePkt (cfg : FlowsGeneratorConfig) (noPort : cfg.clnPort = none) {mbuf : Mbuf}
    (data : mbuf.data = samplePacket) :
    ∃ prepared, preparePkt (sampleEnv samplePool) cfg none mbuf = .ok prepared := by
  have ether : readHdr etherHdrLen mbuf 0 = some 0 := by
    rw [readHdr, data]
    rfl
  have proto : mbuf.bigAt16 (0 + 12) = etherTypeIpv4 := by
    rw [Mbuf.bigAt16, Mbuf.byteAt, Mbuf.byteAt, data]
    rfl
  have ipv4 : readHdr ipv4HdrSize mbuf (0 + etherHdrLen) = some 14 := by
    rw [readHdr, data]
    rfl
  rw [preparePkt, ether]
  dsimp only
  rw [if_neg (not_not_intro proto), ipv4, noPort]
  exact ⟨_, rfl⟩

/-- Loading the sample capture succeeds in every state. -/
theorem sample_loadPkts (cfg : FlowsGeneratorConfig) (noPort : cfg.clnPort = none) (ops : Ops) :
    ∃ pkt ops', loadPkts (sampleEnv samplePool) cfg ops = (.ok [pkt], ops') := by
  obtain ⟨loaded, first, data⟩ := sample_loadPkt ops
  have last : loadPkt (sampleEnv samplePool) loaded { data := [] } =
    (.error 0, loaded, { data := [], eof := true }) := rfl
  obtain ⟨⟨addr, fromCln, mbuf⟩, prepared⟩ := sample_preparePkt cfg noPort data
  rw [loadPkts, show openTcap (sampleEnv samplePool) cfg.capFpath = .ok sampleAfterHdr from rfl]
  dsimp only
  rw [show sampleAfterHdr.data.length + 1 = 49 + 1 + 1 from rfl, loadLoop, first]
  dsimp only
  rw [loadLoop, last]
  dsimp only
  rw [if_pos rfl, addPkt, List.nil_append]
  dsimp only
  rw [prepareLoop, prepared]
  dsimp only
  rw [prepareLoop]
  exact ⟨_, _, rfl⟩

/-- A generator over the sample capture is built in every state, with as many flows as asked
for. -/
theorem sample_construct (cfg : FlowsGeneratorConfig) (noPort : cfg.clnPort = none)
    (fits : flowTscStep 1000000 cfg.flowsPerSec.toNat ≠ 0) (ops : Ops) :
    ∃ gen ops', FlowsGenerator.construct (sampleEnv samplePool) cfg ops = (.ok gen, ops') ∧
      gen.flows.length = cfg.flowsPerSec.toNat := by
  obtain ⟨pkt, loaded, result⟩ := sample_loadPkts cfg noPort ops
  have hz : (sampleEnv samplePool).hz = 1000000 := rfl
  obtain ⟨aborted, -, built⟩ := FlowsGenerator.construct_loaded result
    (by rwa [hz, withFlows_length])
  refine ⟨_, _, built, ?_⟩
  rw [FlowsGenerator.withEvents, armed_length, withFlows_length]

/-- A start request with the sample capture any number of times succeeds. -/
theorem sample_createGens (flowsPerSec : UInt32)
    (limits : 1 ≤ flowsPerSec ∧ flowsPerSec ≤ 1000000)
    (fits : flowTscStep 1000000 flowsPerSec.toNat ≠ 0) (count : ℕ) (idx : UInt32)
    (gens : List FlowsGenerator) (ops : Ops) :
    ∃ more ops', createGens (sampleEnv samplePool) "" sampleAddr idx
        (List.replicate count (sampleFlows flowsPerSec limits)) gens ops = (.ok more, ops') ∧
      totalFlows more = totalFlows gens + count * flowsPerSec.toNat := by
  induction count generalizing idx gens ops with
  | zero => exact ⟨gens, ops, rfl, by rw [Nat.zero_mul, Nat.add_zero]⟩
  | succ count inductionHypothesis =>
    obtain ⟨gen, built, result, length⟩ := sample_construct
      (generatorConfig (sampleEnv samplePool) "" sampleAddr idx (sampleFlows flowsPerSec limits))
      rfl fits ops
    obtain ⟨more, last, rest, total⟩ := inductionHypothesis (idx + 1) (gens ++ [gen]) built
    refine ⟨more, last, ?_, ?_⟩
    · rw [List.replicate_succ, createGens, result]
      exact rest
    · rw [total, totalFlows_append, totalFlows_singleton, length, Nat.succ_mul]
      show _ + flowsPerSec.toNat + _ = _
      omega

/-- A tick at the very time a generation starts only transmits. -/
theorem sample_tick {answers : PoolAnswers} {manager : GenManager} {duration : Cycles}
    (genCycles : manager.genCycles = some ⟨0, duration⟩) (prevCycles : manager.prevCycles = 0) :
    beforeTimers (sampleEnv answers) {} manager =
      (false, ({ manager with ops := receiveRxPkts 0 manager.ops }).flush TxAnswer.all) := by
  have running : ¬ (0 : Cycles) - 0 > duration := UInt64.not_lt_zero
  have early : ¬ (0 : Cycles) - 0 ≥ Cycles.fromDuration 1000000 .microseconds 1 := by decide
  rw [beforeTimers]
  dsimp only
  rw [genCycles]
  dsimp only
  rw [if_neg running, prevCycles]
  exact if_neg early

/-- A generation that starts with the generators it can build, and a tick at that very time. -/
theorem sample_begin {answers : PoolAnswers} {caps : List FlowsConfig}
    {gens : List FlowsGenerator} {built : Ops}
    (result : createGens (sampleEnv answers) "" sampleAddr 0 caps [] {} = (.ok gens, built)) :
    ∃ manager ticked : GenManager,
      (genMachine (sampleEnv answers)).step
          ⟨{}, .handling [⟨none, .startGeneration (sampleCfg caps)⟩]⟩ (.handle {}) =
        some ⟨manager, .handling []⟩ ∧
      (genMachine (sampleEnv answers)).step ⟨manager, .handling []⟩ (.tick {}) =
        some ⟨ticked, .idle⟩ ∧
      manager.generationStarted = true ∧ ticked.generationStarted = true ∧
      ticked.ops.aborted = false ∧ ticked.generators = gens := by
  have done : Built (sampleEnv answers) {} built gens := createGens_spec (Built.refl {}) result
  have started := onStartGeneration_built {} (sampleCfg caps) {} rfl rfl result
  obtain ⟨manager, handled⟩ : ∃ manager, manager =
      onStartGeneration (sampleEnv answers) {} (sampleCfg caps) {} := ⟨_, rfl⟩
  have stillAlive : manager.ops.aborted = false := by
    rw [handled, started]
    show (built.aborted || false || false) = false
    rw [done.aborted.noop rfl]
    rfl
  have genCycles : manager.genCycles =
      some ⟨0, Cycles.fromDuration 1000000 .milliseconds 1000⟩ := by
    rw [handled, started]
    rfl
  have prevCycles : manager.prevCycles = 0 := by rw [handled, started]
  have running : manager.generationStarted = true := by
    rw [GenManager.generationStarted, genCycles]
    rfl
  refine ⟨manager, ({ manager with ops := receiveRxPkts 0 manager.ops }).flush TxAnswer.all, ?_,
    ?_, running, running, ?_, ?_⟩
  · rw [handled]
    rfl
  · have part : genPart (sampleEnv answers) ⟨manager, .handling []⟩ (.tick {}) =
        some ⟨(beforeTimers (sampleEnv answers) {} manager).2,
          if (beforeTimers (sampleEnv answers) {} manager).1 then .timers else .idle⟩ := rfl
    rw [sample_tick genCycles prevCycles] at part
    exact step_part stillAlive part
  · exact (flushTxPkts_frame TxAnswer.all (receiveRxPkts 0 manager.ops)).2.2.2.2.1.trans stillAlive
  · show manager.generators = gens
    rw [handled, started]

/-- A call of `process_events` that starts the generators it can build, and does nothing
else. -/
theorem sample_start {answers : PoolAnswers} {caps : List FlowsConfig}
    {gens : List FlowsGenerator} {built : Ops}
    (result : createGens (sampleEnv answers) "" sampleAddr 0 caps [] {} = (.ok gens, built)) :
    ∃ state, (genMachine (sampleEnv answers)).run (GenState.init "")
        [.dequeue [⟨none, .startGeneration (sampleCfg caps)⟩], .handle {}, .tick {}] = some state ∧
      state.place = .idle ∧ state.manager.generators = gens := by
  obtain ⟨manager, ticked, handle, tick, -, -, -, generators⟩ := sample_begin result
  have dequeue : (genMachine (sampleEnv answers)).step (GenState.init "")
      (.dequeue [⟨none, .startGeneration (sampleCfg caps)⟩]) =
        some ⟨{}, .handling [⟨none, .startGeneration (sampleCfg caps)⟩]⟩ := rfl
  refine ⟨⟨ticked, .idle⟩, ?_, rfl, generators⟩
  rw [Machine.run_cons, dequeue, Option.bind_some, Machine.run_cons, handle, Option.bind_some,
    Machine.run_cons, tick, Option.bind_some, Machine.run_nil]

/-! ### The invariant of every run -/

/-- In every run, after every call of `process_events`: without a generation there are no
generators, the scheduler counts the flows of all generators (in 32 bits), and nothing waits
for transmission. At every point inside a call fewer than 64 packets wait, so pushing one more
makes at most 64, and `send_pkt` leaves fewer than that. -/
theorem manager_invariant (env : Env) (workingDir : String) {labels : List GenLabel}
    {state : GenState}
    (run : (genMachine env).run (GenState.init workingDir) labels = some state) :
    (state.place = .idle →
      (state.manager.genCycles = none → state.manager.generators = []) ∧
      state.manager.ops.cntTimers.toNat = totalFlows state.manager.generators % 2 ^ 32 ∧
      (state.manager.genCycles = none → state.manager.ops.cntTimers = 0) ∧
      state.manager.ops.txPkts = []) ∧
    state.manager.ops.txPkts.length < cntBurstPkts ∧
    ∀ tx pkt, (pushTxPkt pkt state.manager.ops).txPkts.length ≤ cntBurstPkts ∧
      (sendPkt tx pkt state.manager.ops).txPkts.length < cntBurstPkts := by
  have sound := GenState.sound_of_run run
  refine ⟨fun place => ⟨sound.manager.idle, ?_, fun idle => ?_, sound.quiet ?_⟩,
    sound.manager.txPkts, fun tx pkt => ⟨?_, sendPkt_txPkts_length tx pkt sound.manager.txPkts⟩⟩
  · rw [sound.manager.cntTimers, UInt32.toNat_ofNat']
  · rw [sound.manager.cntTimers, sound.manager.idle idle]
    rfl
  · rw [place]
    simp
  · rw [pushTxPkt_txPkts, List.length_append, List.length_singleton]
    exact sound.manager.txPkts

/-- Two captures of three flows each are started: six timers. -/
theorem manager_invariant_sixFlows : ∃ labels state,
    (genMachine (sampleEnv samplePool)).run (GenState.init "") labels = some state ∧
      totalFlows state.manager.generators = 6 ∧
      state.manager.ops.cntTimers.toNat = totalFlows state.manager.generators % 2 ^ 32 ∧
      state.manager.ops.txPkts = [] := by
  obtain ⟨gens, built, result, total⟩ := sample_createGens 3 (by decide) (by decide) 2 0 [] {}
  obtain ⟨state, run, place, generators⟩ := sample_start result
  obtain ⟨-, cntTimers, -, txPkts⟩ := (manager_invariant (sampleEnv samplePool) "" run).1 place
  exact ⟨_, state, run, generators ▸ total, cntTimers, txPkts⟩

/-- The count of the timers is a 32-bit number: with 4295 captures of a million flows each it is
not the number of flows. -/
theorem manager_timers_wrap : ∃ labels state,
    (genMachine (sampleEnv samplePool)).run (GenState.init "") labels = some state ∧
      state.place = .idle ∧
      state.manager.ops.cntTimers.toNat ≠ totalFlows state.manager.generators := by
  obtain ⟨gens, built, result, total⟩ :=
    sample_createGens 1000000 (by decide) (by decide) 4295 0 [] {}
  obtain ⟨state, run, place, generators⟩ := sample_start result
  refine ⟨_, state, run, place, ?_⟩
  rw [(GenState.sound_of_run run).manager.cntTimers, generators, total, UInt32.toNat_ofNat']
  decide

end TrafficGenerator
