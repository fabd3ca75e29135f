/-
This file is about one flow replaying its capture: whether its timer stays
pending, which packet each of its events emits, and when.

Between events nothing else touches a generator, so the runs of a generator are
sequences of the events of its flows, each meeting the rest of the manager in
any state. `generator_replays` says that this is what a generator does in a run
of the whole manager.
-/

import TrafficGenerator.GenInvariant

namespace TrafficGenerator

variable {env : Env}

/-! ### Whether the flows stay pending -/

/-- The event of every flow is pending. -/
def GenState.AllPending (state : GenState) : Prop :=
  ∀ gen ∈ state.manager.generators, ∀ flow ∈ gen.flows, flow.event.armed = true

/-- The pool has a buffer for the copy a timer callback makes. -/
def CopySucceeds (env : Env) (state : GenState) : GenLabel → Prop
  | .fire pos flow _ => ∀ gen fl, state.manager.generators[pos]? = some gen →
      gen.flows[flow]? = some fl →
      (copyPkt env (pktAt gen.pkts (gen.advanced fl).pktIdx).mbuf state.manager.ops).1.isSome
  | _ => True

/-- A handler leaves the generators alone, or destroys them, or brings in new ones. -/
theorem onIncMsg_generators (env : Env) (input : StartIn) (msg : ReqMsg) {manager : GenManager}
    (sound : manager.Sound) :
    (onIncMsg env input manager msg).generators = manager.generators ∨
      ∀ gen ∈ (onIncMsg env input manager msg).generators, gen.Fresh := by
  cases msg with
  | startGeneration cfg =>
    rw [onIncMsg]
    cases onStartGeneration_cases env input cfg manager sound.empty with
    | refused started result =>
      rw [result]
      exact Or.inl rfl
    | failed thrown middle idle undone result =>
      rw [result]
      exact Or.inl rfl
    | begun gens middle idle built done result =>
      rw [result]
      exact Or.inr done.fresh
  | stopGeneration => exact Or.inr fun gen member => absurd member List.not_mem_nil
  | statsReport => exact Or.inl rfl

/-- So does the part up to the timers, which brings in none. -/
theorem beforeTimers_generators (env : Env) (input : TickIn) (manager : GenManager) :
    (beforeTimers env input manager).2.generators = manager.generators ∨
      (beforeTimers env input manager).2.generators = [] := by
  rcases beforeTimers_cases env input manager with
    ⟨-, aborted, -, result⟩ | ⟨-, result⟩ | ⟨-, result⟩ | ⟨-, result⟩ <;> rw [result]
  · exact Or.inl rfl
  · exact Or.inr rfl
  · exact Or.inl rfl
  · exact Or.inl rfl

/-- After the callback the timer is pending exactly when there was a buffer for the copy. -/
theorem emitPkt_armed (env : Env) (gen : FlowsGenerator) (event : EventIn) (fl : Flow)
    (owns : fl.event.isSome) (ops : Ops) :
    (gen.emitPkt env event (gen.advanced fl) ops).1.event.armed =
      (copyPkt env (pktAt gen.pkts (gen.advanced fl).pktIdx).mbuf ops).1.isSome := by
  obtain ⟨timer, has⟩ := Option.isSome_iff_exists.mp owns
  rw [emitPkt_flow]
  dsimp only
  rw [advanced_event, has]
  split
  · next copied => exact copied.symm
  · next refused => exact ((Bool.not_eq_true _).mp refused).symm

/-- A step keeps every flow pending if it is no callback that misses its copy. -/
theorem GenState.AllPending.step {state next : GenState} {label : GenLabel} (sound : state.Sound)
    (pending : state.AllPending) (copies : CopySucceeds env state label)
    (step : (genMachine env).step state label = some next) : next.AllPending := by
  cases (genStep_spec step).2 with
  | dequeue manager msgs batch => exact pending
  | handle manager msg rest input =>
    rcases onIncMsg_generators env input msg.msg sound.manager with same | fresh
    · intro gen member
      exact pending gen (same ▸ member)
    · exact fun gen member => (fresh gen member).armed
  | tick manager input =>
    rcases beforeTimers_generators env input manager with same | empty
    · intro gen member
      exact pending gen (same ▸ member)
    · intro gen member
      exact absurd (empty ▸ member) List.not_mem_nil
  | fire manager next pos flow event run =>
    obtain ⟨gen, fl, found, flowFound, armed, rfl⟩ := fire_eq_some.mp run
    rw [onFlowEvent_eq gen event flowFound manager.ops]
    intro other member
    rcases List.mem_or_eq_of_mem_set member with before | rfl
    · exact pending other before
    · intro flow' among
      rcases List.mem_or_eq_of_mem_set among with before | rfl
      · exact pending gen (List.mem_of_getElem? found) flow' before
      · rw [emitPkt_armed env gen event fl (EventHandle.isSome_of_armed armed)]
        exact copies gen fl found flowFound
  | flush manager tx => exact pending
  | nic manager place stats => exact pending

/-- A callback that misses its copy leaves its flow without a pending event. -/
theorem GenState.AllPending.copies {state next : GenState} {label : GenLabel}
    (step : (genMachine env).step state label = some next) (pending : next.AllPending) :
    CopySucceeds env state label := by
  cases (genStep_spec step).2 with
  | fire manager next pos flow event run =>
    intro gen' fl' found' flowFound'
    obtain ⟨gen, fl, found, flowFound, armed, rfl⟩ := fire_eq_some.mp run
    obtain rfl := Option.some.inj (found.symm.trans found')
    obtain rfl := Option.some.inj (flowFound.symm.trans flowFound')
    rw [← emitPkt_armed env gen event fl (EventHandle.isSome_of_armed armed)]
    refine pending (gen.onFlowEvent env event flow manager.ops).1 ?_ _ ?_
    · exact List.mem_set (List.getElem?_eq_some_iff.mp found).1 _
    · rw [onFlowEvent_eq gen event flowFound manager.ops]
      exact List.mem_set (List.getElem?_eq_some_iff.mp flowFound).1 _
  | dequeue | handle | tick | flush | nic => exact trivial

/-- The events of all flows are pending in every state of a run exactly when no callback of the
run misses the buffer for its copy. -/
theorem flows_pending_iff (env : Env) (workingDir : String) (labels : List GenLabel) :
    (genMachine env).AllStates GenState.AllPending (GenState.init workingDir) labels ↔
      (genMachine env).AllSteps (CopySucceeds env) (GenState.init workingDir) labels := by
  constructor
  · intro states
    exact (genMachine env).allSteps_of_allStates GenState.AllPending (CopySucceeds env)
      (fun _ _ _ _ step pending => GenState.AllPending.copies step pending) states
  · intro steps
    have both := (genMachine env).allStates_of_allSteps
      (fun state => state.Sound ∧ state.AllPending) (CopySucceeds env)
      (fun _ _ _ holds copies step =>
        ⟨holds.1.step step, GenState.AllPending.step holds.1 holds.2 copies step⟩)
      ⟨GenState.sound_init workingDir, fun gen member => absurd member List.not_mem_nil⟩ steps
    exact both.imp _ fun _ holds => holds.2

/-- A pool without buffers for copies. -/
def noCopies : PoolAnswers := { samplePool with copy := fun _ _ => none }

/-- A generation with one flow is started and its timer expires. -/
def oneExpiration : List GenLabel :=
  [.dequeue [⟨none, .startGeneration (sampleCfg [oneFlow])⟩], .handle {},
    .tick (tickAt 0 1), .fire 0 0 ⟨0, TxAnswer.all⟩]

/-- One missed copy, and the flow is never heard of again. -/
theorem flow_dies : ¬ (genMachine (sampleEnv noCopies)).AllStates GenState.AllPending
    (GenState.init "") oneExpiration := by
  intro states
  have lost : ((genMachine (sampleEnv noCopies)).run (GenState.init "") oneExpiration).map
      (fun state => state.manager.generators.all fun gen => gen.flows.all fun flow =>
        flow.event.armed) = some false := by
    decide +kernel
  obtain ⟨state, run, unarmed⟩ := Option.map_eq_some_iff.mp lost
  have pending : state.AllPending := states.last _ run
  rw [List.all_eq_true.mpr fun gen member => List.all_eq_true.mpr (pending gen member)] at unarmed
  exact absurd unarmed (by simp)

/-! ### The runs of one generator -/

/-- An event of a flow: its position, what the environment decides, and the rest of the manager
at that moment. -/
structure FlowEvent where
  flow : ℕ
  event : EventIn
  ops : Ops

/-- A flow's event happens when it is pending. -/
def replayStep (env : Env) (gen : FlowsGenerator) (event : FlowEvent) : Option FlowsGenerator :=
  match gen.flows[event.flow]? with
  | none => none
  | some fl =>
    if fl.event.armed then some (gen.onFlowEvent env event.event event.flow event.ops).1 else none

theorem replayStep_eq_some {gen next : FlowsGenerator} {event : FlowEvent} :
    replayStep env gen event = some next ↔
      ∃ fl, gen.flows[event.flow]? = some fl ∧ fl.event.armed = true ∧
        next = (gen.onFlowEvent env event.event event.flow event.ops).1 := by
  rw [replayStep]
  constructor
  · intro step
    split at step
    · exact absurd step (by simp)
    · next fl found =>
      split at step
      · next armed => exact ⟨fl, found, armed, (Option.some.inj step).symm⟩
      · exact absurd step (by simp)
  · rintro ⟨fl, found, armed, rfl⟩
    rw [found]
    exact if_pos armed

/-- One generator as a machine. -/
def replayMachine (env : Env) : Machine FlowsGenerator FlowEvent where
  step := replayStep env

/-- A request that leaves the generation running leaves its generators alone. -/
theorem onIncMsg_same (env : Env) (input : StartIn) (msg : ReqMsg) {manager : GenManager}
    (started : manager.generationStarted = true)
    (still : (onIncMsg env input manager msg).generationStarted = true) :
    (onIncMsg env input manager msg).generators = manager.generators := by
  obtain ⟨res, -, result⟩ := onIncMsg_still env input msg started still
  rw [result]

/-- So does the part up to the timers. -/
theorem beforeTimers_same (env : Env) (input : TickIn) {manager : GenManager}
    (still : (beforeTimers env input manager).2.generationStarted = true) :
    (beforeTimers env input manager).2.generators = manager.generators := by
  rcases beforeTimers_still env input still with ⟨prevCycles, result⟩ | result
  · rw [result]
  · rw [result]
    rfl

/-- While a generation runs, a generator only has the events of its flows. -/
theorem generator_step {state next : GenState} {label : GenLabel} {pos : ℕ} {gen : FlowsGenerator}
    (started : state.manager.generationStarted = true)
    (still : next.manager.generationStarted = true)
    (step : (genMachine env).step state label = some next)
    (found : state.manager.generators[pos]? = some gen) :
    ∃ gen', next.manager.generators[pos]? = some gen' ∧
      (replayMachine env).Reachable gen gen' := by
  have unchanged : next.manager.generators = state.manager.generators →
      ∃ gen', next.manager.generators[pos]? = some gen' ∧
        (replayMachine env).Reachable gen gen' :=
    fun same => ⟨gen, same ▸ found, Machine.Reachable.refl _ gen⟩
  cases (genStep_spec step).2 with
  | fire manager next pos' flow event run =>
    obtain ⟨other, fl, foundOther, flowFound, armed, rfl⟩ := fire_eq_some.mp run
    by_cases same : pos' = pos
    · subst same
      obtain rfl := Option.some.inj (found.symm.trans foundOther)
      refine ⟨_, List.getElem?_set_self (List.getElem?_eq_some_iff.mp found).1, ?_⟩
      have replayed : (replayMachine env).step gen ⟨flow, event, manager.ops⟩ =
          some (gen.onFlowEvent env event flow manager.ops).1 :=
        replayStep_eq_some.mpr ⟨fl, flowFound, armed, rfl⟩
      exact Machine.Reachable.tail _ (Machine.Reachable.refl _ gen) replayed
    · exact ⟨gen, (List.getElem?_set_ne same).trans found, Machine.Reachable.refl _ gen⟩
  | dequeue | flush | nic => exact unchanged rfl
  | handle manager msg rest input =>
    exact unchanged (onIncMsg_same env input msg.msg started still)
  | tick manager input => exact unchanged (beforeTimers_same env input still)

/-- In a run of the whole manager in which the generation keeps running, each generator makes a
run of its own. -/
theorem generator_replays {start final : GenState} {labels : List GenLabel} {pos : ℕ}
    {gen : FlowsGenerator} (found : start.manager.generators[pos]? = some gen)
    (started : (genMachine env).AllStates (fun state => state.manager.generationStarted = true)
      start labels)
    (run : (genMachine env).run start labels = some final) :
    ∃ gen', final.manager.generators[pos]? = some gen' ∧
      (replayMachine env).Reachable gen gen' := by
  refine started.invariant _ (fun state => ∃ gen', state.manager.generators[pos]? = some gen' ∧
    (replayMachine env).Reachable gen gen') (fun state label next replayed running still step => ?_)
    ⟨gen, found, Machine.Reachable.refl _ gen⟩ run
  obtain ⟨middle, foundMiddle, first⟩ := replayed
  obtain ⟨gen', foundNext, second⟩ := generator_step running still step foundMiddle
  exact ⟨gen', foundNext, Machine.Reachable.trans _ first second⟩

/-- A running generation keeps its number of generators. -/
theorem generators_length {start final : GenState} {labels : List GenLabel}
    (started : (genMachine env).AllStates (fun state => state.manager.generationStarted = true)
      start labels)
    (run : (genMachine env).run start labels = some final) :
    final.manager.generators.length = start.manager.generators.length := by
  refine started.invariant _ (fun state =>
    state.manager.generators.length = start.manager.generators.length)
    (fun state label next same running still step => Eq.trans ?_ same) rfl run
  cases (genStep_spec step).2 with
  | fire manager next pos flow event fired =>
    obtain ⟨gen, fl, -, -, -, rfl⟩ := fire_eq_some.mp fired
    exact List.length_set
  | dequeue | flush | nic => rfl
  | handle manager msg rest input =>
    exact congrArg _ (onIncMsg_same env input msg.msg running still)
  | tick manager input => exact congrArg _ (beforeTimers_same env input still)

/-- What one event of a flow shows: the packet it is about, whether the flow took a new pair of
addresses, and how long its timer had been armed. -/
structure Emission where
  pktIdx : UInt32
  newPair : Bool
  delay : Cycles
deriving DecidableEq

/-- The delay a timer is armed with. -/
def EventHandle.delay (event : EventHandle) : Cycles := (event.bind RteTimer.pending).getD 0

/-- The emission of the next event of a flow. -/
def FlowsGenerator.emission (gen : FlowsGenerator) (fl : Flow) : Emission where
  pktIdx := (gen.advanced fl).pktIdx
  newPair := (gen.nextPkt { fl with event := fired fl.event }).1
  delay := fl.event.delay

/-- The event reports the packet of its emission, sent or missed. -/
theorem emission_reported (env : Env) (gen : FlowsGenerator) (event : EventIn) {pos : ℕ}
    {fl : Flow} (found : gen.flows[pos]? = some fl) (ops : Ops) :
    ∃ report, (gen.onFlowEvent env event pos ops).2.outMsgs =
        ops.outMsgs ++ [.generationReport report] ∧
      report.pktIdx = (gen.emission fl).pktIdx ∧
      report.ok = (copyPkt env (pktAt gen.pkts (gen.emission fl).pktIdx).mbuf ops).1.isSome := by
  rw [onFlowEvent_eq gen event found ops]
  exact ⟨_, emitPkt_outMsgs env gen event (gen.advanced fl) ops, rfl, rfl⟩

/-- The emissions of one flow in a run of its generator. -/
def emissions (env : Env) (flow : ℕ) : FlowsGenerator → List FlowEvent → List Emission
  | _, [] => []
  | gen, event :: rest =>
    match replayStep env gen event with
    | none => []
    | some next =>
      if event.flow = flow then
        (gen.flows[flow]?.map gen.emission).toList ++ emissions env flow next rest
      else emissions env flow next rest

/-! ### The order of the packets -/

/-- The index that follows another in a capture of `count` packets. -/
def nextIdx (count : ℕ) (idx : UInt32) : UInt32 := if (idx + 1).toNat = count then 0 else idx + 1

/-- The number of packets a 32-bit index goes through. -/
def replayPeriod (count : ℕ) : ℕ := min count (2 ^ 32)

theorem replayPeriod_pos {count : ℕ} (nonempty : 0 < count) : 0 < replayPeriod count :=
  Nat.lt_min.mpr ⟨nonempty, by decide⟩

theorem nextIdx_toNat {count : ℕ} {idx : UInt32} (below : idx.toNat < replayPeriod count) :
    (nextIdx count idx).toNat = (idx.toNat + 1) % replayPeriod count := by
  have next : (idx + 1).toNat = (idx.toNat + 1) % 2 ^ 32 := UInt32.toNat_add idx 1
  have bound := idx.toNat_lt
  rw [replayPeriod] at *
  rw [nextIdx]
  rcases Nat.lt_or_ge count (2 ^ 32) with small | large
  · rw [Nat.min_eq_left (Nat.le_of_lt small)] at *
    rw [Nat.mod_eq_of_lt (by omega)] at next
    split
    · next last => rw [← next, last, Nat.mod_self]; rfl
    · next more => rw [next, Nat.mod_eq_of_lt (by omega)]
  · rw [Nat.min_eq_right large] at *
    rw [if_neg (by have := (idx + 1).toNat_lt; omega), next]

/-- A flow takes a new pair when the index returns to the first packet, which it does not by
wrapping around. -/
theorem wraps_iff {count : ℕ} {idx : UInt32} (below : idx.toNat < replayPeriod count) :
    (idx + 1).toNat = count ↔ count < 2 ^ 32 ∧ (idx.toNat + 1) % replayPeriod count = 0 := by
  have next : (idx + 1).toNat = (idx.toNat + 1) % 2 ^ 32 := UInt32.toNat_add idx 1
  have bound := (idx + 1).toNat_lt
  rw [replayPeriod] at *
  rcases Nat.lt_or_ge count (2 ^ 32) with small | large
  · rw [Nat.min_eq_left (Nat.le_of_lt small)] at *
    rw [Nat.mod_eq_of_lt (by omega)] at next
    rw [next]
    refine ⟨fun last => ⟨small, by rw [last, Nat.mod_self]⟩, fun ⟨_, wraps⟩ => ?_⟩
    by_contra other
    rw [Nat.mod_eq_of_lt (by omega)] at wraps
    omega
  · omega

theorem advanced_pktIdx (gen : FlowsGenerator) (fl : Flow) :
    (gen.advanced fl).pktIdx = nextIdx gen.pkts.length fl.pktIdx := by
  rw [FlowsGenerator.advanced, FlowsGenerator.nextPkt, nextIdx]
  dsimp only
  split <;> rfl

theorem nextPkt_newPair (gen : FlowsGenerator) (fl : Flow) :
    (gen.nextPkt fl).1 = decide ((fl.pktIdx + 1).toNat = gen.pkts.length) := by
  rw [FlowsGenerator.nextPkt]
  split
  · next last => exact (decide_eq_true last).symm
  · next more => exact (decide_eq_false more).symm

theorem emitPkt_pktIdx (env : Env) (gen : FlowsGenerator) (event : EventIn) (fl : Flow)
    (ops : Ops) : (gen.emitPkt env event fl ops).1.pktIdx = fl.pktIdx := by
  rw [emitPkt_flow]
  rfl

/-- The delay the next event of a flow will have: the relative time stamp of the packet just
emitted. Without a copy there is no next event. -/
theorem emitPkt_delay (env : Env) (gen : FlowsGenerator) (event : EventIn) (fl : Flow)
    (ops : Ops) (armed : (gen.emitPkt env event (gen.advanced fl) ops).1.event.armed = true)
    (owns : fl.event.isSome) :
    (gen.emitPkt env event (gen.advanced fl) ops).1.event.delay =
      (pktAt gen.pkts (gen.advanced fl).pktIdx).relTsc := by
  obtain ⟨timer, has⟩ := Option.isSome_iff_exists.mp owns
  rw [emitPkt_armed env gen event fl owns] at armed
  rw [emitPkt_flow]
  dsimp only
  rw [if_pos armed, advanced_event, has]
  rfl

/-- One event: the generator keeps its packets, and each flow but the one it is about. -/
theorem replayStep_spec {gen next : FlowsGenerator} {event : FlowEvent}
    (step : replayStep env gen event = some next) :
    ∃ fl, gen.flows[event.flow]? = some fl ∧ fl.event.armed = true ∧ next.pkts = gen.pkts ∧
      (∀ flow ≠ event.flow, next.flows[flow]? = gen.flows[flow]?) ∧
      next.flows[event.flow]? =
        some (gen.emitPkt env event.event (gen.advanced fl) event.ops).1 := by
  obtain ⟨fl, found, armed, rfl⟩ := replayStep_eq_some.mp step
  refine ⟨fl, found, armed, ?_⟩
  rw [onFlowEvent_eq gen event.event found event.ops]
  refine ⟨rfl, fun flow other => List.getElem?_set_ne (Ne.symm other), ?_⟩
  exact List.getElem?_set_self (List.getElem?_eq_some_iff.mp found).1

/-- A generator keeps its packets and its number. -/
theorem replay_keeps {gen gen' : FlowsGenerator}
    (replayed : (replayMachine env).Reachable gen gen') :
    gen'.pkts = gen.pkts ∧ gen'.idx = gen.idx := by
  refine replayed.invariant _ (fun later => later.pkts = gen.pkts ∧ later.idx = gen.idx)
    ⟨rfl, rfl⟩ fun earlier event later same step => ?_
  obtain ⟨fl, found, -, rfl⟩ := replayStep_eq_some.mp step
  rw [onFlowEvent_eq earlier event.event found event.ops]
  exact same

/-- The law of the emissions: each is about the next packet, with a new pair when that is the
first one again, and comes with the delay of the packet before it. -/
structure EmissionsFrom (pkts : List Pkt) (idx : UInt32) (delay : Cycles) (log : List Emission) :
    Prop where
  pktIdx : ∀ pos emission, log[pos]? = some emission →
    emission.pktIdx.toNat = (idx.toNat + pos + 1) % replayPeriod pkts.length
  newPair : ∀ pos emission, log[pos]? = some emission → (emission.newPair = true ↔
    pkts.length < 2 ^ 32 ∧ (idx.toNat + pos + 1) % replayPeriod pkts.length = 0)
  first : ∀ emission, log[0]? = some emission → emission.delay = delay
  later : ∀ pos before emission, log[pos]? = some before → log[pos + 1]? = some emission →
    emission.delay = (pktAt pkts before.pktIdx).relTsc

/-- One more emission in front. -/
theorem EmissionsFrom.cons {pkts : List Pkt} {idx : UInt32} {delay later : Cycles}
    {log : List Emission} (below : idx.toNat < replayPeriod pkts.length)
    (law : EmissionsFrom pkts (nextIdx pkts.length idx) later log)
    (delayed : log ≠ [] → later = (pktAt pkts (nextIdx pkts.length idx)).relTsc) :
    EmissionsFrom pkts idx delay ({
      pktIdx := nextIdx pkts.length idx
      newPair := decide ((idx + 1).toNat = pkts.length)
      delay } :: log) := by
  have shifted : ∀ pos, ((nextIdx pkts.length idx).toNat + pos + 1) % replayPeriod pkts.length =
      (idx.toNat + (pos + 1) + 1) % replayPeriod pkts.length := by
    intro pos
    rw [nextIdx_toNat below, Nat.add_assoc, Nat.mod_add_mod]
    congr 1
    omega
  refine { pktIdx := ?_, newPair := ?_, first := ?_, later := ?_ }
  · rintro (_ | pos) emission here
    · obtain rfl := Option.some.inj here
      exact nextIdx_toNat below
    · rw [← shifted]
      exact law.pktIdx pos emission here
  · rintro (_ | pos) emission here
    · obtain rfl := Option.some.inj here
      rw [decide_eq_true_iff]
      exact wraps_iff below
    · rw [← shifted]
      exact law.newPair pos emission here
  · intro emission here
    obtain rfl := Option.some.inj here
    rfl
  · rintro (_ | pos) before emission here after
    · obtain rfl := Option.some.inj here
      rw [law.first emission after]
      refine delayed fun empty => ?_
      rw [empty] at after
      exact absurd after (by simp)
    · exact law.later pos before emission here after

/-- The emissions of a run that takes a first step. -/
theorem emissions_cons {gen next : FlowsGenerator} {event : FlowEvent} (flow : ℕ)
    (rest : List FlowEvent) (step : replayStep env gen event = some next) :
    emissions env flow gen (event :: rest) =
      if event.flow = flow then
        (gen.flows[flow]?.map gen.emission).toList ++ emissions env flow next rest
      else emissions env flow next rest := by
  rw [emissions, step]

/-- A flow that emits is pending. -/
theorem emissions_armed {gen : FlowsGenerator} {flow : ℕ} {fl : Flow} {events : List FlowEvent}
    (found : gen.flows[flow]? = some fl) (emits : emissions env flow gen events ≠ []) :
    fl.event.armed = true := by
  induction events generalizing gen with
  | nil => exact absurd rfl emits
  | cons event rest inductionHypothesis =>
    cases step : replayStep env gen event with
    | none => exact absurd (by rw [emissions, step]) emits
    | some next =>
      obtain ⟨fl', found', armed, -, others, -⟩ := replayStep_spec step
      by_cases same : event.flow = flow
      · rw [same] at found'
        obtain rfl := Option.some.inj (found.symm.trans found')
        exact armed
      · rw [emissions_cons flow rest step, if_neg same] at emits
        exact inductionHypothesis ((others flow (Ne.symm same)).trans found) emits

theorem emissions_law (env : Env) (events : List FlowEvent) {gen : FlowsGenerator} {flow : ℕ}
    {fl : Flow} (nonempty : 0 < gen.pkts.length) (found : gen.flows[flow]? = some fl)
    (below : fl.pktIdx.toNat < replayPeriod gen.pkts.length) :
    EmissionsFrom gen.pkts fl.pktIdx fl.event.delay (emissions env flow gen events) := by
  induction events generalizing gen fl with
  | nil => exact ⟨by simp [emissions], by simp [emissions], by simp [emissions],
      by simp [emissions]⟩
  | cons event rest inductionHypothesis =>
    cases step : replayStep env gen event with
    | none =>
      have empty : emissions env flow gen (event :: rest) = [] := by rw [emissions, step]
      rw [empty]
      exact ⟨by simp, by simp, by simp, by simp⟩
    | some next =>
      obtain ⟨fl', found', armed, pkts, others, self⟩ := replayStep_spec step
      rw [emissions_cons flow rest step]
      by_cases same : event.flow = flow
      · rw [if_pos same, found]
        rw [same] at found' self
        obtain rfl := Option.some.inj (found.symm.trans found')
        have stepBelow : (nextIdx gen.pkts.length fl.pktIdx).toNat <
            replayPeriod gen.pkts.length := by
          rw [nextIdx_toNat below]
          exact Nat.mod_lt _ (replayPeriod_pos nonempty)
        -- the rest of the run starts from the flow the event leaves behind
        have law := inductionHypothesis (by rw [pkts]; exact nonempty) self (by
          rw [pkts, emitPkt_pktIdx, advanced_pktIdx]
          exact stepBelow)
        rw [pkts, emitPkt_pktIdx, advanced_pktIdx] at law
        have first : gen.emission fl = {
            pktIdx := nextIdx gen.pkts.length fl.pktIdx
            newPair := decide ((fl.pktIdx + 1).toNat = gen.pkts.length)
            delay := fl.event.delay } := by
          rw [FlowsGenerator.emission, advanced_pktIdx, nextPkt_newPair]
        rw [Option.map_some, Option.toList_some, List.singleton_append, first]
        refine EmissionsFrom.cons below law fun emits => ?_
        rw [← advanced_pktIdx]
        exact emitPkt_delay env gen event.event fl event.ops (emissions_armed self emits)
          (EventHandle.isSome_of_armed armed)
      · rw [if_neg same]
        have law := inductionHypothesis (by rw [pkts]; exact nonempty)
          ((others flow (Ne.symm same)).trans found) (by rw [pkts]; exact below)
        rwa [pkts] at law

/-- A flow emits once for every event of its own. -/
theorem emissions_length {gen final : FlowsGenerator} {flow : ℕ} {fl : Flow}
    {events : List FlowEvent} (found : gen.flows[flow]? = some fl)
    (run : (replayMachine env).run gen events = some final) :
    (emissions env flow gen events).length = events.countP fun event => event.flow = flow := by
  induction events generalizing gen fl with
  | nil => rfl
  | cons event rest inductionHypothesis =>
    obtain ⟨next, step, run⟩ := ((replayMachine env).run_cons_eq_some).mp run
    obtain ⟨fl', -, -, -, others, self⟩ := replayStep_spec step
    rw [emissions_cons flow rest step]
    by_cases same : event.flow = flow
    · rw [same] at self
      rw [if_pos same, found, List.countP_cons_of_pos (by simpa using same), List.length_append,
        inductionHypothesis self run]
      exact Nat.add_comm _ _
    · rw [if_neg same, List.countP_cons_of_neg (by simpa using same),
        inductionHypothesis ((others flow (Ne.symm same)).trans found) run]

/-! ### A generator just built -/

theorem armed_getElem? (pkts : List Pkt) (step flowTsc : Cycles) (flows : List Flow) (pos : ℕ) :
    (armed pkts step flowTsc flows)[pos]? = flows[pos]?.map fun flow => { flow with
      event := some ⟨some
        (flowTsc + UInt64.ofNat pos * step + (pktAt pkts flow.pktIdx).relTsc)⟩ } := by
  induction flows generalizing flowTsc pos with
  | nil => rfl
  | cons flow rest inductionHypothesis =>
    cases pos with
    | zero =>
      rw [armed, List.getElem?_cons_zero, List.getElem?_cons_zero, Option.map_some,
        show flowTsc + UInt64.ofNat 0 * step = flowTsc by grind]
    | succ pos =>
      rw [armed, List.getElem?_cons_succ, List.getElem?_cons_succ, inductionHypothesis,
        show flowTsc + step + UInt64.ofNat pos * step =
          flowTsc + UInt64.ofNat (pos + 1) * step by rw [UInt64.ofNat_add]; grind]

/-- A flow of a generator just built is at the first packet; its timer is armed with its place
in the second plus the relative time stamp of that packet. -/
theorem withEvents_flow (cfg : FlowsGeneratorConfig) (pkts : List Pkt) (hz : UInt64) {flow : ℕ}
    (among : flow < cfg.flowsPerSec.toNat) :
    ∃ fl, ((FlowsGenerator.withFlows cfg pkts).withEvents hz).flows[flow]? = some fl ∧
      fl.pktIdx = 0 ∧ fl.event.delay = UInt64.ofNat flow *
        flowTscStep hz cfg.flowsPerSec.toNat + (pktAt pkts 0).relTsc := by
  have bound : flow < (FlowsGenerator.withFlows cfg pkts).flows.length := by
    rwa [withFlows_length]
  have start := mem_setupFlows (List.getElem_mem bound)
  have found := armed_getElem? pkts
    (flowTscStep hz (FlowsGenerator.withFlows cfg pkts).flows.length) 0
    (FlowsGenerator.withFlows cfg pkts).flows flow
  rw [List.getElem?_eq_getElem bound, Option.map_some] at found
  refine ⟨_, found, start.2, ?_⟩
  show 0 + _ * flowTscStep hz (FlowsGenerator.withFlows cfg pkts).flows.length +
    (pktAt pkts (FlowsGenerator.withFlows cfg pkts).flows[flow].pktIdx).relTsc = _
  rw [withFlows_length, start.2, UInt64.zero_add]

/-- A replay in order, from the first packet of the capture, with a new pair of addresses when
a second or later pass begins. -/
def InOrder (count : ℕ) (log : List Emission) : Prop :=
  ∀ pos emission, log[pos]? = some emission →
    emission.pktIdx.toNat = pos % count ∧
      (emission.newPair = true ↔ pos ≠ 0 ∧ pos % count = 0)

/-- The code replays in order in no run in which the flow has an event: the index is advanced
before its first use, so the first event is about the second packet, or about the only one with
a pair of addresses that is already the second. -/
theorem replay_inOrder_iff (env : Env) (cfg : FlowsGeneratorConfig) (hz : UInt64)
    (pkts : List Pkt) (nonempty : 0 < pkts.length) (flow : ℕ)
    (among : flow < cfg.flowsPerSec.toNat) {events : List FlowEvent} {final : FlowsGenerator}
    (run : (replayMachine env).run ((FlowsGenerator.withFlows cfg pkts).withEvents hz) events =
      some final) :
    InOrder pkts.length
        (emissions env flow ((FlowsGenerator.withFlows cfg pkts).withEvents hz) events) ↔
      ∀ event ∈ events, event.flow ≠ flow := by
  obtain ⟨fl, found, start, -⟩ := withEvents_flow cfg pkts hz among
  have law : EmissionsFrom pkts fl.pktIdx fl.event.delay _ :=
    emissions_law env events nonempty found (by
      rw [start]
      exact replayPeriod_pos nonempty)
  have length := emissions_length found run
  rw [start] at law
  generalize emissions env flow ((FlowsGenerator.withFlows cfg pkts).withEvents hz) events = log
    at law length ⊢
  constructor
  · intro inOrder event member same
    have emits : 0 < log.length := by
      rw [length, List.countP_pos_iff]
      exact ⟨event, member, decide_eq_true same⟩
    have here := List.getElem?_eq_getElem emits
    obtain ⟨order, pair⟩ := inOrder 0 _ here
    have idx := law.pktIdx 0 _ here
    have newPair := law.newPair 0 _ here
    rw [order] at idx
    -- the first event would be about packet 0 with the first pair of addresses
    have wraps : (0 + 0 + 1) % replayPeriod pkts.length = 0 := by
      rw [Nat.zero_mod] at idx
      exact idx.symm
    have one : replayPeriod pkts.length = 1 := Nat.dvd_one.mp (Nat.dvd_of_mod_eq_zero wraps)
    have small : pkts.length < 2 ^ 32 := by
      rw [replayPeriod] at one
      omega
    exact absurd (pair.mp (newPair.mpr ⟨small, wraps⟩)).1 (by simp)
  · intro none
    have empty : log = [] := by
      rw [← List.length_eq_zero_iff, length, List.countP_eq_zero]
      intro event member
      simpa using none event member
    intro pos emission here
    rw [empty] at here
    exact absurd here (by simp)

/-- Two packets with different gaps. -/
def samplePkts : List Pkt := [⟨100, 0, true⟩, ⟨200, 1, true⟩]

/-- The configuration of a generator with one flow. -/
def sampleGenCfg : FlowsGeneratorConfig :=
  generatorConfig (sampleEnv samplePool) "" sampleAddr 0 oneFlow

/-- That generator over the two packets. -/
def sampleGen : FlowsGenerator :=
  (FlowsGenerator.withFlows sampleGenCfg samplePkts).withEvents 1000000

/-- The event of its flow. -/
def sampleEvent : FlowEvent := ⟨0, ⟨0, TxAnswer.all⟩, {}⟩

theorem sampleGen_runs (events : ℕ) (few : events ≤ 2) : ∃ final, (replayMachine
    (sampleEnv samplePool)).run sampleGen (List.replicate events sampleEvent) = some final := by
  have runs : ∀ events ≤ 2, ((replayMachine (sampleEnv samplePool)).run sampleGen
      (List.replicate events sampleEvent)).isSome = true := by
    decide +kernel
  exact Option.isSome_iff_exists.mp (runs events few)

/-- The first event of a flow is about the second of two packets. -/
theorem replay_skips_first : ¬ InOrder samplePkts.length
    (emissions (sampleEnv samplePool) 0 sampleGen [sampleEvent]) := by
  have log : emissions (sampleEnv samplePool) 0 sampleGen [sampleEvent] = [⟨1, false, 100⟩] := by
    decide +kernel
  intro inOrder
  rw [log] at inOrder
  exact absurd (inOrder 0 _ rfl).1 (by decide)

/-- With two events the condition fails, so the order does. -/
theorem replay_inOrder_twoEvents : InOrder samplePkts.length
      (emissions (sampleEnv samplePool) 0 sampleGen [sampleEvent, sampleEvent]) ↔
    ∀ event ∈ [sampleEvent, sampleEvent], event.flow ≠ 0 := by
  obtain ⟨final, run⟩ := sampleGen_runs 2 (by decide)
  exact replay_inOrder_iff (sampleEnv samplePool) sampleGenCfg 1000000 samplePkts (by decide)
    0 (by decide) run

/-! ### The times of the packets -/

/-- When an emission happens: a timer armed with a delay fires exactly that much later, and it
is armed by the emission before it, the first one when the generation is set up. -/
def emissionTime (log : List Emission) (pos : ℕ) : ℕ :=
  ((log.take (pos + 1)).map fun emission => emission.delay.toNat).sum

/-- The relative time stamp of the packet at a position. -/
def relTscAt (pkts : List Pkt) (pos : ℕ) : ℕ := (pkts.getD pos default).relTsc.toNat

/-- Every packet comes its own relative time stamp after the packet before it, the first one
after the flow's place in the second. -/
structure Spaced (pkts : List Pkt) (offset : ℕ) (log : List Emission) : Prop where
  first : ∀ emission, log[0]? = some emission →
    emissionTime log 0 = offset + relTscAt pkts emission.pktIdx.toNat
  gaps : ∀ pos emission, log[pos + 1]? = some emission →
    emissionTime log (pos + 1) = emissionTime log pos + relTscAt pkts emission.pktIdx.toNat

theorem emissionTime_zero {log : List Emission} {emission : Emission}
    (here : log[0]? = some emission) : emissionTime log 0 = emission.delay.toNat := by
  rw [emissionTime, List.take_add_one, here]
  simp

theorem emissionTime_succ {log : List Emission} {pos : ℕ} {emission : Emission}
    (here : log[pos + 1]? = some emission) :
    emissionTime log (pos + 1) = emissionTime log pos + emission.delay.toNat := by
  rw [emissionTime, List.take_add_one, here, List.map_append, List.sum_append]
  simp [emissionTime]

theorem relTscAt_lt (pkts : List Pkt) (pos : ℕ) : relTscAt pkts pos < 2 ^ 64 := UInt64.toNat_lt _

/-- The packets of a flow are spaced as their relative time stamps say exactly when the flow has
no event, or its first timer fits in 64 bits, and the time stamps that are used in place of
each other are equal. -/
theorem replay_spacing_iff (env : Env) (cfg : FlowsGeneratorConfig) (hz : UInt64)
    (pkts : List Pkt) (nonempty : 0 < pkts.length) (flow : ℕ)
    (among : flow < cfg.flowsPerSec.toNat) {events : List FlowEvent} {final : FlowsGenerator}
    (run : (replayMachine env).run ((FlowsGenerator.withFlows cfg pkts).withEvents hz) events =
      some final) :
    let count := events.countP fun event => event.flow = flow
    let offset := flow * (flowTscStep hz cfg.flowsPerSec.toNat).toNat
    let period := replayPeriod pkts.length
    Spaced pkts offset
        (emissions env flow ((FlowsGenerator.withFlows cfg pkts).withEvents hz) events) ↔
      (count ≠ 0 → offset + relTscAt pkts 0 < 2 ^ 64) ∧
        ∀ pos < count, relTscAt pkts (pos % period) = relTscAt pkts ((pos + 1) % period) := by
  intro count offset period
  obtain ⟨fl, found, start, delay⟩ := withEvents_flow cfg pkts hz among
  have law : EmissionsFrom pkts fl.pktIdx fl.event.delay _ :=
    emissions_law env events nonempty found (by
      rw [start]
      exact replayPeriod_pos nonempty)
  have length : _ = count := emissions_length found run
  rw [start] at law
  generalize emissions env flow ((FlowsGenerator.withFlows cfg pkts).withEvents hz) events = log
    at law length ⊢
  have idx : ∀ pos emission, log[pos]? = some emission →
      relTscAt pkts emission.pktIdx.toNat = relTscAt pkts ((pos + 1) % period) := by
    intro pos emission here
    rw [law.pktIdx pos emission here]
    congr 2
    exact congrArg (· + 1) (Nat.zero_add pos)
  have firstDelay : fl.event.delay.toNat = (offset + relTscAt pkts 0) % 2 ^ 64 := by
    rw [delay, UInt64.toNat_add, UInt64.toNat_mul, UInt64.toNat_ofNat', Nat.mod_mul_mod,
      Nat.mod_add_mod]
    rfl
  -- the delay of every emission but the first is the time stamp of the packet before it
  have laterDelay : ∀ pos emission, log[pos + 1]? = some emission →
      emission.delay.toNat = relTscAt pkts ((pos + 1) % period) := by
    intro pos emission here
    have bound := (List.getElem?_eq_some_iff.mp here).1
    have before := List.getElem?_eq_getElem (Nat.lt_of_succ_lt bound)
    rw [law.later pos _ emission before here, ← idx pos _ before]
    rfl
  have zero := relTscAt_lt pkts 0
  have one := relTscAt_lt pkts (1 % period)
  constructor
  · intro spaced
    have fits : count ≠ 0 → offset + relTscAt pkts 0 < 2 ^ 64 ∧
        relTscAt pkts 0 = relTscAt pkts (1 % period) := by
      intro some
      have here := List.getElem?_eq_getElem (l := log) (i := 0) (by omega)
      have time := spaced.first _ here
      rw [emissionTime_zero here, law.first _ here, firstDelay, idx 0 _ here, Nat.zero_add] at time
      omega
    refine ⟨fun some => (fits some).1, fun pos below => ?_⟩
    cases pos with
    | zero =>
      rw [Nat.zero_mod]
      exact (fits (by omega)).2
    | succ pos =>
      have here := List.getElem?_eq_getElem (l := log) (i := pos + 1) (by omega)
      have time := spaced.gaps pos _ here
      rw [emissionTime_succ here, laterDelay pos _ here, idx (pos + 1) _ here] at time
      exact Nat.add_left_cancel time
  · rintro ⟨fits, equal⟩
    refine { first := fun emission here => ?_, gaps := fun pos emission here => ?_ }
    · have bound := (List.getElem?_eq_some_iff.mp here).1
      have same := equal 0 (by omega)
      have room := fits (by omega)
      rw [Nat.zero_mod, Nat.zero_add] at same
      rw [emissionTime_zero here, law.first _ here, firstDelay, idx 0 _ here, Nat.zero_add, ← same,
        Nat.mod_eq_of_lt room]
    · have bound := (List.getElem?_eq_some_iff.mp here).1
      rw [emissionTime_succ here, laterDelay pos _ here, idx (pos + 1) _ here,
        equal (pos + 1) (by omega)]

/-- The gap before the second packet is the time stamp of the first. -/
theorem replay_misplaces_gap : ¬ Spaced samplePkts 0
    (emissions (sampleEnv samplePool) 0 sampleGen [sampleEvent]) := by
  have log : emissions (sampleEnv samplePool) 0 sampleGen [sampleEvent] = [⟨1, false, 100⟩] := by
    decide +kernel
  intro spaced
  rw [log] at spaced
  exact absurd (spaced.first _ rfl) (by decide)

theorem replay_spacing_twoEvents :
    Spaced samplePkts 0
        (emissions (sampleEnv samplePool) 0 sampleGen [sampleEvent, sampleEvent]) ↔
      ((2 : ℕ) ≠ 0 → 0 + relTscAt samplePkts 0 < 2 ^ 64) ∧
        ∀ pos < 2, relTscAt samplePkts (pos % 2) = relTscAt samplePkts ((pos + 1) % 2) := by
  obtain ⟨final, run⟩ := sampleGen_runs 2 (by decide)
  have iff := replay_spacing_iff (sampleEnv samplePool) sampleGenCfg 1000000 samplePkts (by decide)
    0 (by decide) run
  dsimp only at iff
  rw [Nat.zero_mul] at iff
  exact iff

end TrafficGenerator
