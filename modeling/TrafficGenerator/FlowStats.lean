/-
This file is about the statistics that a stop request reports: one entry for
every flow, which says what the reports of the flow add up to.

The counters of a flow are numbers of 64 bits, and it is known to the reader of
the summary by two numbers of 32 bits. The report of a generation with more
captures than those numbers tell apart, or of a flow with more packets than the
counter holds, says less than the events did; there is one of each at the end.
-/

import TrafficGenerator.FlowTally

namespace TrafficGenerator

variable {env : Env} {ops ops' : Ops} {manager : GenManager}

/-! ### The start of a generation -/

/-- The flows are numbered from the given number on, and have counted nothing. -/
theorem setupFlows_numbered {clnIpAddrs srvIpAddrs : AddrRange} {burstCnt idx : UInt32}
    {count : ℕ} {cursor : AddrCursor} {flow : ℕ} {fl : Flow}
    (found : (setupFlows clnIpAddrs srvIpAddrs burstCnt count idx cursor).1[flow]? = some fl) :
    fl.idx = idx + UInt32.ofNat flow ∧ fl.tally = Tally.zero := by
  induction count generalizing idx cursor flow with
  | zero => exact absurd found (by simp [setupFlows])
  | succ count inductionHypothesis =>
    cases flow with
    | zero =>
      obtain rfl := Option.some.inj found
      exact ⟨(UInt32.add_zero idx).symm, rfl⟩
    | succ flow =>
      obtain ⟨number, tally⟩ := inductionHypothesis found
      refine ⟨?_, tally⟩
      rw [number, UInt32.ofNat_add, UInt32.add_assoc, UInt32.add_comm (UInt32.ofNat flow)]
      rfl

theorem construct_tallied {cfg : FlowsGeneratorConfig} {gen : FlowsGenerator} {pos : ℕ}
    (idx : cfg.idx = UInt32.ofNat pos)
    (run : FlowsGenerator.construct env cfg ops = (.ok gen, ops')) :
    gen.Tallied [] cfg.flowsPerSec.toNat pos := by
  obtain ⟨pkts, middle, -, rfl, -⟩ := FlowsGenerator.construct_ok run
  refine ⟨idx, ?_, fun flow fl found => ?_⟩
  · rw [FlowsGenerator.withEvents, armed_length, withFlows_length]
  · rw [FlowsGenerator.withEvents, armed_getElem?] at found
    obtain ⟨before, foundBefore, rfl⟩ := Option.map_eq_some_iff.mp found
    obtain ⟨number, tally⟩ := setupFlows_numbered foundBefore
    exact ⟨number.trans (UInt32.zero_add _), tally⟩

/-- The generators of a start request, one for every capture. -/
theorem createGens_tallied {workingDir : String} {dutAddress : EtherAddr} {pos : ℕ}
    {caps : List FlowsConfig} {gens more : List FlowsGenerator} {ops : Ops}
    (run : createGens env workingDir dutAddress (UInt32.ofNat pos) caps gens ops =
      (.ok more, ops')) :
    ∃ built, more = gens ++ built ∧ built.length = caps.length ∧
      ∀ (place : ℕ) (gen : FlowsGenerator) (cap : FlowsConfig), built[place]? = some gen →
        caps[place]? = some cap → gen.Tallied [] cap.flowsPerSec.toNat (pos + place) := by
  induction caps generalizing pos gens ops with
  | nil =>
    obtain ⟨same, -⟩ := Prod.mk.inj run
    exact ⟨[], (Except.ok.inj same).symm.trans (List.append_nil _).symm, rfl,
      fun place gen cap found => absurd found (by simp)⟩
  | cons cap rest inductionHypothesis =>
    rw [createGens] at run
    split at run
    · exact absurd (Prod.mk.inj run).1 (by simp)
    · next gen middle one =>
      have next : UInt32.ofNat pos + 1 = UInt32.ofNat (pos + 1) := by
        rw [UInt32.ofNat_add]
        rfl
      rw [next] at run
      obtain ⟨built, same, length, tallied⟩ := inductionHypothesis run
      refine ⟨gen :: built, by rw [same, List.append_assoc]; rfl, congrArg (· + 1) length, ?_⟩
      rintro (_ | place) other cap' found foundCap
      · obtain rfl := Option.some.inj found
        obtain rfl := Option.some.inj foundCap
        exact construct_tallied rfl one
      · rw [show pos + (place + 1) = pos + 1 + place by omega]
        exact tallied place other cap' found foundCap

/-- The flows of each capture of a configuration. -/
def GenConfig.flowCounts (cfg : GenConfig) : List ℕ :=
  cfg.flowsCfgs.map fun cap => cap.flowsPerSec.toNat

/-- A generation starts with nothing counted. -/
theorem onStartGeneration_tallied {input : StartIn} {cfg : GenConfig} (sound : manager.Sound)
    (idle : manager.generationStarted = false)
    (started : (onStartGeneration env input cfg manager).generationStarted = true) :
    (onStartGeneration env input cfg manager).Tallied cfg.flowCounts [] := by
  cases onStartGeneration_cases env input cfg manager sound.empty with
  | refused running => exact absurd (idle.symm.trans running) Bool.false_ne_true
  | failed thrown middle _ undone result =>
    rw [result] at started
    exact absurd (idle.symm.trans started) Bool.false_ne_true
  | begun gens middle _ built done result =>
    obtain ⟨all, same, length, tallied⟩ := createGens_tallied
      (show createGens env manager.workingDir cfg.dutAddr (UInt32.ofNat 0) cfg.flowsCfgs []
        manager.ops = (.ok gens, middle) from built)
    rw [List.nil_append] at same
    subst same
    rw [result]
    refine ⟨by rw [GenConfig.flowCounts, List.length_map, length],
      fun pos gen count found counts => ?_, fun entry member => absurd member List.not_mem_nil⟩
    obtain ⟨cap, foundCap, rfl⟩ : ∃ cap, cfg.flowsCfgs[pos]? = some cap ∧
        cap.flowsPerSec.toNat = count := by
      rw [GenConfig.flowCounts, List.getElem?_map] at counts
      exact Option.map_eq_some_iff.mp counts
    rw [← Nat.zero_add pos]
    exact tallied pos gen cap found foundCap

/-! ### The summary -/

/-- The entry of the flow at a place says what its reports add up to, in the numbers it has for
it. -/
structure SummaryEntry.Reports (place : ℕ × ℕ) (reports : List GenerationReport)
    (entry : SummaryEntry) : Prop where
  genIdx : entry.genIdx = UInt32.ofNat place.1
  flowIdx : entry.flowIdx = UInt32.ofNat place.2
  cntPkts : entry.cntPkts.toNat = reports.length % 2 ^ 64
  cntBytes : entry.cntBytes.toNat = reportedBytes reports % 2 ^ 64
  durationSinceReset : entry.duration = lastTstamp reports - firstTstamp (sinceReset reports)
  duration : reports.length ≤ 2 ^ 64 → entry.duration = lastTstamp reports - firstTstamp reports

theorem sinceReset_of_few {reports : List GenerationReport} (few : reports.length ≤ 2 ^ 64) :
    sinceReset reports = reports := by
  have none : (reports.length - 1) / 2 ^ 64 = 0 := Nat.div_eq_of_lt (by omega)
  rw [sinceReset, none, Nat.zero_mul]
  rfl

theorem FlowsGenerator.Tallied.entry {log : List FlowReport} {count pos : ℕ}
    {gen : FlowsGenerator} (tallied : gen.Tallied log count pos) {flow : ℕ} {fl : Flow}
    (found : gen.flows[flow]? = some fl) :
    (summaryEntry gen fl).Reports (pos, flow) (reportsAt pos flow log) := by
  obtain ⟨number, tally⟩ := tallied.flows flow fl found
  rw [tally_foldl] at tally
  have duration : fl.tally.tstampEnd - fl.tally.tstampBeg =
      lastTstamp (reportsAt pos flow log) -
        firstTstamp (sinceReset (reportsAt pos flow log)) := by rw [tally]
  refine ⟨tallied.idx, number, ?_, ?_, duration, fun few => ?_⟩
  · show fl.tally.cntPkts.toNat = _
    rw [tally, UInt64.toNat_ofNat']
  · show fl.tally.cntBytes.toNat = _
    rw [tally, UInt64.toNat_ofNat']
  · rw [sinceReset_of_few few] at duration
    exact duration

/-- The entries of all flows, generator after generator. -/
theorem GenManager.Tallied.entries {counts : List ℕ} {log : List FlowReport}
    (tallied : manager.Tallied counts log) :
    List.Forall₂ (fun place entry => SummaryEntry.Reports place
        (reportsAt place.1 place.2 log) entry) (places counts)
      (manager.generators.flatMap fun gen => gen.flows.map (summaryEntry gen)) := by
  refine List.rel_flatMap (R := fun entry gen => gen.Tallied log entry.1 entry.2) ?_ ?_
  · refine List.forall₂_iff_get.mpr ⟨by rw [List.length_zipIdx, tallied.length], ?_⟩
    intro pos low high
    rw [List.get_eq_getElem, List.get_eq_getElem, List.getElem_zipIdx]
    rw [List.length_zipIdx] at low
    have self := tallied.gens pos _ _ (List.getElem?_eq_getElem high)
      (List.getElem?_eq_getElem low)
    rwa [Nat.zero_add]
  · rintro ⟨count, pos⟩ gen gen_tallied
    refine List.forall₂_iff_get.mpr ⟨?_, fun flow low high => ?_⟩
    · rw [List.length_map, List.length_map, List.length_range, gen_tallied.length]
    · rw [List.length_map] at high
      rw [List.get_eq_getElem, List.get_eq_getElem, List.getElem_map, List.getElem_map,
        List.getElem_range]
      exact gen_tallied.entry (List.getElem?_eq_getElem high)

/-- The two numbers tell the places apart when there are no more captures than numbers. -/
theorem places_inj {counts : List ℕ} (few : counts.length ≤ 2 ^ 32)
    (small : ∀ count ∈ counts, count ≤ 2 ^ 32) {first second : ℕ × ℕ}
    (firstPlace : first ∈ places counts) (secondPlace : second ∈ places counts)
    (pos : UInt32.ofNat first.1 = UInt32.ofNat second.1)
    (flow : UInt32.ofNat first.2 = UInt32.ofNat second.2) : first = second := by
  have bounds : ∀ place ∈ places counts, place.1 < 2 ^ 32 ∧ place.2 < 2 ^ 32 := by
    intro place member
    obtain ⟨count, found, below⟩ := mem_places.mp member
    exact ⟨Nat.lt_of_lt_of_le (List.getElem?_eq_some_iff.mp found).1 few,
      Nat.lt_of_lt_of_le below (small count (List.mem_of_getElem? found))⟩
  have same : ∀ {num other : ℕ}, num < 2 ^ 32 → other < 2 ^ 32 →
      UInt32.ofNat num = UInt32.ofNat other → num = other := by
    intro num other numBound otherBound equal
    have values := congrArg UInt32.toNat equal
    rwa [UInt32.toNat_ofNat_of_lt' numBound, UInt32.toNat_ofNat_of_lt' otherBound] at values
  obtain ⟨firstPos, firstFlow⟩ := bounds first firstPlace
  obtain ⟨secondPos, secondFlow⟩ := bounds second secondPlace
  exact Prod.ext (same firstPos secondPos pos) (same firstFlow secondFlow flow)

theorem places_nodup (counts : List ℕ) : (places counts).Nodup := by
  refine List.nodup_flatMap.mpr ⟨?_, ?_⟩
  · rintro ⟨count, pos⟩ -
    refine (List.nodup_map_iff fun first second same => ?_).mpr List.nodup_range
    exact (Prod.mk.inj same).2
  · refine List.pairwise_iff_getElem.mpr fun pos other low high less => ?_
    intro place here there
    obtain ⟨_, -, first⟩ := List.mem_map.mp here
    obtain ⟨_, -, second⟩ := List.mem_map.mp there
    have equal := (Prod.mk.inj (first.trans second.symm)).1
    rw [List.getElem_zipIdx, List.getElem_zipIdx] at equal
    dsimp only at equal
    omega

/-- The reports about the two numbers of a place are those made there. -/
theorem reportsAt_eq {counts : List ℕ} {log : List FlowReport}
    (tallied : manager.Tallied counts log) (few : counts.length ≤ 2 ^ 32)
    (small : ∀ count ∈ counts, count ≤ 2 ^ 32) {place : ℕ × ℕ} (member : place ∈ places counts) :
    reportsAt place.1 place.2 log =
      reportsFor (UInt32.ofNat place.1) (UInt32.ofNat place.2) (log.map FlowReport.report) := by
  rw [reportsAt, reportsFor, List.filter_map]
  refine congrArg _ (List.filter_congr fun entry among => ?_)
  obtain ⟨entryPlace, genIdx, flowIdx⟩ := tallied.numbered entry among
  rw [Function.comp_apply, genIdx, flowIdx, decide_eq_decide]
  constructor
  · rintro ⟨pos, flow⟩
    exact ⟨congrArg _ pos, congrArg _ flow⟩
  · rintro ⟨pos, flow⟩
    exact Prod.mk.inj (places_inj few small entryPlace member pos flow)

theorem flowCounts_small (cfg : GenConfig) : ∀ count ∈ cfg.flowCounts, count ≤ 2 ^ 32 := by
  intro count member
  obtain ⟨cap, -, rfl⟩ := List.mem_map.mp member
  exact Nat.le_of_lt cap.flowsPerSec.toNat_lt

/-- The pairs of numbers in a summary are those of the places. -/
theorem pairs_eq {counts : List ℕ} {log : List FlowReport} {detailed : List SummaryEntry}
    (entries : List.Forall₂ (fun place entry => SummaryEntry.Reports place
      (reportsAt place.1 place.2 log) entry) (places counts) detailed) :
    detailed.map (fun entry => (entry.genIdx, entry.flowIdx)) =
      (places counts).map fun place => (UInt32.ofNat place.1, UInt32.ofNat place.2) := by
  have same : List.Forall₂ (· = ·) (detailed.map fun entry => (entry.genIdx, entry.flowIdx))
      ((places counts).map fun place => (UInt32.ofNat place.1, UInt32.ofNat place.2)) := by
    refine List.forall₂_map_left_iff.mpr (List.forall₂_map_right_iff.mpr ?_)
    exact entries.flip.imp fun entry place reports => Prod.ext reports.genIdx reports.flowIdx
  exact List.forall₂_eq_eq_eq ▸ same

/-- They are pairwise distinct. -/
theorem pairs_nodup {counts : List ℕ} (few : counts.length ≤ 2 ^ 32)
    (small : ∀ count ∈ counts, count ≤ 2 ^ 32) {log : List FlowReport}
    {detailed : List SummaryEntry}
    (entries : List.Forall₂ (fun place entry => SummaryEntry.Reports place
      (reportsAt place.1 place.2 log) entry) (places counts) detailed) :
    (detailed.map fun entry => (entry.genIdx, entry.flowIdx)).Nodup := by
  rw [pairs_eq entries]
  refine (places_nodup counts).map_on fun first firstPlace second secondPlace same => ?_
  obtain ⟨pos, flow⟩ := Prod.mk.inj same
  exact places_inj few small firstPlace secondPlace pos flow

/-- A request that is handled while no generation runs starts one, somewhere in a run. -/
def Starts (env : Env) (cfg : GenConfig) (started : GenState) : Prop :=
  ∃ workingDir before manager request rest input,
    (genMachine env).run (GenState.init workingDir) before =
        some ⟨manager, .handling (⟨request, .startGeneration cfg⟩ :: rest)⟩ ∧
      manager.generationStarted = false ∧
      (genMachine env).step ⟨manager, .handling (⟨request, .startGeneration cfg⟩ :: rest)⟩
        (.handle input) = some started ∧
      started.manager.generationStarted = true

/-- A generation just started meets the invariant, and nothing is counted. -/
theorem Starts.begun {cfg : GenConfig} {started : GenState} (starts : Starts env cfg started) :
    started.Sound ∧ started.manager.Tallied cfg.flowCounts [] := by
  obtain ⟨workingDir, before, manager, request, rest, input, reached, idle, start, begun⟩ := starts
  have sound := GenState.sound_of_run reached
  refine ⟨sound.step start, ?_⟩
  cases (genStep_spec start).2
  exact onStartGeneration_tallied sound.manager idle begun

/-- After some steps a request to stop is handled. -/
def HandlesStop (env : Env) (started : GenState) (labels : List GenLabel) (last : GenManager)
    (next : GenState) : Prop :=
  ∃ request rest input,
    (genMachine env).run started labels =
        some ⟨last, .handling (⟨request, .stopGeneration⟩ :: rest)⟩ ∧
      (genMachine env).step ⟨last, .handling (⟨request, .stopGeneration⟩ :: rest)⟩
        (.handle input) = some next

/-- What the handler of a stop request answers. -/
theorem onStopGeneration_outMsgs (env : Env) (sound : manager.Sound) :
    ∃ summary, (onStopGeneration env manager).ops.outMsgs = manager.ops.outMsgs ++
      [.stopGeneration { summary, detailed :=
        manager.generators.flatMap fun gen => gen.flows.map (summaryEntry gen) }] := by
  obtain ⟨aborted, -, result⟩ := stopGeneration_eq env manager sound.ownsTimers
  rw [onStopGeneration, result]
  exact ⟨_, rfl⟩

/-- The answer lists the flows there are. -/
theorem HandlesStop.answered {started next : GenState} {labels : List GenLabel}
    {last : GenManager} (stop : HandlesStop env started labels last next) (sound : started.Sound) :
    last.Sound ∧ ∃ summary, next.manager.ops.outMsgs = last.ops.outMsgs ++
      [.stopGeneration { summary, detailed :=
        last.generators.flatMap fun gen => gen.flows.map (summaryEntry gen) }] := by
  obtain ⟨request, rest, input, run, handle⟩ := stop
  have lastSound := (genMachine env).run_invariant GenState.Sound
    (fun _ _ _ sound step => GenState.Sound.step sound step) sound run
  refine ⟨lastSound.manager, ?_⟩
  cases (genStep_spec handle).2
  exact onStopGeneration_outMsgs env lastSound.manager

/-- A generation is started, runs for a while, and a request stops it. -/
structure Stopped (env : Env) (cfg : GenConfig) (started : GenState) (labels : List GenLabel)
    (last : GenManager) (next : GenState) : Prop where
  start : Starts env cfg started
  running : (genMachine env).AllStates
    (fun state => state.manager.generationStarted = true) started labels
  stop : HandlesStop env started labels last next

/-- A stopped generation: what its flows have counted, what was reported, and the answer. -/
theorem Stopped.summary {cfg : GenConfig} {started : GenState} {labels : List GenLabel}
    {last : GenManager} {next : GenState} (stopped : Stopped env cfg started labels last next) :
    last.Tallied cfg.flowCounts (flowLog env started labels) ∧
      ∃ res msgs, next.manager.ops.outMsgs = last.ops.outMsgs ++ [.stopGeneration res] ∧
        last.ops.outMsgs = started.manager.ops.outMsgs ++ msgs ∧
        reportsIn msgs = (flowLog env started labels).map FlowReport.report ∧
        List.Forall₂ (fun place entry => SummaryEntry.Reports place
          (reportsAt place.1 place.2 (flowLog env started labels)) entry) (places cfg.flowCounts)
          res.detailed := by
  obtain ⟨sound, begun⟩ := stopped.start.begun
  obtain ⟨-, summary, answered⟩ := stopped.stop.answered sound
  obtain ⟨request, rest, input, run, -⟩ := stopped.stop
  obtain ⟨tallied, msgs, grew, reports⟩ := begun.run sound stopped.running run
  rw [List.nil_append] at tallied
  exact ⟨tallied, _, msgs, answered, grew, reports, tallied.entries⟩

/-! ### One flow over one packet -/

/-- A generation with one flow over one packet, whose timer is pending. -/
structure GenManager.Firing (manager : GenManager) (pkt : Pkt) (pktLen : UInt32) : Prop where
  alive : manager.ops.aborted = false
  started : manager.generationStarted = true
  flow : ∃ gen fl, manager.generators = [gen] ∧ gen.pkts = [pkt] ∧ gen.flows = [fl] ∧
    fl.event.armed = true ∧ fl.pktIdx = 0
  allocated : pkt.mbuf < manager.ops.pool.attempts
  length : (manager.ops.pool.mbufs pkt.mbuf).pktLen = pktLen

/-- Its event reports the packet, and another one can follow. -/
theorem GenManager.Firing.fire {pkt : Pkt} {pktLen : UInt32} (firing : manager.Firing pkt pktLen)
    (event : EventIn) :
    ∃ next report, (genMachine (sampleEnv samplePool)).step ⟨manager, .timers⟩ (.fire 0 0 event) =
        some ⟨next, .timers⟩ ∧
      (GenLabel.fire 0 0 event).reported ⟨manager, .timers⟩ ⟨next, .timers⟩ = [⟨0, 0, report⟩] ∧
      report.tstamp = event.now ∧ report.pktLen = pktLen ∧ next.Firing pkt pktLen := by
  obtain ⟨gen, fl, gens, pkts, flows, armed, first⟩ := firing.flow
  have found : manager.generators[0]? = some gen := by rw [gens]; rfl
  have flowFound : gen.flows[0]? = some fl := by rw [flows]; rfl
  have idx : (gen.advanced fl).pktIdx = 0 := by
    rw [advanced_pktIdx, pkts, first]
    rfl
  have pktFound : pktAt gen.pkts (gen.advanced fl).pktIdx = pkt := by
    rw [idx, pkts]
    rfl
  have run : manager.fire (sampleEnv samplePool) 0 0 event = some { manager with
      generators := manager.generators.set 0
        (gen.onFlowEvent (sampleEnv samplePool) event 0 manager.ops).1
      ops := (gen.onFlowEvent (sampleEnv samplePool) event 0 manager.ops).2 } :=
    fire_eq_some.mpr ⟨gen, fl, found, flowFound, armed, rfl⟩
  obtain ⟨report, grew, tstamp, length, -⟩ :=
    emitPkt_counted (sampleEnv samplePool) gen event (gen.advanced fl) manager.ops
  have writes := emitPkt_writes (sampleEnv samplePool) gen event (gen.advanced fl) manager.ops
  have alive := ((fire_aborted run).noop rfl).trans firing.alive
  have again := emitPkt_armed (sampleEnv samplePool) gen event fl
    (EventHandle.isSome_of_armed armed) manager.ops
  rw [onFlowEvent_eq gen event flowFound manager.ops] at run alive
  rw [pktFound] at length
  refine ⟨_, report, ?_, ?_, tstamp, length.trans firing.length, {
    alive := alive
    started := firing.started
    flow := by
      rw [gens, flows]
      exact ⟨_, _, rfl, pkts, rfl, again, (emitPkt_pktIdx _ _ _ _ _).trans idx⟩
    allocated := Nat.lt_of_lt_of_le firing.allocated writes.attempts
    length := ?_ }⟩
  · exact step_part firing.alive
      (congrArg (Option.map fun manager => (⟨manager, .timers⟩ : GenState)) run)
  · show (reportsIn (List.drop _ (gen.emitPkt _ event (gen.advanced fl) manager.ops).2.outMsgs)).map
      _ = _
    rw [grew, List.drop_left]
    rfl
  · show ((gen.emitPkt _ event (gen.advanced fl) manager.ops).2.pool.mbufs pkt.mbuf).pktLen = _
    rw [writes.mbufs pkt.mbuf firing.allocated, firing.length]

/-- So do any number of events. -/
theorem GenManager.Firing.run {pkt : Pkt} {pktLen : UInt32} (firing : manager.Firing pkt pktLen)
    (events : List EventIn) :
    ∃ final, (genMachine (sampleEnv samplePool)).run ⟨manager, .timers⟩
        (events.map (GenLabel.fire 0 0)) = some ⟨final, .timers⟩ ∧
      (genMachine (sampleEnv samplePool)).AllStates
        (fun state => state.manager.generationStarted = true) ⟨manager, .timers⟩
        (events.map (GenLabel.fire 0 0)) ∧
      (reportsAt 0 0 (flowLog (sampleEnv samplePool) ⟨manager, .timers⟩
        (events.map (GenLabel.fire 0 0)))).map (fun report => (report.tstamp, report.pktLen)) =
          events.map (fun event => (event.now, pktLen)) ∧
      final.Firing pkt pktLen := by
  induction events generalizing manager with
  | nil => exact ⟨manager, rfl, firing.started, rfl, firing⟩
  | cons event rest inductionHypothesis =>
    obtain ⟨next, report, step, reported, tstamp, length, nextFiring⟩ := firing.fire event
    obtain ⟨final, run, running, log, finalFiring⟩ := inductionHypothesis nextFiring
    refine ⟨final, ?_, ⟨firing.started, fun other otherStep => ?_⟩, ?_, finalFiring⟩
    · rw [List.map_cons, Machine.run_cons, step, Option.bind_some, run]
    · obtain rfl := Option.some.inj (step.symm.trans otherStep)
      exact running
    · rw [List.map_cons, flowLog_cons _ step, reported, reportsAt_append, reportsAt_self,
        List.map_append, log, List.map_singleton, tstamp, length]
      rfl

/-- The events of a generation with one flow, up to a request to stop. -/
def eventsAndStop (events : List EventIn) : List GenLabel :=
  .tick (tickAt 0 1) :: (events.map (GenLabel.fire 0 0) ++
    [.flush TxAnswer.all, .dequeue [⟨none, .stopGeneration⟩]])

/-- The generation of one flow over the sample packet, right after its start and at its
timers. -/
theorem sample_firing : ∃ started ticked pkt,
    (genMachine (sampleEnv samplePool)).step ⟨{}, .handling
      [⟨none, .startGeneration (sampleCfg [oneFlow])⟩]⟩ (.handle {}) = some started ∧
    started.manager.generationStarted = true ∧
    (genMachine (sampleEnv samplePool)).step started (.tick (tickAt 0 1)) =
      some ⟨ticked, .timers⟩ ∧ ticked.Firing pkt 34 := by
  have values : (((genMachine (sampleEnv samplePool)).step ⟨{}, .handling
      [⟨none, .startGeneration (sampleCfg [oneFlow])⟩]⟩ (.handle {})).bind fun started =>
        ((genMachine (sampleEnv samplePool)).step started (.tick (tickAt 0 1))).map fun ticked =>
          started.manager.generationStarted && ticked.manager.generationStarted &&
          !ticked.manager.ops.aborted && ticked.place matches .timers &&
          decide (ticked.manager.generators.map (fun gen => (gen.pkts.map Pkt.mbuf,
            gen.flows.map fun fl => (fl.event.armed, fl.pktIdx))) = [([0], [(true, 0)])]) &&
          decide (ticked.manager.ops.pool.attempts = 1) &&
          decide ((ticked.manager.ops.pool.mbufs 0).pktLen = 34)) = some true := by
    decide +kernel
  obtain ⟨started, start, values⟩ := Option.bind_eq_some_iff.mp values
  obtain ⟨⟨ticked, place⟩, tick, values⟩ := Option.map_eq_some_iff.mp values
  simp only [Bool.and_eq_true, Bool.not_eq_true', decide_eq_true_eq] at values
  obtain ⟨⟨⟨⟨⟨⟨begun, running⟩, alive⟩, timers⟩, gens⟩, attempts⟩, length⟩ := values
  obtain rfl : place = .timers := by
    cases place with
    | timers => rfl
    | idle => exact absurd timers (by simp)
    | handling msgs => exact absurd timers (by simp)
  obtain ⟨gen, oneGen, shape⟩ := List.map_eq_singleton_iff.mp gens
  obtain ⟨mbufs, flows⟩ := Prod.mk.inj shape
  obtain ⟨pkt, onePkt, mbuf⟩ := List.map_eq_singleton_iff.mp mbufs
  obtain ⟨fl, oneFlow, flow⟩ := List.map_eq_singleton_iff.mp flows
  obtain ⟨armed, first⟩ := Prod.mk.inj flow
  exact ⟨started, ticked, pkt, start, begun, tick, alive, running,
    ⟨gen, fl, oneGen, onePkt, oneFlow, armed, first⟩, by rw [mbuf, attempts]; exact Nat.one_pos,
    by rw [mbuf]; exact length⟩

/-- Any number of events can happen before the generation is stopped, at any times. -/
theorem sample_stopped (events : List EventIn) : ∃ started last next,
    Stopped (sampleEnv samplePool) (sampleCfg [oneFlow]) started (eventsAndStop events) last next ∧
      (reportsAt 0 0 (flowLog (sampleEnv samplePool) started (eventsAndStop events))).map
        (fun report => (report.tstamp, report.pktLen)) =
          events.map fun event => (event.now, 34) := by
  obtain ⟨started, ticked, pkt, start, begun, tick, firing⟩ := sample_firing
  obtain ⟨final, run, running, log, finalFiring⟩ := firing.run events
  let last := final.flush TxAnswer.all
  have alive : last.ops.aborted = false :=
    (flushTxPkts_frame TxAnswer.all final.ops).2.2.2.2.1.trans finalFiring.alive
  have flush : (genMachine (sampleEnv samplePool)).step ⟨final, .timers⟩ (.flush TxAnswer.all) =
      some ⟨last, .idle⟩ := step_part finalFiring.alive rfl
  have dequeue : (genMachine (sampleEnv samplePool)).step ⟨last, .idle⟩
      (.dequeue [⟨none, .stopGeneration⟩]) = some ⟨last, .handling [⟨none, .stopGeneration⟩]⟩ :=
    step_part alive rfl
  have ends : (genMachine (sampleEnv samplePool)).run ⟨final, .timers⟩
      [.flush TxAnswer.all, .dequeue [⟨none, .stopGeneration⟩]] =
        some ⟨last, .handling [⟨none, .stopGeneration⟩]⟩ := by
    rw [Machine.run_cons, flush, Option.bind_some, Machine.run_cons, dequeue, Option.bind_some,
      Machine.run_nil]
  have quiet : flowLog (sampleEnv samplePool) ⟨final, .timers⟩
      [.flush TxAnswer.all, .dequeue [⟨none, .stopGeneration⟩]] = [] := by
    rw [flowLog_cons _ flush, flowLog_cons _ dequeue]
    rfl
  refine ⟨started, last, _, {
    start := ⟨"", aboutToStart, {}, none, [], {}, rfl, rfl, start, begun⟩
    running := ⟨begun, fun next step => ?_⟩
    stop := ⟨none, [], {}, ?_, step_part alive rfl⟩ }, ?_⟩
  · obtain rfl := Option.some.inj (tick.symm.trans step)
    refine running.append _ run ⟨finalFiring.started, fun next step => ?_⟩
    obtain rfl := Option.some.inj (flush.symm.trans step)
    refine ⟨finalFiring.started, fun next step => ?_⟩
    obtain rfl := Option.some.inj (dequeue.symm.trans step)
    exact finalFiring.started
  · rw [eventsAndStop, Machine.run_cons, tick, Option.bind_some, Machine.run_append, run,
      Option.bind_some, ends]
  · rw [eventsAndStop, flowLog_cons _ tick, flowLog_append _ run, quiet, List.append_nil]
    exact log

/-- The summary of one flow. -/
theorem sample_entry {log : List FlowReport} {detailed : List SummaryEntry}
    (entries : List.Forall₂ (fun place entry => SummaryEntry.Reports place
      (reportsAt place.1 place.2 log) entry) (places (sampleCfg [oneFlow]).flowCounts) detailed) :
    ∃ entry, detailed = [entry] ∧ entry.Reports (0, 0) (reportsAt 0 0 log) := by
  obtain ⟨entry, rest, first, others, same⟩ := List.forall₂_cons_left_iff.mp entries
  obtain rfl := List.forall₂_nil_left_iff.mp others
  exact ⟨entry, same, first⟩

/-- Any number of captures of one flow each, stopped before any event. -/
theorem sample_manyCaptures (count : ℕ) : ∃ started last next,
    Stopped (sampleEnv samplePool) (sampleCfg (List.replicate count oneFlow)) started
      [.tick {}, .dequeue [⟨none, .stopGeneration⟩]] last next := by
  obtain ⟨gens, built, result, -⟩ := sample_createGens 1 (by decide) (by decide) count 0 [] {}
  obtain ⟨manager, ticked, start, tick, begun, running, alive, -⟩ := sample_begin result
  have dequeue : (genMachine (sampleEnv samplePool)).step ⟨ticked, .idle⟩
      (.dequeue [⟨none, .stopGeneration⟩]) =
        some ⟨ticked, .handling [⟨none, .stopGeneration⟩]⟩ := step_part alive rfl
  refine ⟨_, ticked, _, {
    start := ⟨"", [.dequeue [⟨none, .startGeneration (sampleCfg (List.replicate count oneFlow))⟩]],
      {}, none, [], {}, rfl, rfl, start, begun⟩
    running := ⟨begun, fun next step => ?_⟩
    stop := ⟨none, [], {}, ?_, step_part alive rfl⟩ }⟩
  · obtain rfl := Option.some.inj (tick.symm.trans step)
    refine ⟨running, fun next step => ?_⟩
    obtain rfl := Option.some.inj (dequeue.symm.trans step)
    exact running
  · rw [Machine.run_cons, tick, Option.bind_some, Machine.run_cons, dequeue, Option.bind_some,
      Machine.run_nil]

/-! ### The statistics of every generation -/

/-- The summary of a stop request has one entry for every flow, in the order of the generators
and their flows, and each says what the flow has reported since the start: how many packets and
how many bytes, in the 64 bits of the counters, and for how long, from the first report (since
the counter started over, which it does after `2 ^ 64` packets) to the last. The numbers of the
flows are pairwise distinct, and tell which reports are theirs, when there are at most `2 ^ 32`
captures. -/
theorem flow_stats {cfg : GenConfig} {started : GenState} {labels : List GenLabel}
    {last : GenManager} {next : GenState} (stopped : Stopped env cfg started labels last next) :
    let log := flowLog env started labels
    ∃ res msgs, next.manager.ops.outMsgs = last.ops.outMsgs ++ [.stopGeneration res] ∧
      last.ops.outMsgs = started.manager.ops.outMsgs ++ msgs ∧
      reportsIn msgs = log.map FlowReport.report ∧
      List.Forall₂ (fun place entry => SummaryEntry.Reports place
        (reportsAt place.1 place.2 log) entry) (places cfg.flowCounts) res.detailed ∧
      (cfg.flowsCfgs.length ≤ 2 ^ 32 →
        (res.detailed.map fun entry => (entry.genIdx, entry.flowIdx)).Nodup ∧
        ∀ place ∈ places cfg.flowCounts, reportsAt place.1 place.2 log =
          reportsFor (UInt32.ofNat place.1) (UInt32.ofNat place.2) (reportsIn msgs)) := by
  intro log
  obtain ⟨tallied, res, msgs, answered, grew, reports, entries⟩ := stopped.summary
  refine ⟨res, msgs, answered, grew, reports, entries, fun few => ?_⟩
  have fewCounts : cfg.flowCounts.length ≤ 2 ^ 32 := by
    rwa [GenConfig.flowCounts, List.length_map]
  refine ⟨pairs_nodup fewCounts (flowCounts_small cfg) entries, fun place member => ?_⟩
  rw [reports]
  exact reportsAt_eq tallied fewCounts (flowCounts_small cfg) member

/-- Two events at times 5 and 9. -/
def twoEvents : List EventIn := [⟨5, TxAnswer.all⟩, ⟨9, TxAnswer.all⟩]

theorem flow_stats_twoEvents : ∃ started last next res,
    Stopped (sampleEnv samplePool) (sampleCfg [oneFlow]) started (eventsAndStop twoEvents) last
        next ∧
      next.manager.ops.outMsgs = last.ops.outMsgs ++ [.stopGeneration res] ∧
      res.detailed = [⟨0, 0, 2, 68, 4⟩] := by
  obtain ⟨started, last, next, stopped, reports⟩ := sample_stopped twoEvents
  obtain ⟨res, msgs, answered, -, -, entries, -⟩ := flow_stats stopped
  refine ⟨started, last, next, res, stopped, answered, ?_⟩
  obtain ⟨entry, one, first⟩ := sample_entry entries
  generalize reportsAt 0 0 (flowLog _ started (eventsAndStop twoEvents)) = log at reports first
  obtain ⟨five, rest, rfl, early, reports⟩ := List.map_eq_cons_iff.mp reports
  obtain ⟨nine, rest, rfl, late, reports⟩ := List.map_eq_cons_iff.mp reports
  obtain rfl := List.map_eq_nil_iff.mp reports
  obtain ⟨earlyTstamp, earlyLen⟩ := Prod.mk.inj early
  obtain ⟨lateTstamp, lateLen⟩ := Prod.mk.inj late
  have bytes : reportedBytes [five, nine] = 68 := by
    show five.pktLen.toNat + (nine.pktLen.toNat + 0) = 68
    rw [earlyLen, lateLen]
    rfl
  have duration : entry.duration = 4 := by
    rw [first.duration (by simp)]
    show nine.tstamp - five.tstamp = 4
    rw [earlyTstamp, lateTstamp]
    rfl
  have cntBytes : entry.cntBytes = 68 := by
    rw [← UInt64.toNat_inj, first.cntBytes, bytes]
    rfl
  have cntPkts : entry.cntPkts = 2 := UInt64.toNat_inj.mp first.cntPkts
  rw [one, ← cntPkts, ← cntBytes, ← duration]
  exact congrArg₂ (fun genIdx flowIdx => [({ entry with genIdx, flowIdx } : SummaryEntry)])
    first.genIdx first.flowIdx

/-- A clock that shows 0 for a number of events, and 1 at the last one. -/
def eventsAt (count : ℕ) : List EventIn :=
  List.replicate count ⟨0, TxAnswer.all⟩ ++ [⟨1, TxAnswer.all⟩]

/-- What their reports add up to. -/
theorem late_reports {reports : List GenerationReport} {count : ℕ} (several : 0 < count)
    (shape : reports.map (fun report => (report.tstamp, report.pktLen)) =
      (eventsAt count).map fun event => (event.now, 34)) :
    reports.length = count + 1 ∧ reportedBytes reports = 34 * (count + 1) ∧
      firstTstamp reports = 0 ∧ lastTstamp reports = 1 ∧
      (count % 2 ^ 64 = 0 → firstTstamp (sinceReset reports) = 1) := by
  rw [eventsAt, List.map_append, List.map_replicate, List.map_singleton] at shape
  obtain ⟨front, rest, rfl, frontShape, restShape⟩ := List.map_eq_append_iff.mp shape
  obtain ⟨last, rfl, lastShape⟩ := List.map_eq_singleton_iff.mp restShape
  obtain ⟨lastTime, lastLen⟩ := Prod.mk.inj lastShape
  have length : front.length = count := by
    have lengths := congrArg List.length frontShape
    rwa [List.length_map, List.length_replicate] at lengths
  have each : ∀ report ∈ front, report.tstamp = 0 ∧ report.pktLen = 34 := by
    intro report member
    have among : (report.tstamp, report.pktLen) ∈
        List.replicate count ((0, 34) : Cycles × UInt32) :=
      frontShape ▸ List.mem_map_of_mem member
    exact Prod.mk.inj (List.eq_of_mem_replicate among)
  have bytes : reportedBytes front = 34 * count := by
    rw [reportedBytes, List.map_congr_left fun report member =>
      congrArg UInt32.toNat (each report member).2, List.map_const', List.sum_replicate, length]
    exact Nat.mul_comm _ _
  obtain ⟨first, more, rfl⟩ := List.exists_cons_of_length_pos (length ▸ several)
  refine ⟨by rw [List.length_append, length]; rfl, ?_, (each first List.mem_cons_self).1, ?_, ?_⟩
  · rw [reportedBytes, List.map_append, List.sum_append]
    show reportedBytes _ + (last.pktLen.toNat + 0) = _
    rw [bytes, lastLen]
    rfl
  · rw [lastTstamp, List.getLast?_concat]
    exact lastTime
  · intro whole
    rw [firstTstamp_sinceReset_snoc, length, if_pos whole]
    exact lastTime

/-- The numbers of 64 and 32 bits run out. After `2 ^ 64` events at one time and another one
later, the only flow there is has counted one packet of 34 bytes and no time; and the first and
the last of `2 ^ 32 + 1` captures have one number. -/
theorem flow_stats_overflow :
    (∃ started last next res msgs,
      Stopped (sampleEnv samplePool) (sampleCfg [oneFlow]) started
          (eventsAndStop (eventsAt (2 ^ 64))) last next ∧
        next.manager.ops.outMsgs = last.ops.outMsgs ++ [.stopGeneration res] ∧
        last.ops.outMsgs = started.manager.ops.outMsgs ++ msgs ∧
        ∃ entry ∈ res.detailed,
          let reports := reportsFor entry.genIdx entry.flowIdx (reportsIn msgs)
          entry.cntPkts.toNat ≠ reports.length ∧
            entry.cntBytes.toNat ≠ reportedBytes reports ∧
            entry.duration ≠ lastTstamp reports - firstTstamp reports) ∧
    ∃ started labels last next res,
      Stopped (sampleEnv samplePool) (sampleCfg (List.replicate (2 ^ 32 + 1) oneFlow)) started
          labels last next ∧
        next.manager.ops.outMsgs = last.ops.outMsgs ++ [.stopGeneration res] ∧
        ¬ (res.detailed.map fun entry => (entry.genIdx, entry.flowIdx)).Nodup := by
  constructor
  · obtain ⟨started, last, next, stopped, shape⟩ := sample_stopped (eventsAt (2 ^ 64))
    obtain ⟨tallied, res, msgs, answered, grew, reports, entries⟩ := stopped.summary
    obtain ⟨entry, one, first⟩ := sample_entry entries
    have place : ((0, 0) : ℕ × ℕ) ∈ places (sampleCfg [oneFlow]).flowCounts :=
      List.mem_singleton_self _
    have same := reportsAt_eq tallied (by decide) (flowCounts_small _) place
    obtain ⟨length, bytes, beg, fin, since⟩ := late_reports (Nat.pow_pos (by decide)) shape
    refine ⟨started, last, next, res, msgs, stopped, answered, grew, entry,
      one ▸ List.mem_singleton_self _, ?_⟩
    dsimp only
    rw [first.genIdx, first.flowIdx, reports, ← same, first.cntPkts, first.cntBytes,
      first.durationSinceReset, length, bytes, beg, fin, since (Nat.mod_self _)]
    exact ⟨by omega, by omega, by decide⟩
  · obtain ⟨started, last, next, stopped⟩ := sample_manyCaptures (2 ^ 32 + 1)
    obtain ⟨-, res, msgs, answered, -, -, entries⟩ := stopped.summary
    refine ⟨started, _, last, next, res, stopped, answered, fun nodup => ?_⟩
    rw [pairs_eq entries] at nodup
    have place : ∀ pos ≤ 2 ^ 32, (pos, 0) ∈
        places (sampleCfg (List.replicate (2 ^ 32 + 1) oneFlow)).flowCounts := by
      intro pos bound
      refine mem_places.mpr ⟨1, ?_, Nat.one_pos⟩
      rw [GenConfig.flowCounts]
      show (List.map _ (List.replicate _ oneFlow))[pos]? = _
      rw [List.map_replicate, List.getElem?_replicate, if_pos (Nat.lt_succ_of_le bound)]
      rfl
    have equal := List.inj_on_of_nodup_map nodup (place 0 (Nat.zero_le _))
      (place (2 ^ 32) (Nat.le_refl _)) (by decide)
    exact absurd (Prod.mk.inj equal).1 (by decide)

end TrafficGenerator
