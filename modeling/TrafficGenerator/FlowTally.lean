/-
This file is about what the flows count. A flow adds the packet of every event
to its counters, whether there was a buffer for the copy or not, and the same
event reports the packet; so in a running generation what a flow has counted is
what its reports add up to. The reports of a run are kept here together with
the places of the flows that made them, which the messages do not tell.
-/

import TrafficGenerator.Emitted
import TrafficGenerator.SystemSteps

namespace TrafficGenerator

variable {env : Env} {manager : GenManager}

/-! ### Reports -/

/-- The generation reports among the messages, in order. -/
def reportsIn (msgs : List ResMsg) : List GenerationReport :=
  msgs.filterMap fun
    | .generationReport report => some report
    | _ => none

theorem reportsIn_append (msgs more : List ResMsg) :
    reportsIn (msgs ++ more) = reportsIn msgs ++ reportsIn more := List.filterMap_append

/-- The reports about a flow by its two numbers. -/
def reportsFor (genIdx flowIdx : UInt32) (reports : List GenerationReport) :
    List GenerationReport :=
  reports.filter fun report => report.genIdx = genIdx ∧ report.flowIdx = flowIdx

/-- The time of the first report. -/
def firstTstamp (reports : List GenerationReport) : Cycles :=
  (reports.head?.map GenerationReport.tstamp).getD 0

/-- The time of the last report. -/
def lastTstamp (reports : List GenerationReport) : Cycles :=
  (reports.getLast?.map GenerationReport.tstamp).getD 0

/-- The bytes of the packets reported. -/
def reportedBytes (reports : List GenerationReport) : ℕ :=
  (reports.map fun report => report.pktLen.toNat).sum

/-! ### What a flow counts -/

/-- The statistics of a flow. -/
@[ext] structure Tally where
  cntPkts : UInt64
  cntBytes : UInt64
  tstampBeg : Cycles
  tstampEnd : Cycles

def Flow.tally (fl : Flow) : Tally where
  cntPkts := fl.cntPkts
  cntBytes := fl.cntBytes
  tstampBeg := fl.tstampBeg
  tstampEnd := fl.tstampEnd

/-- A flow that has counted nothing. -/
def Tally.zero : Tally := ⟨0, 0, 0, 0⟩

/-- One more packet, as it is reported. -/
def Tally.count (tally : Tally) (report : GenerationReport) : Tally where
  cntPkts := tally.cntPkts + 1
  cntBytes := tally.cntBytes + report.pktLen.toUInt64
  tstampBeg := if tally.cntPkts + 1 = 1 then report.tstamp else tally.tstampBeg
  tstampEnd := report.tstamp

/-- The reports from the one the counter last started at: it starts over after `2 ^ 64`. -/
def sinceReset (reports : List GenerationReport) : List GenerationReport :=
  reports.drop ((reports.length - 1) / 2 ^ 64 * 2 ^ 64)

theorem firstTstamp_append {reports : List GenerationReport} (some : reports ≠ [])
    (more : List GenerationReport) : firstTstamp (reports ++ more) = firstTstamp reports := by
  rw [firstTstamp, List.head?_append_of_ne_nil _ some]
  rfl

/-- What is left after the last reset, with one more report. -/
theorem firstTstamp_sinceReset_snoc (reports : List GenerationReport) (report : GenerationReport) :
    firstTstamp (sinceReset (reports ++ [report])) =
      if reports.length % 2 ^ 64 = 0 then report.tstamp else firstTstamp (sinceReset reports) := by
  rw [sinceReset, List.length_append, List.length_singleton, Nat.add_sub_cancel]
  split
  · next whole =>
    rw [Nat.div_mul_cancel (Nat.dvd_of_mod_eq_zero whole), List.drop_left]
    rfl
  · next part =>
    have same : reports.length / 2 ^ 64 = (reports.length - 1) / 2 ^ 64 := by omega
    have before : (reports.length - 1) / 2 ^ 64 * 2 ^ 64 < reports.length := by omega
    rw [same, List.drop_append_of_le_length (Nat.le_of_lt before)]
    exact firstTstamp_append (List.drop_eq_nil_iff.not.mpr (Nat.not_le_of_lt before)) _

/-- What a flow has counted after some reports. -/
theorem tally_foldl (reports : List GenerationReport) :
    reports.foldl Tally.count Tally.zero = {
      cntPkts := UInt64.ofNat reports.length
      cntBytes := UInt64.ofNat (reportedBytes reports)
      tstampBeg := firstTstamp (sinceReset reports)
      tstampEnd := lastTstamp reports } := by
  induction reports using List.reverseRecOn with
  | nil => rfl
  | append_singleton reports report inductionHypothesis =>
    rw [List.foldl_append, inductionHypothesis, List.foldl_cons, List.foldl_nil, Tally.count]
    have counts : UInt64.ofNat reports.length + 1 = UInt64.ofNat (reports ++ [report]).length := by
      rw [List.length_append, UInt64.ofNat_add]
      rfl
    have bytes : UInt64.ofNat (reportedBytes reports) + report.pktLen.toUInt64 =
        UInt64.ofNat (reportedBytes (reports ++ [report])) := by
      rw [reportedBytes, reportedBytes, List.map_append, List.sum_append, UInt64.ofNat_add]
      congr 1
      refine UInt64.toNat_inj.mp ?_
      rw [UInt32.toNat_toUInt64, UInt64.toNat_ofNat']
      show _ = (report.pktLen.toNat + 0) % 2 ^ 64
      have small := report.pktLen.toNat_lt
      rw [Nat.add_zero, Nat.mod_eq_of_lt (by omega)]
    have restarts : UInt64.ofNat reports.length + 1 = 1 ↔ reports.length % 2 ^ 64 = 0 := by
      rw [← UInt64.toNat_inj, UInt64.toNat_add, UInt64.toNat_ofNat']
      show (reports.length % 2 ^ 64 + 1) % 2 ^ 64 = 1 ↔ _
      omega
    have last : lastTstamp (reports ++ [report]) = report.tstamp := by
      rw [lastTstamp, List.getLast?_concat]
      rfl
    rw [counts, bytes, last, firstTstamp_sinceReset_snoc]
    by_cases whole : reports.length % 2 ^ 64 = 0
    · rw [if_pos whole, if_pos (by rw [← counts]; exact restarts.mpr whole)]
    · rw [if_neg whole, if_neg (by rw [← counts]; exact restarts.not.mpr whole)]

/-! ### One event -/

/-- The event of a flow counts the packet it reports. -/
structure Counted (gen : FlowsGenerator) (fl fl' : Flow) (report : GenerationReport) : Prop where
  genIdx : report.genIdx = gen.idx
  flowIdx : report.flowIdx = fl.idx
  idx : fl'.idx = fl.idx
  tally : fl'.tally = fl.tally.count report

theorem advanced_tally (gen : FlowsGenerator) (fl : Flow) :
    (gen.advanced fl).idx = fl.idx ∧ (gen.advanced fl).tally = fl.tally := by
  rw [FlowsGenerator.advanced, FlowsGenerator.nextPkt]
  split <;> exact ⟨rfl, rfl⟩

theorem emitPkt_counted (env : Env) (gen : FlowsGenerator) (event : EventIn) (fl : Flow)
    (ops : Ops) :
    ∃ report, (gen.emitPkt env event fl ops).2.outMsgs =
        ops.outMsgs ++ [.generationReport report] ∧
      report.tstamp = event.now ∧
      report.pktLen = (ops.pool.mbufs (pktAt gen.pkts fl.pktIdx).mbuf).pktLen ∧
      Counted gen fl (gen.emitPkt env event fl ops).1 report := by
  rw [emitPkt_outMsgs, emitPkt_flow]
  exact ⟨_, rfl, rfl, rfl, rfl, rfl, rfl, rfl⟩

/-! ### The reports of a run -/

/-- A report with the positions of the generator and the flow that made it. -/
structure FlowReport where
  pos : ℕ
  flow : ℕ
  report : GenerationReport
deriving DecidableEq

/-- What a step reports. -/
def GenLabel.reported (label : GenLabel) (before after : GenState) : List FlowReport :=
  match label with
  | .fire pos flow _ => (reportsIn (after.manager.ops.outMsgs.drop
      before.manager.ops.outMsgs.length)).map (FlowReport.mk pos flow)
  | _ => []

/-- The reports of a run, in order. -/
def flowLog (env : Env) : GenState → List GenLabel → List FlowReport
  | _, [] => []
  | state, label :: rest =>
    match (genMachine env).step state label with
    | none => []
    | some next => label.reported state next ++ flowLog env next rest

theorem flowLog_cons {state next : GenState} {label : GenLabel} (rest : List GenLabel)
    (step : (genMachine env).step state label = some next) :
    flowLog env state (label :: rest) = label.reported state next ++ flowLog env next rest := by
  rw [flowLog, step]

theorem flowLog_append {start middle : GenState} {first : List GenLabel} (second : List GenLabel)
    (run : (genMachine env).run start first = some middle) :
    flowLog env start (first ++ second) = flowLog env start first ++ flowLog env middle second := by
  induction first generalizing start with
  | nil =>
    obtain rfl := Option.some.inj run
    rfl
  | cons label rest inductionHypothesis =>
    obtain ⟨next, step, run⟩ := ((genMachine env).run_cons_eq_some).mp run
    rw [List.cons_append, flowLog_cons _ step, flowLog_cons _ step, inductionHypothesis run,
      List.append_assoc]

/-- The reports one flow made. -/
def reportsAt (pos flow : ℕ) (log : List FlowReport) : List GenerationReport :=
  (log.filter fun entry => entry.pos = pos ∧ entry.flow = flow).map FlowReport.report

theorem reportsAt_append (pos flow : ℕ) (log more : List FlowReport) :
    reportsAt pos flow (log ++ more) = reportsAt pos flow log ++ reportsAt pos flow more := by
  rw [reportsAt, List.filter_append, List.map_append]
  rfl

theorem reportsAt_self (pos flow : ℕ) (report : GenerationReport) :
    reportsAt pos flow [⟨pos, flow, report⟩] = [report] := by
  rw [reportsAt, List.filter_cons_of_pos (by simp)]
  rfl

theorem reportsAt_other {pos flow pos' flow' : ℕ} (other : ¬ (pos' = pos ∧ flow' = flow))
    (report : GenerationReport) : reportsAt pos flow [⟨pos', flow', report⟩] = [] := by
  rw [reportsAt, List.filter_cons_of_neg (by simpa using other)]
  rfl

/-- The steps of a running generation: a flow counts and reports a packet, or no flow does
anything and nothing is reported. -/
inductive RunningStep : GenState → GenLabel → GenState → Prop
  | quiet {state next : GenState} {label : GenLabel} (msgs : List ResMsg)
      (same : next.manager.generators = state.manager.generators)
      (grew : next.manager.ops.outMsgs = state.manager.ops.outMsgs ++ msgs)
      (silent : reportsIn msgs = []) (noReport : label.reported state next = []) :
      RunningStep state label next
  | event {state next : GenState} (pos flow : ℕ) (event : EventIn) (gen gen' : FlowsGenerator)
      (fl fl' : Flow) (report : GenerationReport)
      (found : state.manager.generators[pos]? = some gen) (flowFound : gen.flows[flow]? = some fl)
      (generators : next.manager.generators = state.manager.generators.set pos gen')
      (idx : gen'.idx = gen.idx) (flows : gen'.flows = gen.flows.set flow fl')
      (grew : next.manager.ops.outMsgs =
        state.manager.ops.outMsgs ++ [.generationReport report])
      (counted : Counted gen fl fl' report) :
      RunningStep state (.fire pos flow event) next

theorem running_step {state next : GenState} {label : GenLabel} (sound : state.Sound)
    (started : state.manager.generationStarted = true)
    (still : next.manager.generationStarted = true)
    (step : (genMachine env).step state label = some next) : RunningStep state label next := by
  cases (genStep_spec step).2 with
  | dequeue | nic => exact .quiet [] rfl (List.append_nil _).symm rfl rfl
  | handle manager msg rest input =>
    obtain ⟨res, noReport, result⟩ := onIncMsg_still env input msg.msg started still
    refine .quiet [res] (by rw [result]) (by rw [result]; rfl) ?_ rfl
    cases res with
    | generationReport report => exact absurd rfl (noReport report)
    | startGeneration | stopGeneration | statsReport => rfl
  | tick manager input =>
    refine .quiet [] (beforeTimers_same env input still) ?_ rfl rfl
    exact (beforeTimers_outMsgs env input sound.manager).trans (List.append_nil _).symm
  | fire manager next pos flow event run =>
    obtain ⟨gen, fl, found, flowFound, armed, rfl⟩ := fire_eq_some.mp run
    obtain ⟨report, grew, -, -, counted⟩ :=
      emitPkt_counted env gen event (gen.advanced fl) manager.ops
    obtain ⟨idx, tally⟩ := advanced_tally gen fl
    rw [onFlowEvent_eq gen event flowFound manager.ops]
    refine .event pos flow event gen _ fl _ report found flowFound rfl rfl rfl grew ?_
    exact ⟨counted.genIdx, counted.flowIdx.trans idx, counted.idx.trans idx, tally ▸ counted.tally⟩
  | flush manager tx =>
    refine .quiet [] rfl ?_ rfl rfl
    exact ((flushTxPkts_frame tx manager.ops).2.1).trans (List.append_nil _).symm

/-! ### The statistics of a run -/

/-- The places of the flows, generator after generator. -/
def places (counts : List ℕ) : List (ℕ × ℕ) :=
  counts.zipIdx.flatMap fun entry => (List.range entry.1).map fun flow => (entry.2, flow)

theorem mem_places {counts : List ℕ} {pos flow : ℕ} :
    (pos, flow) ∈ places counts ↔ ∃ count, counts[pos]? = some count ∧ flow < count := by
  rw [places, List.mem_flatMap]
  constructor
  · rintro ⟨⟨count, pos'⟩, member, among⟩
    obtain ⟨flow', below, same⟩ := List.mem_map.mp among
    obtain ⟨rfl, rfl⟩ := Prod.mk.inj same
    exact ⟨count, List.mem_zipIdx_iff_getElem?.mp member, List.mem_range.mp below⟩
  · rintro ⟨count, found, below⟩
    exact ⟨(count, pos), List.mem_zipIdx_iff_getElem?.mpr found,
      List.mem_map.mpr ⟨flow, List.mem_range.mpr below, rfl⟩⟩

/-- A generator with as many flows as given, all numbered, and each has counted its reports. -/
structure FlowsGenerator.Tallied (log : List FlowReport) (count pos : ℕ) (gen : FlowsGenerator) :
    Prop where
  idx : gen.idx = UInt32.ofNat pos
  length : gen.flows.length = count
  flows : ∀ flow fl, gen.flows[flow]? = some fl → fl.idx = UInt32.ofNat flow ∧
    fl.tally = (reportsAt pos flow log).foldl Tally.count Tally.zero

/-- The flows of all generators have counted the reports so far. -/
structure GenManager.Tallied (counts : List ℕ) (log : List FlowReport) (manager : GenManager) :
    Prop where
  length : manager.generators.length = counts.length
  gens : ∀ (pos : ℕ) (gen : FlowsGenerator) (count : ℕ), manager.generators[pos]? = some gen →
    counts[pos]? = some count → gen.Tallied log count pos
  numbered : ∀ entry ∈ log, (entry.pos, entry.flow) ∈ places counts ∧
    entry.report.genIdx = UInt32.ofNat entry.pos ∧ entry.report.flowIdx = UInt32.ofNat entry.flow

/-- A step of a running generation keeps the books. -/
theorem GenManager.Tallied.step {counts : List ℕ} {log : List FlowReport} {state next : GenState}
    {label : GenLabel} (tallied : state.manager.Tallied counts log)
    (step : RunningStep state label next) :
    next.manager.Tallied counts (log ++ label.reported state next) := by
  cases step with
  | quiet msgs same grew silent noReport =>
    rw [noReport, List.append_nil]
    exact ⟨same ▸ tallied.length, same ▸ tallied.gens, tallied.numbered⟩
  | event pos flow event gen gen' fl fl' report found flowFound generators idx flows grew counted =>
    have reported : (GenLabel.fire pos flow event).reported state next = [⟨pos, flow, report⟩] := by
      rw [GenLabel.reported, grew, List.drop_left]
      rfl
    have bound := (List.getElem?_eq_some_iff.mp found).1
    have flowBound := (List.getElem?_eq_some_iff.mp flowFound).1
    obtain ⟨count, counts_pos⟩ : ∃ count, counts[pos]? = some count :=
      ⟨_, List.getElem?_eq_getElem (tallied.length ▸ bound)⟩
    have self := tallied.gens pos gen count found counts_pos
    obtain ⟨number, tally⟩ := self.flows flow fl flowFound
    rw [reported]
    refine ⟨by rw [generators, List.length_set, tallied.length], ?_, ?_⟩
    · intro pos' gen'' count' found' counts'
      rw [generators] at found'
      by_cases same : pos = pos'
      · subst same
        rw [List.getElem?_set_self bound] at found'
        obtain rfl := Option.some.inj found'
        obtain rfl := Option.some.inj (counts_pos.symm.trans counts')
        refine ⟨idx.trans self.idx, by rw [flows, List.length_set, self.length], ?_⟩
        intro flow' fl'' flowFound'
        rw [flows] at flowFound'
        rw [reportsAt_append, List.foldl_append]
        by_cases this : flow = flow'
        · subst this
          rw [List.getElem?_set_self flowBound] at flowFound'
          obtain rfl := Option.some.inj flowFound'
          rw [reportsAt_self, ← tally]
          exact ⟨counted.idx.trans number, counted.tally⟩
        · rw [List.getElem?_set_ne this] at flowFound'
          rw [reportsAt_other fun both => this both.2]
          exact self.flows flow' fl'' flowFound'
      · rw [List.getElem?_set_ne same] at found'
        have other := tallied.gens pos' gen'' count' found' counts'
        refine ⟨other.idx, other.length, fun flow' fl'' flowFound' => ?_⟩
        rw [reportsAt_append, reportsAt_other fun both => same both.1, List.append_nil]
        exact other.flows flow' fl'' flowFound'
    · intro entry member
      rcases List.mem_append.mp member with before | new
      · exact tallied.numbered entry before
      · rw [List.mem_singleton.mp new]
        exact ⟨mem_places.mpr ⟨count, counts_pos, self.length ▸ flowBound⟩,
          counted.genIdx.trans self.idx, counted.flowIdx.trans number⟩

/-- So does a run; and what it reported is what the log says. -/
theorem GenManager.Tallied.run {counts : List ℕ} {log : List FlowReport} {start final : GenState}
    {labels : List GenLabel} (sound : start.Sound) (tallied : start.manager.Tallied counts log)
    (running : (genMachine env).AllStates
      (fun state => state.manager.generationStarted = true) start labels)
    (run : (genMachine env).run start labels = some final) :
    final.manager.Tallied counts (log ++ flowLog env start labels) ∧
      ∃ msgs, final.manager.ops.outMsgs = start.manager.ops.outMsgs ++ msgs ∧
        reportsIn msgs = (flowLog env start labels).map FlowReport.report := by
  induction labels generalizing start log with
  | nil =>
    obtain rfl := Option.some.inj run
    rw [flowLog, List.append_nil]
    exact ⟨tallied, [], (List.append_nil _).symm, rfl⟩
  | cons label rest inductionHypothesis =>
    obtain ⟨next, step, run⟩ := ((genMachine env).run_cons_eq_some).mp run
    have later := running.2 next step
    have first := running_step sound running.1 later.head step
    obtain ⟨last, msgs, grew, reports⟩ :=
      inductionHypothesis (sound.step step) (tallied.step first) later run
    rw [flowLog_cons rest step, ← List.append_assoc]
    refine ⟨last, ?_⟩
    cases first with
    | quiet quiet same grewFirst silent noReport =>
      refine ⟨quiet ++ msgs, by rw [grew, grewFirst, List.append_assoc], ?_⟩
      rw [reportsIn_append, silent, noReport, reports]
      rfl
    | event pos flow event gen gen' fl fl' report found flowFound generators idx flows grewFirst
        counted =>
      refine ⟨.generationReport report :: msgs, by rw [grew, grewFirst, List.append_assoc]; rfl, ?_⟩
      rw [GenLabel.reported, grewFirst, List.drop_left, List.map_append, ← reports]
      rfl

end TrafficGenerator
