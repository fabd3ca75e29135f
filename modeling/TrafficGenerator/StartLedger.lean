/-
This file follows a start request through the construction of its generators:
the buffers, the timers and the books of everything built, and of everything
undone when one of the generators throws.
-/

import TrafficGenerator.GenManager
import TrafficGenerator.LoadLedger

namespace TrafficGenerator

variable {env : Env} {ops ops' : Ops}

/-! ### `TG_ENFORCE` -/

/-- What the `TG_ENFORCE`s on the way can do: nothing as a no-op, and never undo an abort. -/
structure Env.MayAbort (env : Env) (before after : Bool) : Prop where
  noop : env.EnforceNoop → after = before
  kept : before = true → after = true

theorem Env.MayAbort.refl (aborted : Bool) : env.MayAbort aborted aborted := ⟨fun _ => rfl, id⟩

theorem Env.MayAbort.trans {first second third : Bool} (before : env.MayAbort first second)
    (after : env.MayAbort second third) : env.MayAbort first third :=
  ⟨fun noop => (after.noop noop).trans (before.noop noop), after.kept ∘ before.kept⟩

theorem Env.MayAbort.enforce (aborted cond : Bool) :
    env.MayAbort aborted (aborted || env.enforce cond) where
  noop noop := by
    rw [show env.enforce = fun _ => false from noop]
    exact Bool.or_false _
  kept before := by
    rw [before]
    rfl

/-! ### Timers -/

/-- All the flows of a generator own a timer. -/
def FlowsGenerator.OwnsTimers (gen : FlowsGenerator) : Prop :=
  ∀ flow ∈ gen.flows, flow.event.isSome

/-- The number of flows over all generators. -/
def totalFlows (gens : List FlowsGenerator) : ℕ := (gens.map fun gen => gen.flows.length).sum

theorem totalFlows_append (gens more : List FlowsGenerator) :
    totalFlows (gens ++ more) = totalFlows gens + totalFlows more := by
  rw [totalFlows, List.map_append, List.sum_append]
  rfl

theorem totalFlows_singleton (gen : FlowsGenerator) : totalFlows [gen] = gen.flows.length := by
  rw [totalFlows, List.map_singleton, List.sum_singleton]

/-- Destroying flows that own a timer returns as many timers. -/
theorem dropEvents_eq (env : Env) (flows : List Flow) (ops : Ops)
    (owned : ∀ flow ∈ flows, flow.event.isSome) :
    ∃ aborted, env.MayAbort ops.aborted aborted ∧
      flows.foldl (fun ops flow => dropEvent env flow.event ops) ops =
        { ops with cntTimers := ops.cntTimers - UInt32.ofNat flows.length, aborted } := by
  induction flows generalizing ops with
  | nil => exact ⟨ops.aborted, Env.MayAbort.refl _, by simp⟩
  | cons flow rest inductionHypothesis =>
    obtain ⟨timer, owns⟩ := Option.isSome_iff_exists.mp (owned flow List.mem_cons_self)
    obtain ⟨aborted, may, result⟩ := inductionHypothesis (retTimer env ops) fun other member =>
      owned other (List.mem_cons_of_mem _ member)
    refine ⟨aborted, (Env.MayAbort.enforce _ _).trans may, ?_⟩
    rw [List.foldl_cons, owns]
    refine result.trans ?_
    rw [List.length_cons, UInt32.ofNat_add]
    show Ops.mk _ (ops.cntTimers - 1 - _) _ _ _ _ _ _ _ _ = Ops.mk _ _ _ _ _ _ _ _ _ _
    congr 1
    show _ = ops.cntTimers - (UInt32.ofNat rest.length + 1)
    grind

/-- Destroying a generator frees its packets and returns its timers. -/
theorem FlowsGenerator.destroy_eq (env : Env) (gen : FlowsGenerator) (ops : Ops)
    (owned : gen.OwnsTimers) :
    ∃ aborted, env.MayAbort ops.aborted aborted ∧ gen.destroy env ops =
      { ops with
        pool := ops.pool.freeBulk (mbufsOf gen.pkts)
        cntTimers := ops.cntTimers - UInt32.ofNat gen.flows.length
        aborted } := by
  obtain ⟨aborted, may, result⟩ := dropEvents_eq env gen.flows ops owned
  exact ⟨aborted, may, by rw [destroy, result]; rfl⟩

/-- The buffers of the packets of several generators. -/
def gensMbufs (gens : List FlowsGenerator) : List MbufId := gens.flatMap fun gen => mbufsOf gen.pkts

theorem destroyGens_eq (env : Env) (gens : List FlowsGenerator) (ops : Ops)
    (owned : ∀ gen ∈ gens, gen.OwnsTimers) :
    ∃ aborted, env.MayAbort ops.aborted aborted ∧ destroyGens env gens ops =
      { ops with
        pool := ops.pool.freeBulk (gensMbufs gens)
        cntTimers := ops.cntTimers - UInt32.ofNat (totalFlows gens)
        aborted } := by
  induction gens generalizing ops with
  | nil => exact ⟨ops.aborted, Env.MayAbort.refl _, by simp [destroyGens, gensMbufs,
      MbufPool.freeBulk, totalFlows]⟩
  | cons gen rest inductionHypothesis =>
    obtain ⟨middle, first, destroyed⟩ := gen.destroy_eq env ops (owned gen List.mem_cons_self)
    obtain ⟨aborted, second, result⟩ := inductionHypothesis (gen.destroy env ops)
      fun other member => owned other (List.mem_cons_of_mem _ member)
    rw [destroyed] at second
    refine ⟨aborted, first.trans second, ?_⟩
    refine result.trans ?_
    rw [destroyed]
    have flows : totalFlows (gen :: rest) = gen.flows.length + totalFlows rest := by
      rw [totalFlows, List.map_cons, List.sum_cons]
      rfl
    have pool : (ops.pool.freeBulk (mbufsOf gen.pkts)).freeBulk (gensMbufs rest) =
        ops.pool.freeBulk (gensMbufs (gen :: rest)) := by
      rw [gensMbufs, gensMbufs, List.flatMap_cons]
      exact List.foldl_append.symm
    rw [flows, UInt32.ofNat_add, ← pool]
    congr 1
    grind

/-! ### Setting up the flows -/

/-- The flows after `setup_flow_events`: flow after flow, the timer is armed with the time of
the flow plus the relative time stamp of its packet. -/
def armed (pkts : List Pkt) (step : Cycles) : Cycles → List Flow → List Flow
  | _, [] => []
  | flowTsc, flow :: rest =>
    { flow with event := some { pending := some (flowTsc + (pktAt pkts flow.pktIdx).relTsc) } } ::
      armed pkts step (flowTsc + step) rest

theorem armed_length (pkts : List Pkt) (step flowTsc : Cycles) (flows : List Flow) :
    (armed pkts step flowTsc flows).length = flows.length := by
  induction flows generalizing flowTsc with
  | nil => rfl
  | cons flow rest inductionHypothesis =>
    exact congrArg (· + 1) (inductionHypothesis (flowTsc + step))

/-- An armed flow is one of the flows, with a pending timer. -/
theorem mem_armed {pkts : List Pkt} {step flowTsc : Cycles} {flows : List Flow} {flow : Flow}
    (member : flow ∈ armed pkts step flowTsc flows) :
    ∃ before ∈ flows, ∃ delay, flow = { before with event := some { pending := some delay } } := by
  induction flows generalizing flowTsc with
  | nil => exact absurd member List.not_mem_nil
  | cons first rest inductionHypothesis =>
    rcases List.mem_cons.mp member with rfl | member
    · exact ⟨first, List.mem_cons_self, _, rfl⟩
    · obtain ⟨before, among, shape⟩ := inductionHypothesis member
      exact ⟨before, List.mem_cons_of_mem _ among, shape⟩

theorem armFlows_eq (env : Env) (pkts : List Pkt) (step flowTsc : Cycles) (flows : List Flow)
    (ops : Ops) :
    ∃ aborted, env.MayAbort ops.aborted aborted ∧ armFlows env pkts step flowTsc flows ops =
      (armed pkts step flowTsc flows,
        { ops with cntTimers := ops.cntTimers + UInt32.ofNat flows.length, aborted }) := by
  induction flows generalizing flowTsc ops with
  | nil => exact ⟨ops.aborted, Env.MayAbort.refl _, by simp [armFlows, armed]⟩
  | cons flow rest inductionHypothesis =>
    obtain ⟨aborted, may, result⟩ := inductionHypothesis (flowTsc + step)
      (tgEnforce env (rteTimerResult == 0) { ops with cntTimers := ops.cntTimers + 1 })
    refine ⟨aborted, (Env.MayAbort.enforce _ _).trans may, ?_⟩
    simp only [armFlows, createSchedulerEvent, scheduleSingle, getTimer, Option.map_some, result,
      armed, List.length_cons, UInt32.ofNat_add]
    refine Prod.ext rfl ?_
    show Ops.mk _ (ops.cntTimers + 1 + _) _ _ _ _ _ _ _ _ = Ops.mk _ _ _ _ _ _ _ _ _ _
    congr 1
    show _ = ops.cntTimers + (UInt32.ofNat rest.length + 1)
    grind

/-- The flows after `setup_flow_events`. -/
def FlowsGenerator.withEvents (gen : FlowsGenerator) (hz : UInt64) : FlowsGenerator :=
  { gen with flows := armed gen.pkts (flowTscStep hz gen.flows.length) 0 gen.flows }

/-- Setting up the events arms a timer for every flow, unless there are too many flows for the
clock. -/
theorem setupFlowEvents_eq (env : Env) (gen : FlowsGenerator) (ops : Ops)
    (fits : flowTscStep env.hz gen.flows.length ≠ 0) :
    ∃ aborted, env.MayAbort ops.aborted aborted ∧ gen.setupFlowEvents env ops =
      (.ok (gen.withEvents env.hz),
        { ops with cntTimers := ops.cntTimers + UInt32.ofNat gen.flows.length, aborted }) := by
  obtain ⟨aborted, may, result⟩ := armFlows_eq env gen.pkts
    (flowTscStep env.hz gen.flows.length) 0 gen.flows ops
  refine ⟨aborted, may, ?_⟩
  rw [FlowsGenerator.setupFlowEvents]
  dsimp only
  rw [if_neg fits, result]
  rfl

theorem setupFlows_length (clnIpAddrs srvIpAddrs : AddrRange) (burstCnt : UInt32) (count : ℕ)
    (idx : UInt32) (cursor : AddrCursor) :
    (setupFlows clnIpAddrs srvIpAddrs burstCnt count idx cursor).1.length = count := by
  induction count generalizing idx cursor with
  | zero => rfl
  | succ count inductionHypothesis => exact congrArg (· + 1) (inductionHypothesis _ _)

/-- A generator has as many flows as its configuration asks for. -/
theorem withFlows_length (cfg : FlowsGeneratorConfig) (pkts : List Pkt) :
    (FlowsGenerator.withFlows cfg pkts).flows.length = cfg.flowsPerSec.toNat :=
  setupFlows_length _ _ _ _ _ _

/-- A flow that `setup_flows` creates has no timer and has emitted nothing. -/
theorem mem_setupFlows {clnIpAddrs srvIpAddrs : AddrRange} {burstCnt idx : UInt32} {count : ℕ}
    {cursor : AddrCursor} {flow : Flow}
    (member : flow ∈ (setupFlows clnIpAddrs srvIpAddrs burstCnt count idx cursor).1) :
    flow.cntPkts = 0 ∧ flow.pktIdx = 0 := by
  induction count generalizing idx cursor with
  | zero => exact absurd member List.not_mem_nil
  | succ count inductionHypothesis =>
    rcases List.mem_cons.mp member with rfl | member
    · exact ⟨rfl, rfl⟩
    · exact inductionHypothesis member

/-- A generator as its constructor leaves it. -/
structure FlowsGenerator.Fresh (gen : FlowsGenerator) : Prop where
  pkts : gen.pkts ≠ []
  armed : ∀ flow ∈ gen.flows, flow.event.armed
  unused : ∀ flow ∈ gen.flows, flow.cntPkts = 0 ∧ flow.pktIdx = 0

theorem EventHandle.isSome_of_armed {event : EventHandle} (armed : event.armed) :
    event.isSome := by
  cases event with
  | none => exact absurd armed (by simp [EventHandle.armed])
  | some timer => rfl

theorem FlowsGenerator.Fresh.ownsTimers {gen : FlowsGenerator} (fresh : gen.Fresh) :
    gen.OwnsTimers := fun flow member => EventHandle.isSome_of_armed (fresh.armed flow member)

/-- The books of a list of generators that was built, or of nothing when it was undone. -/
structure Built (env : Env) (before after : Ops) (gens : List FlowsGenerator) : Prop where
  frame : before.Frame after
  aborted : env.MayAbort before.aborted after.aborted
  cntTimers : after.cntTimers = before.cntTimers + UInt32.ofNat (totalFlows gens)
  books : before.pool.Books env.answers after.pool (gensMbufs gens)
  fresh : ∀ gen ∈ gens, gen.Fresh

theorem Built.refl (ops : Ops) : Built env ops ops [] where
  frame := Ops.Frame.refl ops
  aborted := Env.MayAbort.refl _
  cntTimers := by simp [totalFlows]
  books := MbufPool.Books.refl _
  fresh := by simp

theorem Built.trans {ops'' : Ops} {gens more : List FlowsGenerator}
    (first : Built env ops ops' gens) (second : Built env ops' ops'' more) :
    Built env ops ops'' (gens ++ more) where
  frame := first.frame.trans second.frame
  aborted := first.aborted.trans second.aborted
  cntTimers := by
    rw [second.cntTimers, first.cntTimers, totalFlows_append, UInt32.ofNat_add, UInt32.add_assoc]
  books := by
    rw [gensMbufs, List.flatMap_append]
    exact first.books.trans second.books
  fresh gen member := by
    rcases List.mem_append.mp member with member | member
    · exact first.fresh gen member
    · exact second.fresh gen member

/-- When nothing was built, only the pool and the count of failed allocations differ. -/
theorem Built.eq_of_nil (built : Built env ops ops' []) :
    ops' = { ops with
      pool := ops'.pool
      cntTxPktsNombuf := ops'.cntTxPktsNombuf
      aborted := ops'.aborted } :=
  Ops.ext rfl (built.cntTimers.trans (UInt32.add_zero _)) built.frame.txPkts
    built.frame.cntTxPktsQfull rfl built.frame.ethStats built.frame.sent built.frame.bursts
    built.frame.outMsgs rfl

/-- Destroying what was built undoes it. -/
theorem Built.destroy {gens : List FlowsGenerator} (built : Built env ops ops' gens) :
    Built env ops (destroyGens env gens ops') [] := by
  obtain ⟨aborted, may, result⟩ := destroyGens_eq env gens ops' fun gen member =>
    (built.fresh gen member).ownsTimers
  rw [result]
  refine ⟨built.frame.trans ⟨rfl, rfl, rfl, rfl, rfl, rfl⟩, built.aborted.trans may, ?_,
    built.books.free, by simp⟩
  show ops'.cntTimers - _ = _
  rw [built.cntTimers]
  show _ = ops.cntTimers + UInt32.ofNat 0
  grind

/-- A generator is built from the packets loaded unless there are too many flows. -/
theorem FlowsGenerator.construct_loaded {cfg : FlowsGeneratorConfig} {pkts : List Pkt}
    (loaded : loadPkts env cfg ops = (.ok pkts, ops'))
    (fits : flowTscStep env.hz (withFlows cfg pkts).flows.length ≠ 0) :
    ∃ aborted, env.MayAbort ops'.aborted aborted ∧ construct env cfg ops =
      (.ok ((withFlows cfg pkts).withEvents env.hz), { ops' with
        cntTimers := ops'.cntTimers + UInt32.ofNat (withFlows cfg pkts).flows.length
        aborted }) := by
  obtain ⟨aborted, may, result⟩ := setupFlowEvents_eq env (withFlows cfg pkts)
    (tgEnforce env (1 ≤ cfg.burst) ops') fits
  refine ⟨aborted, (Env.MayAbort.enforce _ _).trans may, ?_⟩
  rw [construct, loaded]
  dsimp only
  rw [result]
  rfl

/-- What the constructor of a generator does: loading throws, or there are too many flows and the
packets are freed, or the generator is built from the packets. -/
theorem FlowsGenerator.construct_cases {cfg : FlowsGeneratorConfig}
    {res : Except Thrown FlowsGenerator} (run : construct env cfg ops = (res, ops')) :
    (∃ thrown, res = .error thrown ∧ loadPkts env cfg ops = (.error thrown, ops')) ∨
    (∃ pkts middle thrown aborted, loadPkts env cfg ops = (.ok pkts, middle) ∧
      res = .error thrown ∧ env.MayAbort middle.aborted aborted ∧
      ops' = freePkts (mbufsOf pkts) { middle with aborted }) ∨
    (∃ pkts middle aborted, loadPkts env cfg ops = (.ok pkts, middle) ∧
      res = .ok ((withFlows cfg pkts).withEvents env.hz) ∧
      env.MayAbort middle.aborted aborted ∧ ops' = { middle with
        cntTimers := middle.cntTimers + UInt32.ofNat (withFlows cfg pkts).flows.length
        aborted }) := by
  cases loaded : loadPkts env cfg ops with
  | mk res' middle =>
    cases res' with
    | error thrown =>
      rw [construct, loaded] at run
      obtain ⟨rfl, rfl⟩ := run
      exact Or.inl ⟨thrown, rfl, rfl⟩
    | ok pkts =>
      refine Or.inr ?_
      by_cases fits : flowTscStep env.hz (withFlows cfg pkts).flows.length = 0
      · rw [construct, loaded] at run
        dsimp only at run
        rw [setupFlowEvents] at run
        dsimp only at run
        rw [if_pos fits] at run
        obtain ⟨rfl, rfl⟩ := run
        exact Or.inl ⟨pkts, middle, _, _, rfl, rfl, Env.MayAbort.enforce _ _, rfl⟩
      · obtain ⟨aborted, may, result⟩ := construct_loaded loaded fits
        obtain ⟨rfl, rfl⟩ := Prod.mk.inj (run.symm.trans result)
        exact Or.inr ⟨pkts, middle, aborted, rfl, rfl, may, rfl⟩

/-- A generator that was built was built from packets that were loaded. -/
theorem FlowsGenerator.construct_ok {cfg : FlowsGeneratorConfig} {gen : FlowsGenerator}
    (run : construct env cfg ops = (.ok gen, ops')) :
    ∃ pkts middle, loadPkts env cfg ops = (.ok pkts, middle) ∧
      gen = (withFlows cfg pkts).withEvents env.hz ∧ ops'.pool = middle.pool := by
  rcases construct_cases run with ⟨thrown, failed, -⟩ | ⟨pkts, middle, thrown, -, -, failed, -⟩ |
    ⟨pkts, middle, aborted, loaded, built, -, rfl⟩
  · exact absurd failed (by simp)
  · exact absurd failed (by simp)
  · exact ⟨pkts, middle, loaded, Except.ok.inj built, rfl⟩

/-- The constructor of a generator: one generator was built, or everything is undone. -/
theorem FlowsGenerator.construct_spec {cfg : FlowsGeneratorConfig}
    {res : Except Thrown FlowsGenerator} (run : construct env cfg ops = (res, ops')) :
    Built env ops ops' res.toOption.toList := by
  rcases construct_cases run with ⟨thrown, rfl, failed⟩ |
    ⟨pkts, middle, thrown, aborted, loaded, rfl, may, rfl⟩ |
    ⟨pkts, middle, aborted, loaded, rfl, may, rfl⟩
  · obtain ⟨frame, books, -⟩ := loadPkts_spec failed
    show Built env ops _ []
    exact ⟨frame.toFrame, by rw [frame.aborted]; exact Env.MayAbort.refl _,
      by rw [frame.cntTimers]; simp [totalFlows], books, by simp⟩
  · obtain ⟨frame, books, -⟩ := loadPkts_spec loaded
    show Built env ops _ []
    refine ⟨frame.toFrame.trans ⟨rfl, rfl, rfl, rfl, rfl, rfl⟩, ?_, ?_, books.free, by simp⟩
    · rw [← frame.aborted]
      exact may
    · show middle.cntTimers = ops.cntTimers + UInt32.ofNat 0
      rw [frame.cntTimers]
      exact (UInt32.add_zero _).symm
  · obtain ⟨frame, books, some⟩ := loadPkts_spec loaded
    show Built env ops _ [(withFlows cfg pkts).withEvents env.hz]
    refine ⟨frame.toFrame.trans ⟨rfl, rfl, rfl, rfl, rfl, rfl⟩, ?_, ?_, ?_, ?_⟩
    · rw [← frame.aborted]
      exact may
    · show middle.cntTimers + _ = _
      rw [frame.cntTimers, totalFlows_singleton, withEvents, armed_length]
    · rw [gensMbufs, List.flatMap_singleton]
      exact books
    · intro gen member
      obtain rfl := List.mem_singleton.mp member
      refine ⟨some pkts rfl, fun flow among => ?_, fun flow among => ?_⟩
      · obtain ⟨before, -, delay, rfl⟩ := mem_armed among
        rfl
      · obtain ⟨before, created, delay, rfl⟩ := mem_armed among
        have unused : before.cntPkts = 0 ∧ before.pktIdx = 0 := mem_setupFlows created
        exact unused

/-- The `try` block of the start handler: all the generators were built, or everything is
undone, those built before the failing one included. -/
theorem createGens_spec {workingDir : String} {dutAddress : EtherAddr} {idx : UInt32}
    {caps : List FlowsConfig} {gens : List FlowsGenerator} {start ops : Ops}
    {res : Except Thrown (List FlowsGenerator)} (built : Built env start ops gens)
    (run : createGens env workingDir dutAddress idx caps gens ops = (res, ops')) :
    Built env start ops' (res.toOption.getD []) := by
  induction caps generalizing idx gens ops with
  | nil =>
    obtain ⟨rfl, rfl⟩ := run
    exact built
  | cons cap rest inductionHypothesis =>
    rw [createGens] at run
    split at run
    · next failed =>
      obtain ⟨rfl, rfl⟩ := run
      have undone : Built env start _ (gens ++ []) :=
        built.trans (FlowsGenerator.construct_spec failed)
      rw [List.append_nil] at undone
      exact undone.destroy
    · next gen middle one =>
      have more : Built env start middle (gens ++ [gen]) :=
        built.trans (FlowsGenerator.construct_spec one)
      exact inductionHypothesis more run

end TrafficGenerator
