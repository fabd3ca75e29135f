/-
This file is about the addresses a generator hands out: every flow is given a
pair when it is set up, and another one whenever its stream restarts. Numbered
over all flows in the order in which they happen, the assignments follow one
law: assignment `j` takes host number `j / burst` of both ranges, each range
starting over after its last host.

The place in the burst and the two iterators are advanced in the constructor and
in the timer callback, once for each assignment. So the number of assignments so
far says where all three of them are, and that is the invariant of a run.
-/

import TrafficGenerator.Replay

namespace TrafficGenerator

variable {env : Env}

/-! ### The hosts of a range -/

/-- The number of addresses of a range. -/
def AddrRange.size (rng : AddrRange) : ℕ := (rng.last - rng.first).toNat

/-- A host of a range by its number in ascending order, from the first one again after the
last. -/
def AddrRange.host (rng : AddrRange) (num : ℕ) : UInt32 :=
  rng.first + UInt32.ofNat (num % rng.size)

theorem AddrRange.size_lt (rng : AddrRange) : rng.size < 2 ^ 32 := UInt32.toNat_lt _

theorem AddrRange.last_eq (rng : AddrRange) : rng.last = rng.first + UInt32.ofNat rng.size := by
  rw [size, UInt32.ofNat_toNat]
  grind

theorem AddrRange.host_zero (rng : AddrRange) : rng.host 0 = rng.first := by
  rw [host, Nat.zero_mod]
  exact UInt32.add_zero _

/-- The successor modulo a number. -/
theorem succ_mod_eq {size : ℕ} (nonempty : 0 < size) (num : ℕ) :
    (num + 1) % size = if num % size + 1 = size then 0 else num % size + 1 := by
  have below := Nat.mod_lt num nonempty
  rw [← Nat.mod_add_mod]
  split
  · next last => rw [last, Nat.mod_self]
  · next more => exact Nat.mod_eq_of_lt (by omega)

/-- The quotient grows when the remainder is reset. -/
theorem succ_div_eq {size : ℕ} (nonempty : 0 < size) (num : ℕ) :
    (num + 1) / size = if num % size + 1 = size then num / size + 1 else num / size := by
  have whole := Nat.div_add_mod num size
  have below := Nat.mod_lt num nonempty
  split
  · next last =>
    refine Nat.div_eq_of_lt_le ?_ ?_
    · rw [Nat.add_mul, Nat.mul_comm]
      omega
    · rw [Nat.add_mul, Nat.add_mul, Nat.mul_comm]
      omega
  · next more =>
    refine Nat.div_eq_of_lt_le ?_ ?_
    · rw [Nat.mul_comm]
      omega
    · rw [Nat.add_mul, Nat.mul_comm]
      omega

/-- Two places of a range are the same address only when they have the same number. -/
theorem UInt32.add_ofNat_inj {base : UInt32} {first second : ℕ} (firstBound : first < 2 ^ 32)
    (secondBound : second < 2 ^ 32) :
    base + UInt32.ofNat first = base + UInt32.ofNat second ↔ first = second := by
  constructor
  · intro same
    have numbers : UInt32.ofNat first = UInt32.ofNat second := by grind
    have nats := congrArg UInt32.toNat numbers
    rwa [UInt32.toNat_ofNat_of_lt' firstBound, UInt32.toNat_ofNat_of_lt' secondBound] at nats
  · intro same
    rw [same]

/-- An iterator at a host moves on to the next one. In a range without hosts, which an iterator
never finds the end of, it counts up. -/
theorem incReset_host (rng : AddrRange) (num : ℕ) :
    (incReset (rng.host num) rng.first rng.last).2 = rng.host (num + 1) := by
  have next : rng.host num + 1 = rng.first + UInt32.ofNat (num % rng.size + 1) := by
    rw [AddrRange.host, UInt32.ofNat_add, UInt32.add_assoc]
    rfl
  rw [incReset, next]
  rcases Nat.eq_zero_or_pos rng.size with empty | nonempty
  · have same : rng.last = rng.first := by
      rw [rng.last_eq, empty]
      exact UInt32.add_zero _
    rw [AddrRange.host, empty, Nat.mod_zero, Nat.mod_zero]
    split
    · next last => exact (last.trans same).symm
    · rfl
  · have below := Nat.mod_lt num nonempty
    have bound := rng.size_lt
    rw [rng.last_eq, AddrRange.host, succ_mod_eq nonempty]
    by_cases last : num % rng.size + 1 = rng.size
    · rw [if_pos last, if_pos (by rw [last])]
      exact (UInt32.add_zero _).symm
    · rw [if_neg last, if_neg]
      exact fun same => last ((UInt32.add_ofNat_inj (by omega) bound).mp same)

/-! ### The three counters -/

/-- Where the place in the burst and the two iterators are after a number of assignments. -/
structure AddrCursor.After (clnIpAddrs srvIpAddrs : AddrRange) (burstCnt : UInt32) (count : ℕ)
    (cursor : AddrCursor) : Prop where
  clnIpAddr : cursor.clnIpAddr = clnIpAddrs.host (count / burstCnt.toNat)
  srvIpAddr : cursor.srvIpAddr = srvIpAddrs.host (count / burstCnt.toNat)
  burstIdx : cursor.burstIdx.toNat = count % burstCnt.toNat

/-- Before the first assignment they are at their beginnings. -/
theorem AddrCursor.after_zero (clnIpAddrs srvIpAddrs : AddrRange) (burstCnt : UInt32) :
    AddrCursor.After clnIpAddrs srvIpAddrs burstCnt 0
      { clnIpAddr := clnIpAddrs.first, srvIpAddr := srvIpAddrs.first, burstIdx := 0 } where
  clnIpAddr := by rw [Nat.zero_div, AddrRange.host_zero]
  srvIpAddr := by rw [Nat.zero_div, AddrRange.host_zero]
  burstIdx := (Nat.zero_mod _).symm

/-- The place in the burst after one more assignment. -/
theorem incReset_burstIdx {burstIdx burstCnt : UInt32} {count : ℕ} (burst : 0 < burstCnt.toNat)
    (place : burstIdx.toNat = count % burstCnt.toNat) :
    (incReset burstIdx 0 burstCnt).1 = decide (count % burstCnt.toNat + 1 = burstCnt.toNat) ∧
      (incReset burstIdx 0 burstCnt).2.toNat = (count + 1) % burstCnt.toNat := by
  have below := Nat.mod_lt count burst
  have bound := burstCnt.toNat_lt
  have next : (burstIdx + 1).toNat = count % burstCnt.toNat + 1 := by
    rw [UInt32.toNat_add, place]
    exact Nat.mod_eq_of_lt (Nat.lt_of_le_of_lt below bound)
  have full : burstIdx + 1 = burstCnt ↔ count % burstCnt.toNat + 1 = burstCnt.toNat := by
    rw [← UInt32.toNat_inj, next]
  rw [incReset, succ_mod_eq burst]
  by_cases last : count % burstCnt.toNat + 1 = burstCnt.toNat
  · rw [if_pos (full.mpr last), if_pos last, decide_eq_true last]
    exact ⟨rfl, rfl⟩
  · rw [if_neg (mt full.mp last), if_neg last, decide_eq_false last]
    exact ⟨rfl, next⟩

/-- One more assignment. -/
theorem AddrCursor.After.next {clnIpAddrs srvIpAddrs : AddrRange} {burstCnt : UInt32} {count : ℕ}
    {cursor : AddrCursor} (burst : 0 < burstCnt.toNat)
    (after : cursor.After clnIpAddrs srvIpAddrs burstCnt count) :
    (nextAddrs clnIpAddrs srvIpAddrs burstCnt cursor).After clnIpAddrs srvIpAddrs burstCnt
      (count + 1) := by
  obtain ⟨reset, place⟩ := incReset_burstIdx burst after.burstIdx
  have quotient := succ_div_eq burst count
  rw [nextAddrs]
  dsimp only
  by_cases last : count % burstCnt.toNat + 1 = burstCnt.toNat
  · rw [if_pos last] at quotient
    rw [reset, if_pos (decide_eq_true last)]
    refine ⟨?_, ?_, place⟩
    · rw [quotient, ← incReset_host, ← after.clnIpAddr]
    · rw [quotient, ← incReset_host, ← after.srvIpAddr]
  · rw [if_neg last] at quotient
    rw [reset, if_neg (by rwa [decide_eq_true_iff])]
    refine ⟨?_, ?_, place⟩
    · rw [quotient]
      exact after.clnIpAddr
    · rw [quotient]
      exact after.srvIpAddr

/-- The flows that `setup_flows` creates take the pairs of as many assignments. -/
theorem setupFlows_after {clnIpAddrs srvIpAddrs : AddrRange} {burstCnt : UInt32}
    (burst : 0 < burstCnt.toNat) (flows : ℕ) (idx : UInt32) {count : ℕ} {cursor : AddrCursor}
    (after : cursor.After clnIpAddrs srvIpAddrs burstCnt count) :
    (setupFlows clnIpAddrs srvIpAddrs burstCnt flows idx cursor).2.After clnIpAddrs srvIpAddrs
        burstCnt (count + flows) ∧
      ∀ pos fl, (setupFlows clnIpAddrs srvIpAddrs burstCnt flows idx cursor).1[pos]? = some fl →
        fl.clnIpAddr = clnIpAddrs.host ((count + pos) / burstCnt.toNat) ∧
        fl.srvIpAddr = srvIpAddrs.host ((count + pos) / burstCnt.toNat) := by
  induction flows generalizing idx count cursor with
  | zero => exact ⟨after, fun pos fl found => absurd found (by simp [setupFlows])⟩
  | succ flows inductionHypothesis =>
    obtain ⟨last, rest⟩ := inductionHypothesis (idx + 1) (after.next burst)
    rw [Nat.add_right_comm] at last
    refine ⟨last, ?_⟩
    rintro (_ | pos) fl found
    · obtain rfl := Option.some.inj found
      exact ⟨after.clnIpAddr, after.srvIpAddr⟩
    · rw [show count + (pos + 1) = count + 1 + pos by omega]
      exact rest pos fl found

/-! ### The assignments of a run -/

/-- A flow, by its position, and the pair of addresses it is given. -/
structure Assignment where
  flow : ℕ
  clnIpAddr : UInt32
  srvIpAddr : UInt32
deriving DecidableEq

/-- The pair a flow has. -/
def assignmentOf (pos : ℕ) (fl : Flow) : Assignment := ⟨pos, fl.clnIpAddr, fl.srvIpAddr⟩

/-- What an event assigns: when the stream of its flow restarts, the pair the flow has then. -/
def restart (gen next : FlowsGenerator) (flow : ℕ) : Option Assignment :=
  if gen.flows[flow]?.any fun fl => (gen.nextPkt fl).1 then
    next.flows[flow]?.map (assignmentOf flow)
  else none

/-- The assignments made by the events of a run, in order. -/
def restarts (env : Env) : FlowsGenerator → List FlowEvent → List Assignment
  | _, [] => []
  | gen, event :: rest =>
    match replayStep env gen event with
    | none => []
    | some next => (restart gen next event.flow).toList ++ restarts env next rest

/-- All assignments of a run: those of the flows as they are set up, in the order of the flows, and
those of the events. -/
def assignments (env : Env) (gen : FlowsGenerator) (events : List FlowEvent) : List Assignment :=
  gen.flows.mapIdx assignmentOf ++ restarts env gen events

/-- The addresses a flow has while it emits a packet. -/
theorem emitPkt_addrs (env : Env) (gen : FlowsGenerator) (event : EventIn) (fl : Flow)
    (ops : Ops) :
    (gen.emitPkt env event fl ops).1.clnIpAddr = fl.clnIpAddr ∧
      (gen.emitPkt env event fl ops).1.srvIpAddr = fl.srvIpAddr := by
  rw [emitPkt_flow]
  exact ⟨rfl, rfl⟩

/-- What one event does to the addresses: its flow takes the pair of the iterators, which move
on, or nothing changes. -/
structure AddrStep (gen next : FlowsGenerator) (flow : ℕ) : Prop where
  clnIpAddrs : next.clnIpAddrs = gen.clnIpAddrs
  srvIpAddrs : next.srvIpAddrs = gen.srvIpAddrs
  burstCnt : next.burstCnt = gen.burstCnt
  others : ∀ pos ≠ flow, next.flows[pos]? = gen.flows[pos]?
  self : ∃ fl fl', gen.flows[flow]? = some fl ∧ next.flows[flow]? = some fl' ∧
    (restart gen next flow = some (assignmentOf flow fl') ∧
        fl'.clnIpAddr = gen.cursor.clnIpAddr ∧ fl'.srvIpAddr = gen.cursor.srvIpAddr ∧
        next.cursor = nextAddrs gen.clnIpAddrs gen.srvIpAddrs gen.burstCnt gen.cursor ∨
      restart gen next flow = none ∧ fl'.clnIpAddr = fl.clnIpAddr ∧
        fl'.srvIpAddr = fl.srvIpAddr ∧ next.cursor = gen.cursor)

theorem replayStep_addrs {gen next : FlowsGenerator} {event : FlowEvent}
    (step : replayStep env gen event = some next) : AddrStep gen next event.flow := by
  obtain ⟨fl, found, -, -, others, self⟩ := replayStep_spec step
  obtain ⟨fl', foundAgain, -, result⟩ := replayStep_eq_some.mp step
  obtain rfl := Option.some.inj (found.symm.trans foundAgain)
  rw [onFlowEvent_eq gen event.event found] at result
  have cursor : next.cursor = (gen.nextPkt { fl with event := fired fl.event }).2.2 := by
    rw [result]
  obtain ⟨cln, srv⟩ := emitPkt_addrs env gen event.event (gen.advanced fl) event.ops
  refine ⟨by rw [result], by rw [result], by rw [result], others, fl, _, found, self, ?_⟩
  have restarted : gen.flows[event.flow]?.any (fun fl => (gen.nextPkt fl).1) =
      decide ((fl.pktIdx + 1).toNat = gen.pkts.length) := by
    rw [found, Option.any_some, nextPkt_newPair]
  rw [cln, srv, cursor, restart, restarted, self, FlowsGenerator.advanced, FlowsGenerator.nextPkt]
  by_cases last : (fl.pktIdx + 1).toNat = gen.pkts.length
  · rw [if_pos last, if_pos (decide_eq_true last)]
    exact Or.inl ⟨rfl, rfl, rfl, rfl⟩
  · rw [if_neg last, if_neg (by rwa [decide_eq_true_iff])]
    exact Or.inr ⟨rfl, rfl, rfl, rfl⟩

/-- The cursor of a generator is where a number of assignments leaves it. -/
def FlowsGenerator.Assigned (gen : FlowsGenerator) (count : ℕ) : Prop :=
  gen.cursor.After gen.clnIpAddrs gen.srvIpAddrs gen.burstCnt count

/-- One event, with the assignment it makes. -/
theorem FlowsGenerator.Assigned.step {gen next : FlowsGenerator} {event : FlowEvent} {count : ℕ}
    (burst : 0 < gen.burstCnt.toNat) (assigned : gen.Assigned count)
    (step : replayStep env gen event = some next) :
    next.Assigned (count + (restart gen next event.flow).toList.length) ∧
      ∀ assignment ∈ restart gen next event.flow,
        assignment.clnIpAddr = gen.clnIpAddrs.host (count / gen.burstCnt.toNat) ∧
        assignment.srvIpAddr = gen.srvIpAddrs.host (count / gen.burstCnt.toNat) := by
  obtain ⟨clnIpAddrs, srvIpAddrs, burstCnt, -, fl, fl', -, -, cases⟩ := replayStep_addrs step
  rw [Assigned, clnIpAddrs, srvIpAddrs, burstCnt]
  rcases cases with ⟨made, cln, srv, cursor⟩ | ⟨made, -, -, cursor⟩
  · rw [made, cursor]
    refine ⟨AddrCursor.After.next burst assigned, fun assignment member => ?_⟩
    obtain rfl := Option.some.inj member
    exact ⟨cln.trans assigned.clnIpAddr, srv.trans assigned.srvIpAddr⟩
  · rw [made, cursor]
    exact ⟨assigned, fun assignment member => absurd member (Option.not_mem_none _)⟩

/-- The assignments of the events of a run go on where the iterators are. -/
theorem restarts_law (env : Env) (events : List FlowEvent) {gen : FlowsGenerator} {count : ℕ}
    (burst : 0 < gen.burstCnt.toNat) (assigned : gen.Assigned count) :
    ∀ pos assignment, (restarts env gen events)[pos]? = some assignment →
      assignment.clnIpAddr = gen.clnIpAddrs.host ((count + pos) / gen.burstCnt.toNat) ∧
      assignment.srvIpAddr = gen.srvIpAddrs.host ((count + pos) / gen.burstCnt.toNat) := by
  induction events generalizing gen count with
  | nil => exact fun pos assignment found => absurd found (by simp [restarts])
  | cons event rest inductionHypothesis =>
    intro pos assignment found
    rw [restarts] at found
    split at found
    · exact absurd found (by simp)
    · next next step =>
      obtain ⟨clnIpAddrs, srvIpAddrs, burstCnt, -, -⟩ := replayStep_addrs step
      obtain ⟨assigned, made⟩ := assigned.step burst step
      have law := inductionHypothesis (by rwa [burstCnt]) assigned
      rw [clnIpAddrs, srvIpAddrs, burstCnt] at law
      cases first : restart gen next event.flow with
      | none =>
        rw [first] at found law
        exact law pos assignment found
      | some new =>
        rw [first] at found law made
        cases pos with
        | zero =>
          obtain rfl := Option.some.inj found
          exact made new rfl
        | succ pos =>
          rw [show count + (pos + 1) = count + 1 + pos by omega]
          exact law pos assignment found

/-! ### A generator from its construction on -/

/-- What the constructor leaves: as many flows as configured, each with the pair of its number,
and the iterators after that many assignments. -/
structure Constructed (cfg : FlowsGeneratorConfig) (gen : FlowsGenerator) : Prop where
  clnIpAddrs : gen.clnIpAddrs = cfg.clnIpAddrs.hosts
  srvIpAddrs : gen.srvIpAddrs = cfg.srvIpAddrs.hosts
  burstCnt : gen.burstCnt = cfg.burst
  length : gen.flows.length = cfg.flowsPerSec.toNat
  assigned : gen.Assigned cfg.flowsPerSec.toNat
  addrs : ∀ pos fl, gen.flows[pos]? = some fl →
    fl.clnIpAddr = cfg.clnIpAddrs.hosts.host (pos / cfg.burst.toNat) ∧
    fl.srvIpAddr = cfg.srvIpAddrs.hosts.host (pos / cfg.burst.toNat)

theorem constructed {cfg : FlowsGeneratorConfig} {ops ops' : Ops} {gen : FlowsGenerator}
    (burst : 0 < cfg.burst.toNat)
    (built : FlowsGenerator.construct env cfg ops = (.ok gen, ops')) : Constructed cfg gen := by
  obtain ⟨pkts, -, -, rfl, -⟩ := FlowsGenerator.construct_ok built
  obtain ⟨cursor, addrs⟩ := setupFlows_after burst cfg.flowsPerSec.toNat 0
    (AddrCursor.after_zero cfg.clnIpAddrs.hosts cfg.srvIpAddrs.hosts cfg.burst)
  rw [Nat.zero_add] at cursor
  refine ⟨rfl, rfl, rfl, ?_, cursor, fun pos fl found => ?_⟩
  · rw [FlowsGenerator.withEvents, armed_length, withFlows_length]
  · rw [FlowsGenerator.withEvents, armed_getElem?] at found
    obtain ⟨before, foundBefore, rfl⟩ := Option.map_eq_some_iff.mp found
    have pair := addrs pos before foundBefore
    rwa [Nat.zero_add] at pair

/-- The law of the assignments: flow after flow first, and number `j / burst` of both ranges for
assignment `j`. -/
structure Rotates (cfg : FlowsGeneratorConfig) (log : List Assignment) : Prop where
  flows : ∀ flow < cfg.flowsPerSec.toNat,
    ∃ assignment, log[flow]? = some assignment ∧ assignment.flow = flow
  clnIpAddr : ∀ pos assignment, log[pos]? = some assignment →
    assignment.clnIpAddr = cfg.clnIpAddrs.hosts.host (pos / cfg.burst.toNat)
  srvIpAddr : ∀ pos assignment, log[pos]? = some assignment →
    assignment.srvIpAddr = cfg.srvIpAddrs.hosts.host (pos / cfg.burst.toNat)

/-- Every pair of addresses that is assigned in a run, for any packets and in any order of the
events. -/
theorem assignment_addrs {cfg : FlowsGeneratorConfig} {gen : FlowsGenerator}
    (burst : 0 < cfg.burst.toNat) (start : Constructed cfg gen) (events : List FlowEvent) :
    ∀ pos assignment, (assignments env gen events)[pos]? = some assignment →
      assignment.clnIpAddr = cfg.clnIpAddrs.hosts.host (pos / cfg.burst.toNat) ∧
      assignment.srvIpAddr = cfg.srvIpAddrs.hosts.host (pos / cfg.burst.toNat) := by
  intro pos assignment found
  have length : (gen.flows.mapIdx assignmentOf).length = cfg.flowsPerSec.toNat := by
    rw [List.length_mapIdx, start.length]
  rw [assignments] at found
  rcases Nat.lt_or_ge pos cfg.flowsPerSec.toNat with initial | later
  · rw [List.getElem?_append_left (by rwa [length]), List.getElem?_mapIdx] at found
    obtain ⟨fl, foundFl, rfl⟩ := Option.map_eq_some_iff.mp found
    exact start.addrs pos fl foundFl
  · rw [List.getElem?_append_right (by rwa [length]), length] at found
    have law := restarts_law env events (by rwa [start.burstCnt]) start.assigned _ _ found
    rwa [start.clnIpAddrs, start.srvIpAddrs, start.burstCnt, Nat.add_sub_cancel' later] at law

/-- The addresses rotate over a whole run: all the assignments of a generator, those of its
constructor and those of any sequence of events, follow the law. -/
theorem addresses_rotate (env : Env) (cfg : FlowsGeneratorConfig) {ops ops' : Ops}
    {gen : FlowsGenerator} (burst : 1 ≤ cfg.burst.toNat)
    (built : FlowsGenerator.construct env cfg ops = (.ok gen, ops')) (events : List FlowEvent) :
    Rotates cfg (assignments env gen events) := by
  have start := constructed burst built
  refine ⟨fun flow among => ?_, fun pos assignment found => ?_, fun pos assignment found => ?_⟩
  · have bound : flow < gen.flows.length := by rwa [start.length]
    refine ⟨assignmentOf flow gen.flows[flow], ?_, rfl⟩
    rw [assignments, List.getElem?_append_left (by rwa [List.length_mapIdx]), List.getElem?_mapIdx,
      List.getElem?_eq_getElem bound]
    rfl
  · exact (assignment_addrs burst start events pos assignment found).1
  · exact (assignment_addrs burst start events pos assignment found).2

/-- The sample capture has one packet, so each event restarts its flow. -/
theorem addresses_rotate_sample : ∃ gen ops',
    FlowsGenerator.construct (sampleEnv samplePool) sampleGenCfg {} = (.ok gen, ops') ∧
      Rotates sampleGenCfg (assignments (sampleEnv samplePool) gen [sampleEvent, sampleEvent]) := by
  obtain ⟨gen, ops', built, -⟩ := sample_construct sampleGenCfg rfl (by decide) {}
  exact ⟨gen, ops', built,
    addresses_rotate (sampleEnv samplePool) sampleGenCfg (by decide) built
      [sampleEvent, sampleEvent]⟩

end TrafficGenerator
