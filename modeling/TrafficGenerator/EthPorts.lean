/-
This file is about the life of an Ethernet port: the constructor starts it only
when all it needs is there and closes it again when the start fails, and the
objects hand it on so that it is stopped and closed once, whatever is moved,
assigned and destroyed.
-/

import TrafficGenerator.EthDev
import Mathlib.Algebra.Order.Ring.Nat

namespace TrafficGenerator

variable {cfg : EthDevConfig} {answers : EthAnswers}

/-! ### The calls of the constructor -/

/-- The device has been started. -/
def EthCall.starts : EthCall → Bool
  | .start ok => ok
  | _ => false

/-- The last of its queues has been set up. -/
def EthCall.readies : EthCall → Bool
  | .txQueueSetup _ _ _ ok => ok
  | _ => false

def EthCall.stops : EthCall → Bool
  | .stop => true
  | _ => false

def EthCall.closes : EthCall → Bool
  | .close => true
  | _ => false

/-- The wait for the link only sleeps. -/
theorem waitLink_calls (linkUp : ℕ → Bool) (left poll : ℕ) :
    ∃ count ≤ left, (waitLink linkUp left poll).2 = List.replicate count (.usleep linkSleepUs) := by
  induction left generalizing poll with
  | zero => exact ⟨0, Nat.le_refl _, rfl⟩
  | succ left inductionHypothesis =>
    unfold waitLink
    split
    · exact ⟨1, Nat.succ_le_succ (Nat.zero_le _), rfl⟩
    · obtain ⟨count, bound, calls⟩ := inductionHypothesis (poll + 1)
      exact ⟨count + 1, Nat.succ_le_succ bound, congrArg (List.cons _) calls⟩

/-- It succeeds when the link comes up at one of its polls. -/
theorem waitLink_iff (linkUp : ℕ → Bool) (left poll : ℕ) :
    (waitLink linkUp left poll).1 = true ↔
      ∃ offset < left, linkUp (poll + offset) = true := by
  induction left generalizing poll with
  | zero => simp [waitLink]
  | succ left inductionHypothesis =>
    unfold waitLink
    split
    · next up => exact iff_of_true rfl ⟨0, Nat.succ_pos _, up⟩
    · next down =>
      rw [inductionHypothesis]
      constructor
      · rintro ⟨offset, bound, up⟩
        refine ⟨offset + 1, Nat.succ_lt_succ bound, ?_⟩
        rwa [Nat.add_right_comm] at up
      · rintro ⟨offset, bound, up⟩
        cases offset with
        | zero => exact absurd up down
        | succ offset =>
          refine ⟨offset, Nat.lt_of_succ_lt_succ bound, ?_⟩
          rwa [Nat.add_right_comm]

theorem waitLink_countP (select : EthCall → Bool) (other : select (.usleep linkSleepUs) = false)
    (linkUp : ℕ → Bool) (left poll : ℕ) :
    (waitLink linkUp left poll).2.countP select = 0 := by
  obtain ⟨count, -, calls⟩ := waitLink_calls linkUp left poll
  rw [calls, List.countP_replicate, other]
  rfl

/-- How a construction ends: before the queues are set up, with the device closed again, or with
the device started. -/
inductive DevConstructed (cfg : EthDevConfig) (answers : EthAnswers) :
    Except String Unit × List EthCall → Prop
  | unsupported (text : String) (failed : setCapabilities cfg answers = .error text) :
      DevConstructed cfg answers (.error text, [])
  | unconfigured (text : String) (info : EthDevInfo) (conf : EthConf) (calls : List EthCall)
      (supported : setCapabilities cfg answers = .ok (info, conf))
      (failed : configureDev cfg answers info conf = (.error text, calls)) :
      DevConstructed cfg answers (.error text, calls)
  | closed (text : String) (info : EthDevInfo) (conf : EthConf) (calls started : List EthCall)
      (supported : setCapabilities cfg answers = .ok (info, conf))
      (configured : configureDev cfg answers info conf = (.ok (), calls))
      (failed : startDev cfg answers = (.error text, started)) :
      DevConstructed cfg answers (.error text, calls ++ started ++ [.close])
  | started (info : EthDevInfo) (conf : EthConf) (calls started : List EthCall)
      (supported : setCapabilities cfg answers = .ok (info, conf))
      (configured : configureDev cfg answers info conf = (.ok (), calls))
      (success : startDev cfg answers = (.ok (), started)) :
      DevConstructed cfg answers (.ok (), calls ++ started)

theorem constructDev_spec (cfg : EthDevConfig) (answers : EthAnswers) :
    DevConstructed cfg answers (constructDev cfg answers) := by
  unfold constructDev
  split
  · next text failed => exact .unsupported text failed
  · next info conf supported =>
    split
    · next text calls failed => exact .unconfigured text info conf calls supported failed
    · next calls configured =>
      split
      · next text started failed =>
        exact .closed text info conf calls started supported configured failed
      · next started success =>
        exact .started info conf calls started supported configured success

/-- Whether something succeeded, as a number. -/
def succeeded : Except String Unit → ℕ
  | .ok () => 1
  | .error _ => 0

/-- The calls of `configure` neither start nor stop nor close, and set up the last queue exactly
when they all succeed. -/
theorem configureDev_countP {info : EthDevInfo} {conf : EthConf} {outcome : Except String Unit}
    {calls : List EthCall} (run : configureDev cfg answers info conf = (outcome, calls)) :
    calls.countP EthCall.starts = 0 ∧ calls.countP EthCall.stops = 0 ∧
      calls.countP EthCall.closes = 0 ∧ calls.countP EthCall.readies = succeeded outcome := by
  unfold configureDev at run
  split at run <;>
  · obtain ⟨rfl, rfl⟩ := Prod.mk.inj run
    exact ⟨rfl, rfl, rfl, rfl⟩

/-- A device that was started and does not come up is stopped. -/
theorem startDev_countP {outcome : Except String Unit} {calls : List EthCall}
    (run : startDev cfg answers = (outcome, calls)) :
    calls.countP EthCall.starts = calls.countP EthCall.stops + succeeded outcome ∧
      calls.countP EthCall.closes = 0 ∧ calls.countP EthCall.readies = 0 := by
  have starts := waitLink_countP EthCall.starts rfl answers.linkUp linkCheckCnt 0
  have stops := waitLink_countP EthCall.stops rfl answers.linkUp linkCheckCnt 0
  have closes := waitLink_countP EthCall.closes rfl answers.linkUp linkCheckCnt 0
  have readies := waitLink_countP EthCall.readies rfl answers.linkUp linkCheckCnt 0
  unfold startDev at run
  generalize waitLink answers.linkUp linkCheckCnt 0 = link at run starts stops closes readies
  split at run
  · obtain ⟨rfl, rfl⟩ := Prod.mk.inj run
    exact ⟨rfl, rfl, rfl⟩
  · dsimp only at run
    split at run
    · obtain ⟨rfl, rfl⟩ := Prod.mk.inj run
      simp only [List.countP_cons, starts, stops, closes, readies]
      exact ⟨rfl, rfl, rfl⟩
    · obtain ⟨rfl, rfl⟩ := Prod.mk.inj run
      simp only [List.countP_append, List.countP_cons, starts, stops, closes, readies]
      exact ⟨rfl, rfl, rfl⟩

/-- What a construction leaves open is what it built. -/
theorem constructDev_countP {outcome : Except String Unit} {calls : List EthCall}
    (run : constructDev cfg answers = (outcome, calls)) :
    calls.countP EthCall.starts = calls.countP EthCall.stops + succeeded outcome ∧
      calls.countP EthCall.readies = calls.countP EthCall.closes + succeeded outcome := by
  have spec := constructDev_spec cfg answers
  rw [run] at spec
  cases spec with
  | unsupported text failed => exact ⟨rfl, rfl⟩
  | unconfigured text info conf calls supported failed =>
    obtain ⟨starts, stops, closes, readies⟩ := configureDev_countP failed
    rw [starts, stops, closes, readies]
    exact ⟨rfl, rfl⟩
  | closed text info conf calls started supported configured failed =>
    obtain ⟨starts, stops, closes, readies⟩ := configureDev_countP configured
    obtain ⟨started_, closed, ready⟩ := startDev_countP failed
    simp only [List.countP_append, starts, stops, closes, readies, started_, closed, ready]
    exact ⟨rfl, rfl⟩
  | started info conf calls started supported configured success =>
    obtain ⟨starts, stops, closes, readies⟩ := configureDev_countP configured
    obtain ⟨started_, closed, ready⟩ := startDev_countP success
    simp only [List.countP_append, starts, stops, closes, readies, started_, closed, ready]
    exact ⟨by omega, rfl⟩

/-! ### What the port must have -/

/-- What a port must be able to offload. -/
structure EthDevInfo.Suitable (info : EthDevInfo) : Prop where
  rxChecksum : checkCapa info.rxOffloadCapa rxOffloadChecksum = true
  txIpv4 : checkCapa info.txOffloadCapa txOffloadIpv4Cksum = true
  txTcpUdp : checkCapa info.txOffloadCapa txOffloadTcpUdpCksum = true

/-- Whether the offloads are in the reach of a port, all those needed are among them, and the fast
release exactly when the port has it. -/
structure EthConf.Requests (conf : EthConf) (info : EthDevInfo) : Prop where
  rxReach : checkCapa info.rxOffloadCapa conf.rxOffloads = true
  txReach : checkCapa info.txOffloadCapa conf.txOffloads = true
  rxChecksum : checkCapa conf.rxOffloads rxOffloadChecksum = true
  txIpv4 : checkCapa conf.txOffloads txOffloadIpv4Cksum = true
  txTcpUdp : checkCapa conf.txOffloads txOffloadTcpUdpCksum = true
  fastFree : checkCapa conf.txOffloads txOffloadMbufFastFree =
    checkCapa info.txOffloadCapa txOffloadMbufFastFree

/-- A port that comes up. -/
structure EthAnswers.ComesUp (answers : EthAnswers) : Prop where
  suitable : ∃ info, answers.info = .ok info ∧ info.Suitable
  configure : answers.configure = none
  rxSetup : answers.rxSetup = none
  txSetup : answers.txSetup = none
  start : answers.start = none
  link : ∃ poll < linkCheckCnt, answers.linkUp poll = true

/-- A call with the size, the socket and the memory pool that were asked for and with offloads the
port has. -/
def EthCall.Asked (cfg : EthDevConfig) (conf : EthConf) : EthCall → Prop
  | .configure other _ => other = conf
  | .rxQueueSetup size socketId offloads mempool _ => size = cfg.queueSize ∧
      socketId = cfg.socketId ∧ offloads = conf.rxOffloads ∧ mempool = cfg.mempool
  | .txQueueSetup size socketId offloads _ => size = cfg.queueSize ∧
      socketId = cfg.socketId ∧ offloads = conf.txOffloads
  | _ => True

/-- The time slept in a call. -/
def EthCall.slept : EthCall → ℕ
  | .usleep usec => usec
  | _ => 0

theorem checkCapa_or {capa left right : UInt64} (first : checkCapa capa left = true)
    (second : checkCapa capa right = true) : checkCapa capa (left ||| right) = true := by
  unfold checkCapa at *
  rw [beq_iff_eq, ← UInt64.toBitVec_inj, UInt64.toBitVec_and] at *
  rw [UInt64.toBitVec_or]
  ext bit bound
  have one := congrArg (fun bits => bits[bit]) first
  have two := congrArg (fun bits => bits[bit]) second
  simp only [BitVec.getElem_and, BitVec.getElem_or] at one two ⊢
  rw [Bool.and_or_distrib_left, one, two]

/-- `set_capabilities` asks a suitable port for what it has. -/
theorem setCapabilities_ok {info : EthDevInfo} {conf : EthConf}
    (run : setCapabilities cfg answers = .ok (info, conf)) :
    answers.info = .ok info ∧ info.Suitable ∧ conf.Requests info := by
  unfold setCapabilities at run
  cases found : answers.info with
  | error errno =>
    rw [found] at run
    exact absurd run (by simp [Except.mapError, bind, Except.bind])
  | ok other =>
    rw [found] at run
    simp only [Except.mapError, bind, Except.bind, throw, throwThe, MonadExceptOf.throw] at run
    split at run
    · exact absurd run (by simp)
    split at run
    · exact absurd run (by simp)
    split at run
    · exact absurd run (by simp)
    next rx tx tcp =>
    simp only [Bool.not_eq_true', Bool.not_eq_false] at rx tx tcp
    simp only [pure, Except.pure, Except.ok.injEq, Prod.mk.injEq] at run
    obtain ⟨rfl, rfl⟩ := run
    have needed := checkCapa_or tx tcp
    refine ⟨rfl, ⟨rx, tx, tcp⟩, ?_⟩
    cases fast : checkCapa other.txOffloadCapa txOffloadMbufFastFree with
    | false => exact ⟨rx, needed, by decide, by decide, by decide, by rw [fast]; decide⟩
    | true => exact ⟨rx, checkCapa_or needed fast, by decide, by decide, by decide,
        by rw [fast]; decide⟩

theorem setCapabilities_suitable {info : EthDevInfo} (found : answers.info = .ok info)
    (suitable : info.Suitable) : ∃ conf, setCapabilities cfg answers = .ok (info, conf) := by
  unfold setCapabilities
  simp [found, suitable.rxChecksum, suitable.txIpv4, suitable.txTcpUdp, Except.mapError, bind,
    Except.bind, pure, Except.pure]

/-- The queues are set up when DPDK accepts them, with what was asked for. -/
theorem configureDev_iff (info : EthDevInfo) (conf : EthConf) :
    (configureDev cfg answers info conf).1 = .ok () ↔
      answers.configure = none ∧ answers.rxSetup = none ∧ answers.txSetup = none := by
  unfold configureDev
  split <;> simp_all

theorem configureDev_calls {info : EthDevInfo} {conf : EthConf} {call : EthCall}
    (member : call ∈ (configureDev cfg answers info conf).2) :
    call.Asked cfg conf ∧ call.slept = 0 := by
  have configure : ∀ ok, (EthCall.configure conf ok).Asked cfg conf := fun _ => rfl
  have rx : ∀ ok, (rxQueueCall cfg conf ok).Asked cfg conf := fun _ => ⟨rfl, rfl, rfl, rfl⟩
  have tx : ∀ ok, (txQueueCall cfg conf ok).Asked cfg conf := fun _ => ⟨rfl, rfl, rfl⟩
  unfold configureDev at member
  split at member <;>
  · simp only [List.mem_cons, List.not_mem_nil, or_false] at member
    rcases member with rfl | rfl | rfl <;> exact ⟨by solve_by_elim, rfl⟩

/-- The port is started when DPDK starts it and one of the polls finds the link up. -/
theorem startDev_iff : (startDev cfg answers).1 = .ok () ↔
    answers.start = none ∧ ∃ poll < linkCheckCnt, answers.linkUp poll = true := by
  have link := waitLink_iff answers.linkUp linkCheckCnt 0
  simp only [Nat.zero_add] at link
  rw [← link]
  unfold startDev
  split
  · next errno failed => simp [failed]
  · next accepted =>
    dsimp only
    split
    · next up => simp [accepted, up]
    · next down => simp [accepted, down]

theorem startDev_calls (conf : EthConf) :
    (∀ call ∈ (startDev cfg answers).2, call.Asked cfg conf) ∧
      ((startDev cfg answers).2.map EthCall.slept).sum ≤ linkCheckCnt * linkSleepUs := by
  obtain ⟨count, bound, calls⟩ := waitLink_calls answers.linkUp linkCheckCnt 0
  have time : (List.map EthCall.slept (List.replicate count (.usleep linkSleepUs))).sum ≤
      linkCheckCnt * linkSleepUs := by
    rw [List.map_replicate, List.sum_replicate_nat]
    exact Nat.mul_le_mul_right linkSleepUs bound
  have sleeps : ∀ call ∈ List.replicate count (EthCall.usleep linkSleepUs),
      call.Asked cfg conf := by
    intro call member
    rw [List.eq_of_mem_replicate member]
    trivial
  unfold startDev
  split
  · exact ⟨fun call member => List.mem_singleton.mp member ▸ trivial, Nat.zero_le _⟩
  · dsimp only
    rw [calls]
    split
    · refine ⟨List.forall_mem_cons.mpr ⟨trivial, sleeps⟩, ?_⟩
      rw [List.map_cons, List.sum_cons]
      exact (Nat.zero_add _).trans_le time
    · constructor
      · refine List.forall_mem_append.mpr ⟨List.forall_mem_cons.mpr ⟨trivial, sleeps⟩, ?_⟩
        exact fun call member => List.mem_singleton.mp member ▸ trivial
      · rw [List.map_append, List.sum_append, List.map_cons, List.sum_cons]
        exact (Nat.zero_add _).trans_le time

/-- A port is constructed exactly when DPDK knows it, it can offload the checksums, its queues are
set up, it starts and one of the polls finds its link up. Every call made on the way is with what
was asked for, the offloads are among those the port has and hold all that are needed, the fast
release exactly when the port has it, and the link is waited for no longer than ten seconds. -/
theorem constructDev_exact (cfg : EthDevConfig) (answers : EthAnswers) :
    ((constructDev cfg answers).1 = .ok () ↔ answers.ComesUp) ∧
    (∀ call ∈ (constructDev cfg answers).2, ∃ info conf, answers.info = .ok info ∧
      info.Suitable ∧ conf.Requests info ∧ call.Asked cfg conf) ∧
    ((constructDev cfg answers).2.map EthCall.slept).sum ≤ 10000000 := by
  have slept {info conf} : ((configureDev cfg answers info conf).2.map EthCall.slept).sum = 0 := by
    refine List.sum_eq_zero_iff_forall_eq_nat.mpr fun usec member => ?_
    obtain ⟨call, made, rfl⟩ := List.mem_map.mp member
    exact (configureDev_calls made).2
  have spec := constructDev_spec cfg answers
  generalize constructDev cfg answers = built at spec ⊢
  cases spec with
  | unsupported text failed =>
    refine ⟨iff_of_false (by simp) ?_, by simp, Nat.zero_le _⟩
    intro comes
    obtain ⟨info, found, suitable⟩ := comes.suitable
    obtain ⟨conf, supported⟩ := @setCapabilities_suitable cfg answers info found suitable
    rw [supported] at failed
    exact absurd failed (by simp)
  | unconfigured text info conf calls supported failed =>
    obtain ⟨found, suitable, requests⟩ := setCapabilities_ok supported
    have configured := @configureDev_iff cfg answers info conf
    have asked := @configureDev_calls cfg answers info conf
    have time := @slept info conf
    rw [failed] at configured asked time
    refine ⟨iff_of_false (by simp) fun comes => ?_, fun call member => ?_, time.trans_le (by simp)⟩
    · exact absurd (configured.mpr ⟨comes.configure, comes.rxSetup, comes.txSetup⟩) (by simp)
    · exact ⟨info, conf, found, suitable, requests, (asked member).1⟩
  | closed text info conf calls started supported configured failed =>
    obtain ⟨found, suitable, requests⟩ := setCapabilities_ok supported
    have startedIff := @startDev_iff cfg answers
    have asked := @configureDev_calls cfg answers info conf
    have time := @slept info conf
    obtain ⟨startedAsked, startedTime⟩ := @startDev_calls cfg answers conf
    rw [configured] at asked time
    rw [failed] at startedIff startedAsked startedTime
    refine ⟨iff_of_false (by simp) fun comes => ?_, fun call member => ?_, ?_⟩
    · exact absurd (startedIff.mpr ⟨comes.start, comes.link⟩) (by simp)
    · refine ⟨info, conf, found, suitable, requests, ?_⟩
      rcases List.mem_append.mp member with member | member
      · rcases List.mem_append.mp member with member | member
        · exact (asked member).1
        · exact startedAsked call member
      · rw [List.mem_singleton.mp member]
        trivial
    · rw [List.map_append, List.map_append, List.sum_append, List.sum_append, time, Nat.zero_add]
      exact startedTime
  | started info conf calls started supported configured success =>
    obtain ⟨found, suitable, requests⟩ := setCapabilities_ok supported
    have configuredIff := @configureDev_iff cfg answers info conf
    have startedIff := @startDev_iff cfg answers
    have asked := @configureDev_calls cfg answers info conf
    have time := @slept info conf
    obtain ⟨startedAsked, startedTime⟩ := @startDev_calls cfg answers conf
    rw [configured] at configuredIff asked time
    rw [success] at startedIff startedAsked startedTime
    obtain ⟨configure, rxSetup, txSetup⟩ := configuredIff.mp rfl
    obtain ⟨start, link⟩ := startedIff.mp rfl
    refine ⟨iff_of_true rfl ⟨⟨info, found, suitable⟩, configure, rxSetup, txSetup, start, link⟩,
      fun call member => ⟨info, conf, found, suitable, requests, ?_⟩, ?_⟩
    · rcases List.mem_append.mp member with member | member
      · exact (asked member).1
      · exact startedAsked call member
    · rw [List.map_append, List.sum_append, time, Nat.zero_add]
      exact startedTime

/-! ### The objects -/

/-- The number of calls of a kind for one port. -/
def EthDevs.callsOf (devs : EthDevs) (select : EthCall → Bool) (port : UInt16) : ℕ :=
  devs.calls.countP fun call => call.1 == port && select call.2

/-- The number of objects that own a port. -/
def EthDevs.ownersOf (devs : EthDevs) (port : UInt16) : ℕ := devs.slots.count (some port)

/-- Every device started is stopped or owned, and every device set up closed or owned. -/
structure EthDevs.Balanced (devs : EthDevs) : Prop where
  started : ∀ port, port ≠ invalidPortId → devs.callsOf EthCall.starts port =
    devs.callsOf EthCall.stops port + devs.ownersOf port
  ready : ∀ port, port ≠ invalidPortId → devs.callsOf EthCall.readies port =
    devs.callsOf EthCall.closes port + devs.ownersOf port

theorem countP_map_port (select : EthCall → Bool) (port other : UInt16) (calls : List EthCall) :
    (calls.map (Prod.mk other)).countP (fun call => call.1 == port && select call.2) =
      if other = port then calls.countP select else 0 := by
  rw [List.countP_map]
  split
  · next same =>
    subst same
    refine List.countP_congr fun call _ => ?_
    simp
  · next differ =>
    refine List.countP_eq_zero.mpr fun call _ => ?_
    simp [differ]

/-- Replacing one entry of a list. -/
theorem count_set {Item : Type} [BEq Item] [LawfulBEq Item] [DecidableEq Item]
    {items : List Item} {pos : ℕ} {before : Item}
    (found : items[pos]? = some before) (after item : Item) :
    (items.set pos after).count item + (if before = item then 1 else 0) =
      items.count item + (if after = item then 1 else 0) := by
  obtain ⟨bound, rfl⟩ := List.getElem?_eq_some_iff.mp found
  rw [List.set_eq_take_append_cons_drop, if_pos bound]
  conv_rhs => rw [← List.take_append_drop pos items, List.drop_eq_getElem_cons bound]
  simp only [List.count_append, List.count_cons, beq_iff_eq]
  omega

/-- The destructor stops and closes the port its object owned. -/
theorem callsOf_destructor (calls : List (UInt16 × EthCall)) (select : EthCall → Bool) (count : ℕ)
    (kinds : [EthCall.stop, EthCall.close].countP select = count) (old port : UInt16)
    (valid : port ≠ invalidPortId) :
    (calls ++ destructorCalls old).countP (fun call => call.1 == port && select call.2) =
      calls.countP (fun call => call.1 == port && select call.2) +
        if old = port then count else 0 := by
  rw [List.countP_append, ← kinds]
  unfold destructorCalls
  split
  · exact congrArg _ (countP_map_port select port old [.stop, .close])
  · next invalid =>
    have differ : old ≠ port := by
      rintro rfl
      exact invalid valid
    rw [if_neg differ]
    rfl

section Steps

variable {devs next : EthDevs}

/-- An operation that gives up the port of one object, or none, and calls its destructor. -/
theorem EthDevs.Balanced.release (balanced : devs.Balanced) {slots : List (Option UInt16)}
    {old : UInt16} (owners : ∀ port, port ≠ invalidPortId →
      slots.count (some port) + (if old = port then 1 else 0) = devs.ownersOf port) :
    EthDevs.Balanced { slots, calls := devs.calls ++ destructorCalls old } where
  started port valid := by
    have before := balanced.started port valid
    have freed := owners port valid
    have starts := callsOf_destructor devs.calls EthCall.starts 0 rfl old port valid
    have stops := callsOf_destructor devs.calls EthCall.stops 1 rfl old port valid
    simp only [EthDevs.callsOf, EthDevs.ownersOf] at before freed ⊢
    rw [starts, stops, ite_self]
    omega
  ready port valid := by
    have before := balanced.ready port valid
    have freed := owners port valid
    have readies := callsOf_destructor devs.calls EthCall.readies 0 rfl old port valid
    have closes := callsOf_destructor devs.calls EthCall.closes 1 rfl old port valid
    simp only [EthDevs.callsOf, EthDevs.ownersOf] at before freed ⊢
    rw [readies, closes, ite_self]
    omega

/-- A construction leaves an object that owns its port, or a port it has closed. -/
theorem EthDevs.Balanced.construct (balanced : devs.Balanced) {outcome : Except String Unit}
    {calls : List EthCall} {slots : List (Option UInt16)}
    (run : constructDev cfg answers = (outcome, calls))
    (owners : ∀ port, slots.count (some port) =
      devs.ownersOf port + if cfg.portId = port then succeeded outcome else 0) :
    EthDevs.Balanced { slots, calls := devs.calls ++ calls.map (Prod.mk cfg.portId) } := by
  obtain ⟨starts, readies⟩ := constructDev_countP run
  refine { started := fun port valid => ?_, ready := fun port valid => ?_ }
  · have before := balanced.started port valid
    simp only [EthDevs.callsOf, EthDevs.ownersOf, List.countP_append, countP_map_port,
      owners] at before ⊢
    split <;> omega
  · have before := balanced.ready port valid
    simp only [EthDevs.callsOf, EthDevs.ownersOf, List.countP_append, countP_map_port,
      owners] at before ⊢
    split <;> omega

theorem EthDevs.Balanced.step {op : EthDevOp} (balanced : devs.Balanced)
    (step : devs.apply op = some next) : next.Balanced := by
  unfold EthDevs.apply at step
  split at step
  · next cfg answers =>
    cases run : constructDev cfg answers with
    | mk outcome calls =>
      rw [run] at step
      cases outcome with
      | ok =>
        obtain rfl := Option.some.inj step
        refine balanced.construct run fun port => ?_
        rw [List.count_append, List.count_singleton]
        simp only [beq_iff_eq, Option.some.injEq, succeeded]
        rfl
      | error text =>
        obtain rfl := Option.some.inj step
        refine balanced.construct run fun port => ?_
        rw [succeeded, ite_self]
        rfl
  · next src =>
    split at step
    · next portId found =>
      obtain rfl := Option.some.inj step
      have owners : ∀ port, port ≠ invalidPortId →
          (devs.slots.set src (some invalidPortId) ++ [some portId]).count (some port) =
            devs.ownersOf port := by
        intro port valid
        have moved := count_set found (some invalidPortId) (some port)
        simp only [Option.some.injEq, if_neg (Ne.symm valid)] at moved
        rw [List.count_append, List.count_singleton]
        simp only [beq_iff_eq, Option.some.injEq]
        exact moved
      refine { started := fun port valid => ?_, ready := fun port valid => ?_ }
      · rw [EthDevs.ownersOf, owners port valid]
        exact balanced.started port valid
      · rw [EthDevs.ownersOf, owners port valid]
        exact balanced.ready port valid
    · exact absurd step (by simp)
  · next dst src =>
    split at step
    · next portId found =>
      dsimp only at step
      split at step
      · next old target =>
        obtain rfl := Option.some.inj step
        refine balanced.release fun port valid => ?_
        have moved := count_set found (some invalidPortId) (some port)
        have swapped := count_set target (some portId) (some port)
        simp only [Option.some.injEq, if_neg (Ne.symm valid)] at moved swapped
        rw [EthDevs.ownersOf]
        omega
      · exact absurd step (by simp)
    · exact absurd step (by simp)
  · next pos =>
    split at step
    · next portId found =>
      obtain rfl := Option.some.inj step
      refine balanced.release fun port valid => ?_
      have gone := count_set found none (some port)
      simp only [Option.some.injEq, reduceCtorEq, if_false] at gone
      exact gone
    · exact absurd step (by simp)

end Steps

/-- Whatever objects are constructed (with success or not), moved, assigned to one another or to
themselves and destroyed: every port that was started has been stopped once for each start, and
every port whose queues were set up has been closed once for each, except those that an object owns
still. -/
theorem ports_closed_once {ops : List EthDevOp} {devs : EthDevs}
    (run : ethDevMachine.run {} ops = some devs) (port : UInt16) (valid : port ≠ invalidPortId) :
    devs.callsOf EthCall.starts port =
      devs.callsOf EthCall.stops port + devs.ownersOf port ∧
    devs.callsOf EthCall.readies port =
      devs.callsOf EthCall.closes port + devs.ownersOf port := by
  have balanced : devs.Balanced := ethDevMachine.run_invariant EthDevs.Balanced
    (fun _ _ _ balanced step => balanced.step step)
    ⟨fun _ _ => rfl, fun _ _ => rfl⟩ run
  exact ⟨balanced.started port valid, balanced.ready port valid⟩

/-- A device with all the offloads. -/
def capableDev : EthDevInfo where
  rxOffloadCapa := 0xFFFFFFFF
  txOffloadCapa := 0xFFFFFFFF
  rxDescLim := (64, 4096)
  txDescLim := (64, 4096)

def assignedPorts : List EthDevOp := [
  .construct ⟨0, 512, 0, 1⟩ { info := .ok capableDev },
  .construct ⟨1, 512, 0, 1⟩ { info := .ok capableDev, linkUp := fun poll => poll == 7 },
  .construct ⟨0, 512, 0, 1⟩ { info := .ok capableDev, linkUp := fun _ => false },
  .moveConstruct 0, .moveAssign 2 2, .moveAssign 2 1, .destroy 0, .destroy 2]

/-- A port that is handed on, one that an assignment of an object to itself keeps and the next
assignment closes, and one whose link never came up. -/
theorem ports_closed_once_assigned :
    ∃ devs, ethDevMachine.run {} assignedPorts = some devs ∧
      devs.callsOf EthCall.starts 0 = devs.callsOf EthCall.stops 0 + devs.ownersOf 0 ∧
      devs.callsOf EthCall.readies 0 = devs.callsOf EthCall.closes 0 + devs.ownersOf 0 := by
  obtain ⟨devs, run⟩ : ∃ devs, ethDevMachine.run {} assignedPorts = some devs :=
    Option.isSome_iff_exists.mp (by decide +kernel)
  exact ⟨devs, run, ports_closed_once run 0 (by decide)⟩

end TrafficGenerator
