/-
This file accounts for every packet and every packet buffer over the runs of
the generation manager. The ledger of the pool holds in every state: what the
generators store, what the NIC accepted and what waits for transmission are
separate packets, none of them freed, and nothing is freed twice. On top of it
the counters of one generation are added up.
-/

import TrafficGenerator.GenInvariant
import Mathlib.Algebra.Order.BigOperators.Group.List
import Mathlib.Algebra.Order.Group.Nat

namespace TrafficGenerator

variable {env : Env} {ops ops' : Ops} {manager : GenManager}

/-! ### The packets of the bursts -/

/-- The packets the NIC accepted, in order. -/
def acceptedPkts (bursts : List Burst) : List MbufId :=
  bursts.flatMap fun burst => burst.offered.take burst.accepted

/-- The packets the NIC did not accept, in order. -/
def droppedPkts (bursts : List Burst) : List MbufId :=
  bursts.flatMap fun burst => burst.offered.drop burst.accepted

theorem acceptedPkts_append (bursts : List Burst) (burst : Burst) :
    acceptedPkts (bursts ++ [burst]) =
      acceptedPkts bursts ++ burst.offered.take burst.accepted := by
  rw [acceptedPkts, List.flatMap_append, List.flatMap_singleton]
  rfl

theorem droppedPkts_append (bursts : List Burst) (burst : Burst) :
    droppedPkts (bursts ++ [burst]) = droppedPkts bursts ++ burst.offered.drop burst.accepted := by
  rw [droppedPkts, List.flatMap_append, List.flatMap_singleton]
  rfl

/-- Every packet offered is accepted or dropped. -/
theorem accepted_add_dropped (bursts : List Burst) :
    (acceptedPkts bursts).length + (droppedPkts bursts).length =
      (bursts.flatMap Burst.offered).length := by
  induction bursts with
  | nil => rfl
  | cons burst rest inductionHypothesis =>
    have parts := congrArg List.length (List.take_append_drop burst.accepted burst.offered)
    rw [List.length_append] at parts
    simp only [acceptedPkts, droppedPkts, List.flatMap_cons, List.length_append] at *
    omega

/-! ### The account of the packets -/

/-- The account of the packets: those stored, accepted and waiting are separate and not freed,
those dropped were freed in the order they were sent, and every packet is sent once. -/
structure Ops.Accounted (ops : Ops) (stored : List MbufId) : Prop where
  ledger : ops.pool.Ledger (stored ++ acceptedPkts ops.bursts ++ ops.txPkts)
  sent : ops.sent = ops.bursts.flatMap Burst.offered ++ ops.txPkts
  increasing : ops.sent.Pairwise (· < ·)
  packets : ∀ head ∈ ops.sent, ops.pool.Packet head (ops.pool.chain head)
  dropped : ((droppedPkts ops.bursts).flatMap ops.pool.chain).Sublist ops.pool.freed

/-- A dropped packet was sent. -/
theorem Ops.Accounted.dropped_sent {stored : List MbufId} (accounted : ops.Accounted stored) :
    ∀ head ∈ droppedPkts ops.bursts, head ∈ ops.sent := by
  intro head member
  obtain ⟨burst, among, dropped⟩ := List.mem_flatMap.mp member
  rw [accounted.sent]
  exact List.mem_append_left _ (List.mem_flatMap.mpr ⟨burst, among, List.mem_of_mem_drop dropped⟩)

/-- Later states of the pool do not see them changed. -/
theorem Ops.Accounted.dropped_keep {stored : List MbufId} {pool : MbufPool}
    (accounted : ops.Accounted stored) (keeps : ops.pool.Keeps pool)
    (freed : ops.pool.freed.Sublist pool.freed) :
    ((droppedPkts ops.bursts).flatMap pool.chain).Sublist pool.freed := by
  rw [flatMap_chain_keep (fun head member =>
    accounted.packets head (accounted.dropped_sent head member)) keeps]
  exact accounted.dropped.trans freed

/-- A step of the pool that keeps the ledger of the packets keeps the account. -/
theorem Ops.Accounted.pool {stored stored' : List MbufId} (accounted : ops.Accounted stored)
    (keeps : ops.pool.Keeps ops'.pool) (freed : ops.pool.freed.Sublist ops'.pool.freed)
    (sent : ops'.sent = ops.sent) (bursts : ops'.bursts = ops.bursts)
    (txPkts : ops'.txPkts = ops.txPkts)
    (ledger : ops'.pool.Ledger (stored' ++ acceptedPkts ops.bursts ++ ops.txPkts)) :
    ops'.Accounted stored' where
  ledger := by rwa [bursts, txPkts]
  sent := by rw [sent, bursts, txPkts, accounted.sent]
  increasing := sent ▸ accounted.increasing
  packets head member := ((accounted.packets head (sent ▸ member)).keep keeps).self
  dropped := bursts ▸ accounted.dropped_keep keeps freed

/-- The account reads the pool and the packets only. -/
theorem Ops.Accounted.congr {stored : List MbufId} (accounted : ops.Accounted stored)
    (pool : ops'.pool = ops.pool) (sent : ops'.sent = ops.sent)
    (bursts : ops'.bursts = ops.bursts) (txPkts : ops'.txPkts = ops.txPkts) :
    ops'.Accounted stored :=
  accounted.pool (pool ▸ MbufPool.Keeps.refl _) (pool ▸ List.Sublist.refl _) sent bursts txPkts
    (pool ▸ accounted.ledger)

/-- A burst is freed from where the NIC stopped. -/
theorem transmitTxPkts_pool (tx : TxAnswer) (ops : Ops) :
    (transmitTxPkts tx ops).pool =
      ops.pool.freeBulk (ops.txPkts.drop (tx.accept ops.txPkts.length)) := by
  rw [transmitTxPkts]
  split
  · rfl
  · next all =>
    rw [List.drop_eq_nil_of_le (Nat.le_of_not_lt all)]
    rfl

/-- Transmitting settles the burst: what is accepted is held by the NIC, the rest is freed. -/
theorem Ops.Accounted.transmit {stored : List MbufId} (accounted : ops.Accounted stored)
    (tx : TxAnswer) : (transmitTxPkts tx ops).Accounted stored where
  ledger := by
    have ledger := accounted.ledger
    rw [← List.take_append_drop (tx.accept ops.txPkts.length) ops.txPkts, ← List.append_assoc]
      at ledger
    rw [transmitTxPkts_pool]
    show MbufPool.Ledger _ (stored ++ acceptedPkts (ops.bursts ++ [_]) ++ [])
    rw [List.append_nil, acceptedPkts_append, ← List.append_assoc]
    exact ledger.free
  sent := by
    show ops.sent = (ops.bursts ++ [_]).flatMap Burst.offered ++ []
    rw [List.append_nil, List.flatMap_append, List.flatMap_singleton, accounted.sent]
  increasing := accounted.increasing
  packets head member := by
    rw [transmitTxPkts_pool]
    exact ((accounted.packets head member).keep (MbufPool.keeps_freeBulk _ _)).self
  dropped := by
    have keeps := ops.pool.keeps_freeBulk (ops.txPkts.drop (tx.accept ops.txPkts.length))
    have waiting : ∀ head ∈ ops.txPkts.drop (tx.accept ops.txPkts.length),
        ops.pool.Packet head (ops.pool.chain head) := by
      intro head member
      refine accounted.packets head ?_
      rw [accounted.sent]
      exact List.mem_append_right _ (List.mem_of_mem_drop member)
    rw [transmitTxPkts_pool]
    show ((droppedPkts (ops.bursts ++ [_])).flatMap _).Sublist _
    rw [droppedPkts_append, List.flatMap_append, flatMap_chain_keep (fun head member =>
      accounted.packets head (accounted.dropped_sent head member)) keeps,
      flatMap_chain_keep waiting keeps, MbufPool.freeBulk_eq]
    exact accounted.dropped.append (List.Sublist.refl _)

theorem Ops.Accounted.flush {stored : List MbufId} (accounted : ops.Accounted stored)
    (tx : TxAnswer) : (flushTxPkts tx ops).Accounted stored := by
  rw [flushTxPkts]
  split
  · exact accounted
  · exact accounted.transmit tx

/-- What is received is freed at once. -/
theorem Ops.Accounted.receive {stored : List MbufId} (accounted : ops.Accounted stored)
    (cnt : ℕ) : (receiveRxPkts cnt ops).Accounted stored := by
  have keeps := (ops.pool.keeps_receive cnt).trans
    ((ops.pool.receive cnt).2.keeps_freeBulk (ops.pool.receive cnt).1)
  refine accounted.pool keeps ?_ rfl rfl rfl (accounted.ledger.received cnt)
  show List.Sublist _ (MbufPool.freeBulk _ _).freed
  rw [MbufPool.freeBulk_eq]
  exact List.sublist_append_left _ _

/-- Building generators, or undoing what was built. -/
theorem Ops.Accounted.built (accounted : ops.Accounted []) {gens : List FlowsGenerator}
    (built : Built env ops ops' gens) : ops'.Accounted (gensMbufs gens) := by
  obtain ⟨chains, returned, -, freed, -⟩ := built.books.settled
  refine accounted.pool built.books.keeps (freed ▸ List.sublist_append_left _ _) built.frame.sent
    built.frame.bursts built.frame.txPkts ((accounted.ledger.books built.books).perm ?_)
  rw [List.nil_append, List.append_assoc (gensMbufs gens)]
  exact List.perm_append_comm

/-- Freeing what is stored. -/
theorem Ops.Accounted.free {stored : List MbufId} (accounted : ops.Accounted stored) :
    (freePkts stored ops).Accounted [] := by
  refine accounted.pool (ops.pool.keeps_freeBulk stored) ?_ rfl rfl rfl
    (MbufPool.Ledger.free (accounted.ledger.perm ?_))
  · show List.Sublist _ (MbufPool.freeBulk _ _).freed
    rw [MbufPool.freeBulk_eq]
    exact List.sublist_append_left _ _
  · rw [List.nil_append, List.append_assoc]
    exact List.perm_append_comm

/-! ### Copies -/

/-- A copy that is made changes the pool only. -/
theorem copyPkt_copied {pkt mbuf : MbufId} (run : copyPkt env pkt ops = (some mbuf, ops')) :
    ∃ pool, ops.pool.copy env.answers pkt = (some mbuf, pool) ∧ ops' = { ops with pool } := by
  rw [copyPkt] at run
  split at run
  · next fresh pool copied =>
    obtain ⟨same, rfl⟩ := Prod.mk.inj run
    exact ⟨pool, copied.trans (congrArg (·, pool) same), rfl⟩
  · exact absurd (Prod.mk.inj run).1 (by simp)

/-- A copy that is refused is counted. -/
theorem copyPkt_refused {pkt : MbufId} (run : copyPkt env pkt ops = (none, ops')) :
    ∃ pool, ops.pool.copy env.answers pkt = (none, pool) ∧
      ops' = { ops with pool, cntTxPktsNombuf := ops.cntTxPktsNombuf + 1 } := by
  rw [copyPkt] at run
  split at run
  · exact absurd (Prod.mk.inj run).1 (by simp)
  · next pool copied =>
    obtain ⟨-, rfl⟩ := Prod.mk.inj run
    exact ⟨pool, copied, rfl⟩

theorem setAddrs_links (report : GenerationReport) (mbuf : MbufId) (ops : Ops) :
    (setAddrs report mbuf ops).pool.links = ops.pool.links := by
  refine ops.pool.modify_links _ fun mbuf => ?_
  rw [addressPkt]
  split <;> rfl

/-- A packet sent right after it was copied. -/
theorem Ops.Accounted.push {stored : List MbufId} {pkt mbuf : MbufId}
    (accounted : ops.Accounted stored) (run : copyPkt env pkt ops = (some mbuf, ops'))
    (report : GenerationReport) :
    (pushTxPkt mbuf (setAddrs report mbuf ops')).Accounted stored := by
  obtain ⟨pool, copied, rfl⟩ := copyPkt_copied run
  obtain ⟨copyKeeps, freed, granted⟩ := MbufPool.copy_spec copied
  have links := setAddrs_links report mbuf { ops with pool }
  have ledger : (setAddrs report mbuf { ops with pool }).pool.Ledger
      (stored ++ acceptedPkts ops.bursts ++ ops.txPkts ++ [mbuf]) :=
    (accounted.ledger.copied copied).write links rfl rfl
  have keeps : ops.pool.Keeps (setAddrs report mbuf { ops with pool }).pool :=
    copyKeeps.trans ⟨Nat.le_refl _, fun id _ => congrFun links id⟩
  refine {
    ledger := by
      rw [List.append_assoc] at ledger
      exact ledger
    sent := by
      show ops.sent ++ [mbuf] = _ ++ (ops.txPkts ++ [mbuf])
      rw [accounted.sent, List.append_assoc]
      rfl
    increasing := List.pairwise_append.mpr
      ⟨accounted.increasing, List.pairwise_singleton _ _, fun head member fresh isFresh => ?_⟩
    packets := fun head member => ?_
    dropped := accounted.dropped_keep keeps (freed ▸ List.Sublist.refl _) }
  · rw [List.mem_singleton.mp isFresh, (granted mbuf rfl).1]
    have packet := accounted.packets head member
    exact packet.allocated head packet.head_mem
  · rcases List.mem_append.mp member with before | fresh
    · exact ((accounted.packets head before).keep keeps).self
    · exact ledger.packets head (List.mem_append_right _ fresh)

/-- Sending a packet right after it was copied. -/
theorem Ops.Accounted.send {stored : List MbufId} {pkt mbuf : MbufId}
    (accounted : ops.Accounted stored) (run : copyPkt env pkt ops = (some mbuf, ops'))
    (report : GenerationReport) (tx : TxAnswer) :
    (sendPkt tx mbuf (setAddrs report mbuf ops')).Accounted stored := by
  have pushed := accounted.push run report
  rw [sendPkt]
  split
  · exact pushed.transmit tx
  · exact pushed

/-- One timer callback. -/
theorem Ops.Accounted.emit {stored : List MbufId} (accounted : ops.Accounted stored)
    (gen : FlowsGenerator) (event : EventIn) (fl : Flow) :
    (gen.emitPkt env event fl ops).2.Accounted stored := by
  cases emitPkt_cases env gen event fl ops with
  | missed after refused result =>
    rw [result]
    obtain ⟨pool, noBuffer, rfl⟩ := copyPkt_refused refused
    obtain ⟨keeps, freed, -⟩ := MbufPool.copy_spec noBuffer
    have ledger := accounted.ledger.copied noBuffer
    rw [Option.toList_none, List.append_nil] at ledger
    exact accounted.pool keeps (freed ▸ List.Sublist.refl _) rfl rfl rfl ledger
  | sent copy after granted result =>
    rw [result]
    have sent := accounted.send granted (gen.reportOf event fl ops) event.tx
    generalize sendPkt event.tx copy _ = sentOps at *
    exact sent.congr rfl rfl rfl rfl

/-! ### The account in every run -/

/-- The account of a manager: its generators store their packets. -/
def GenManager.Accounted (manager : GenManager) : Prop :=
  manager.ops.Accounted (gensMbufs manager.generators)

theorem stopGeneration_accounted (env : Env) (sound : manager.Sound)
    (accounted : manager.Accounted) : (stopGeneration env manager).Accounted := by
  obtain ⟨aborted, -, result⟩ := stopGeneration_eq env manager sound.ownsTimers
  rw [result]
  exact accounted.free.congr rfl rfl rfl rfl

/-- The handlers keep the account. -/
theorem onIncMsg_accounted (env : Env) (input : StartIn) (msg : ReqMsg) (sound : manager.Sound)
    (accounted : manager.Accounted) : (onIncMsg env input manager msg).Accounted := by
  cases msg with
  | startGeneration cfg =>
    rw [onIncMsg]
    cases onStartGeneration_cases env input cfg manager sound.empty with
    | refused started result =>
      rw [result]
      exact accounted.congr rfl rfl rfl rfl
    | failed thrown middle idle undone result =>
      rw [GenManager.Accounted, sound.empty idle] at accounted
      rw [result, GenManager.Accounted, sound.empty idle]
      exact (accounted.built undone).congr rfl rfl rfl rfl
    | begun gens middle idle built done result =>
      rw [GenManager.Accounted, sound.empty idle] at accounted
      obtain ⟨pool, sent, bursts, txPkts, -, -⟩ := resetStats_frame input.resetErr middle
      rw [result]
      exact (accounted.built done).congr pool sent bursts txPkts
  | stopGeneration => exact (stopGeneration_accounted env sound accounted).congr rfl rfl rfl rfl
  | statsReport => exact accounted.congr rfl rfl rfl rfl

/-- So does the part up to the timers. -/
theorem beforeTimers_accounted (env : Env) (input : TickIn) (sound : manager.Sound)
    (accounted : manager.Accounted) : (beforeTimers env input manager).2.Accounted := by
  have received : GenManager.Accounted { manager with ops := receiveRxPkts input.rx manager.ops } :=
    Ops.Accounted.receive accounted input.rx
  rcases beforeTimers_cases env input manager with
    ⟨-, aborted, -, result⟩ | ⟨-, result⟩ | ⟨-, result⟩ | ⟨-, result⟩ <;> rw [result]
  · exact received.congr rfl rfl rfl rfl
  · exact (stopGeneration_accounted env (receive_sound input.rx sound) received).flush input.tx
  · exact received
  · exact received.flush input.tx

/-- A generator stores the same packets whatever its flows do. -/
theorem gensMbufs_set {gens : List FlowsGenerator} {pos : ℕ} {gen gen' : FlowsGenerator}
    (found : gens[pos]? = some gen) (same : gen'.pkts = gen.pkts) :
    gensMbufs (gens.set pos gen') = gensMbufs gens := by
  induction gens generalizing pos with
  | nil => rfl
  | cons first rest inductionHypothesis =>
    cases pos with
    | zero =>
      obtain rfl := Option.some.inj found
      rw [List.set_cons_zero, gensMbufs, gensMbufs, List.flatMap_cons, List.flatMap_cons, same]
    | succ pos =>
      exact congrArg (mbufsOf first.pkts ++ ·) (inductionHypothesis found)

theorem fire_accounted {pos flow : ℕ} {event : EventIn} {next : GenManager}
    (accounted : manager.Accounted) (run : manager.fire env pos flow event = some next) :
    next.Accounted := by
  obtain ⟨gen, fl, found, flowFound, -, rfl⟩ := fire_eq_some.mp run
  rw [onFlowEvent_eq gen event flowFound manager.ops]
  show Ops.Accounted _ (gensMbufs (manager.generators.set pos _))
  rw [gensMbufs_set found (by exact rfl)]
  exact Ops.Accounted.emit accounted gen event (gen.advanced fl)

/-- Every step keeps the account. -/
theorem GenManager.Accounted.step {state next : GenState} {label : GenLabel} (sound : state.Sound)
    (accounted : state.manager.Accounted)
    (step : (genMachine env).step state label = some next) : next.manager.Accounted := by
  cases (genStep_spec step).2 with
  | dequeue manager msgs batch => exact accounted
  | handle manager msg rest input =>
    exact onIncMsg_accounted env input msg.msg sound.manager accounted
  | tick manager input => exact beforeTimers_accounted env input sound.manager accounted
  | fire manager next pos flow event run => exact fire_accounted accounted run
  | flush manager tx => exact Ops.Accounted.flush accounted tx
  | nic manager place stats => exact Ops.Accounted.congr accounted rfl rfl rfl rfl

theorem GenManager.accounted_init (workingDir : String) :
    (GenState.init workingDir).manager.Accounted where
  ledger := ⟨fun _ member => absurd member List.not_mem_nil,
    fun _ member => absurd member List.not_mem_nil, List.nodup_nil⟩
  sent := rfl
  increasing := List.Pairwise.nil
  packets _ member := absurd member List.not_mem_nil
  dropped := List.Sublist.refl _

/-- The account holds in every reachable state, and so does the invariant. -/
theorem GenState.accounted_of_run {workingDir : String} {labels : List GenLabel}
    {state : GenState}
    (run : (genMachine env).run (GenState.init workingDir) labels = some state) :
    state.Sound ∧ state.manager.Accounted :=
  (genMachine env).run_invariant (fun state => state.Sound ∧ state.manager.Accounted)
    (fun _ _ _ holds step => ⟨holds.1.step step, holds.2.step holds.1 step⟩)
    ⟨GenState.sound_init workingDir, GenManager.accounted_init workingDir⟩ run

/-- What a copy produces was never stored, sent or freed before. -/
theorem Ops.Accounted.copy_fresh {stored : List MbufId} {pkt mbuf : MbufId}
    (accounted : ops.Accounted stored) (run : copyPkt env pkt ops = (some mbuf, ops')) :
    mbuf ∉ stored.flatMap ops.pool.chain ∧ mbuf ∉ ops.sent ∧ mbuf ∉ ops.pool.freed := by
  obtain ⟨pool, copied, -⟩ := copyPkt_copied run
  obtain ⟨rfl, -⟩ := (MbufPool.copy_spec copied).2.2 mbuf rfl
  refine ⟨fun among => ?_, fun sent => ?_, fun freed => ?_⟩
  · obtain ⟨head, member, segment⟩ := List.mem_flatMap.mp among
    have packet := accounted.ledger.packets head
      (List.mem_append_left _ (List.mem_append_left _ member))
    exact Nat.lt_irrefl _ (packet.allocated _ segment)
  · have packet := accounted.packets _ sent
    exact Nat.lt_irrefl _ (packet.allocated _ packet.head_mem)
  · exact Nat.lt_irrefl _ (accounted.ledger.freed _ freed)

/-! ### The counters of one generation -/

/-- The packets of all flows, as the flows count them. -/
def totalPkts (gens : List FlowsGenerator) : ℕ :=
  (gens.map fun gen => (gen.flows.map fun flow => flow.cntPkts.toNat).sum).sum

/-- Whether a step is a flow event. -/
def GenLabel.isFire : GenLabel → Bool
  | .fire .. => true
  | _ => false

/-- The number of flow events of a run. -/
def cntEvents (labels : List GenLabel) : ℕ := labels.countP GenLabel.isFire

/-- The copy a step makes, which is the one of a flow event. -/
def GenState.copied (env : Env) (state : GenState) : GenLabel → List MbufId
  | .fire pos flow _ =>
    match state.manager.generators[pos]? with
    | none => []
    | some gen =>
      match gen.flows[flow]? with
      | none => []
      | some fl =>
        (copyPkt env (pktAt gen.pkts (gen.advanced fl).pktIdx).mbuf state.manager.ops).1.toList
  | _ => []

/-- The copies made along a run, in order. -/
def copies (env : Env) : GenState → List GenLabel → List MbufId
  | _, [] => []
  | state, label :: rest => state.copied env label ++
      (((genMachine env).step state label).map fun next => copies env next rest).getD []

/-- The counters of the manager since a generation started: the packets sent and the copies
missed make up the flow events, and the packets dropped and the copies missed are counted. -/
def Ops.Counted (start ops : Ops) (sent : List MbufId) (events : ℕ) : Prop :=
  ∃ bursts missed, ops.bursts = start.bursts ++ bursts ∧ ops.sent = start.sent ++ sent ∧
    sent.length + missed = events ∧
    ops.cntTxPktsQfull = UInt64.ofNat (droppedPkts bursts).length ∧
    ops.cntTxPktsNombuf = UInt64.ofNat missed

theorem Ops.Counted.congr {start : Ops} {sent : List MbufId} {events : ℕ}
    (counted : start.Counted ops sent events) (bursts : ops'.bursts = ops.bursts)
    (same : ops'.sent = ops.sent) (qfull : ops'.cntTxPktsQfull = ops.cntTxPktsQfull)
    (nombuf : ops'.cntTxPktsNombuf = ops.cntTxPktsNombuf) : start.Counted ops' sent events := by
  rw [Counted, bursts, same, qfull, nombuf]
  exact counted

/-- The packets of a burst that are dropped are counted. -/
theorem Ops.Counted.transmit {start : Ops} {sent : List MbufId} {events : ℕ}
    (counted : start.Counted ops sent events) (tx : TxAnswer) :
    start.Counted (transmitTxPkts tx ops) sent events := by
  obtain ⟨bursts, missed, burstsEq, sentEq, count, qfull, nombuf⟩ := counted
  refine ⟨bursts ++ [⟨ops.txPkts, tx.accept ops.txPkts.length⟩], missed, ?_, sentEq, count, ?_,
    nombuf⟩
  · rw [← List.append_assoc, ← burstsEq]
    rfl
  · rw [droppedPkts_append, List.length_append, UInt64.ofNat_add, ← qfull, transmitTxPkts]
    split
    · rfl
    · next all =>
      rw [List.drop_eq_nil_of_le (Nat.le_of_not_lt all)]
      exact (UInt64.add_zero _).symm

theorem Ops.Counted.flush {start : Ops} {sent : List MbufId} {events : ℕ}
    (counted : start.Counted ops sent events) (tx : TxAnswer) :
    start.Counted (flushTxPkts tx ops) sent events := by
  rw [flushTxPkts]
  split
  · exact counted
  · exact counted.transmit tx

/-- A flow event sends its copy or counts a missed one. -/
theorem Ops.Counted.emit {start : Ops} {sent : List MbufId} {events : ℕ}
    (counted : start.Counted ops sent events) (gen : FlowsGenerator) (event : EventIn)
    (fl : Flow) :
    start.Counted (gen.emitPkt env event fl ops).2
      (sent ++ (copyPkt env (pktAt gen.pkts fl.pktIdx).mbuf ops).1.toList) (events + 1) := by
  obtain ⟨bursts, missed, burstsEq, sentEq, count, qfull, nombuf⟩ := counted
  cases emitPkt_cases env gen event fl ops with
  | missed after refused result =>
    rw [result, refused]
    obtain ⟨pool, -, rfl⟩ := copyPkt_refused refused
    refine ⟨bursts, missed + 1, burstsEq, ?_, ?_, qfull, ?_⟩
    · rw [Option.toList_none, List.append_nil]
      exact sentEq
    · rw [Option.toList_none, List.append_nil, ← count, Nat.add_assoc]
    · rw [UInt64.ofNat_add, ← nombuf]
      rfl
  | sent copy after granted result =>
    rw [result, granted]
    obtain ⟨pool, -, rfl⟩ := copyPkt_copied granted
    have pushed : start.Counted
        (pushTxPkt copy (setAddrs (gen.reportOf event fl ops) copy { ops with pool }))
        (sent ++ [copy]) (events + 1) := by
      refine ⟨bursts, missed, burstsEq, ?_, ?_, qfull, nombuf⟩
      · rw [← List.append_assoc, ← sentEq]
        rfl
      · rw [List.length_append, List.length_singleton, Nat.add_right_comm, count]
    have sentPkt : start.Counted
        (sendPkt event.tx copy (setAddrs (gen.reportOf event fl ops) copy { ops with pool }))
        (sent ++ [copy]) (events + 1) := by
      rw [sendPkt]
      split
      · exact pushed.transmit event.tx
      · exact pushed
    generalize sendPkt event.tx copy _ = sentOps at *
    exact sentPkt.congr rfl rfl rfl rfl

theorem emitPkt_cntPkts (env : Env) (gen : FlowsGenerator) (event : EventIn) (fl : Flow)
    (ops : Ops) :
    (gen.emitPkt env event (gen.advanced fl) ops).1.cntPkts = fl.cntPkts + 1 := by
  have advanced : (gen.advanced fl).cntPkts = fl.cntPkts := by
    rw [FlowsGenerator.advanced, FlowsGenerator.nextPkt]
    split <;> rfl
  rw [← advanced, emitPkt_flow]
  rfl

/-- A flow event counts one more packet, in the 64 bits its flow counts with. -/
theorem totalPkts_fire {pos flow : ℕ} {event : EventIn} {next : GenManager}
    (run : manager.fire env pos flow event = some next) :
    ∃ cnt ≤ totalPkts manager.generators, cnt < 2 ^ 64 ∧
      totalPkts next.generators + cnt = totalPkts manager.generators + (cnt + 1) % 2 ^ 64 := by
  obtain ⟨gen, fl, found, flowFound, -, rfl⟩ := fire_eq_some.mp run
  have ofFlow : fl.cntPkts.toNat ≤ (gen.flows.map fun flow => flow.cntPkts.toNat).sum :=
    List.le_sum_of_mem (List.mem_map.mpr ⟨fl, List.mem_of_getElem? flowFound, rfl⟩)
  have ofGen : (gen.flows.map fun flow => flow.cntPkts.toNat).sum ≤
      totalPkts manager.generators :=
    List.le_sum_of_mem (List.mem_map.mpr ⟨gen, List.mem_of_getElem? found, rfl⟩)
  refine ⟨fl.cntPkts.toNat, Nat.le_trans ofFlow ofGen, UInt64.toNat_lt _, ?_⟩
  rw [onFlowEvent_eq gen event flowFound manager.ops]
  have flows := sum_set (fun flow => flow.cntPkts.toNat)
    (gen.emitPkt env event (gen.advanced fl) manager.ops).1 flowFound
  rw [emitPkt_cntPkts, UInt64.toNat_add, UInt64.toNat_one] at flows
  have gens := sum_set (fun gen => (gen.flows.map fun flow => flow.cntPkts.toNat).sum)
    { gen with
      flows := gen.flows.set flow (gen.emitPkt env event (gen.advanced fl) manager.ops).1
      cursor := (gen.nextPkt { fl with event := fired fl.event }).2.2 } found
  simp only [totalPkts] at *
  omega

/-- The counters while a generation runs. -/
structure GenManager.Running (start : Ops) (sent : List MbufId) (events : ℕ)
    (manager : GenManager) : Prop where
  counted : start.Counted manager.ops sent events
  total : totalPkts manager.generators % 2 ^ 64 = events % 2 ^ 64
  unwrapped : events < 2 ^ 64 → totalPkts manager.generators = events

/-- The counters read the generators and some of the operations only. -/
theorem GenManager.Running.congr {start : Ops} {sent : List MbufId} {events : ℕ}
    {next : GenManager} (running : manager.Running start sent events)
    (generators : next.generators = manager.generators)
    (bursts : next.ops.bursts = manager.ops.bursts) (same : next.ops.sent = manager.ops.sent)
    (qfull : next.ops.cntTxPktsQfull = manager.ops.cntTxPktsQfull)
    (nombuf : next.ops.cntTxPktsNombuf = manager.ops.cntTxPktsNombuf) :
    next.Running start sent events where
  counted := running.counted.congr bursts same qfull nombuf
  total := generators ▸ running.total
  unwrapped := generators ▸ running.unwrapped

theorem GenManager.Running.flush {start : Ops} {sent : List MbufId} {events : ℕ}
    (running : manager.Running start sent events) (tx : TxAnswer) :
    (manager.flush tx).Running start sent events where
  counted := running.counted.flush tx
  total := running.total
  unwrapped := running.unwrapped

/-- A request that does not end the generation leaves the counters alone. -/
theorem onIncMsg_running {start : Ops} {sent : List MbufId} {events : ℕ} (input : StartIn)
    (msg : ReqMsg) (running : manager.Running start sent events)
    (started : manager.generationStarted = true)
    (still : (onIncMsg env input manager msg).generationStarted = true) :
    (onIncMsg env input manager msg).Running start sent events := by
  obtain ⟨res, -, result⟩ := onIncMsg_still env input msg started still
  rw [result]
  exact running.congr rfl rfl rfl rfl rfl

theorem beforeTimers_running {start : Ops} {sent : List MbufId} {events : ℕ} (input : TickIn)
    (running : manager.Running start sent events)
    (still : (beforeTimers env input manager).2.generationStarted = true) :
    (beforeTimers env input manager).2.Running start sent events := by
  have received : GenManager.Running start sent events
      { manager with ops := receiveRxPkts input.rx manager.ops } :=
    running.congr rfl rfl rfl rfl rfl
  rcases beforeTimers_still env input still with ⟨prevCycles, result⟩ | result
  · rw [result]
    exact received.congr rfl rfl rfl rfl rfl
  · rw [result]
    exact received.flush input.tx

/-- A flow event is counted once. -/
theorem GenManager.Running.fire {start : Ops} {sent : List MbufId} {events : ℕ}
    {pos flow : ℕ} {event : EventIn} {next : GenManager}
    (running : manager.Running start sent events)
    (run : manager.fire env pos flow event = some next) :
    next.Running start (sent ++ GenState.copied env ⟨manager, .timers⟩ (.fire pos flow event))
      (events + 1) := by
  obtain ⟨cnt, bound, small, total⟩ := totalPkts_fire run
  obtain ⟨before, unwrapped⟩ := And.intro running.total running.unwrapped
  obtain ⟨gen, fl, found, flowFound, -, rfl⟩ := fire_eq_some.mp run
  refine { counted := ?_, total := by omega, unwrapped := by omega }
  have copied : GenState.copied env ⟨manager, .timers⟩ (.fire pos flow event) =
      (copyPkt env (pktAt gen.pkts (gen.advanced fl).pktIdx).mbuf manager.ops).1.toList := by
    simp only [GenState.copied, found, flowFound]
  rw [copied, onFlowEvent_eq gen event flowFound manager.ops]
  exact running.counted.emit gen event (gen.advanced fl)

/-- Other steps copy nothing. -/
theorem GenManager.Running.quiet {start : Ops} {sent : List MbufId} {events : ℕ}
    {state : GenState} {label : GenLabel} (running : manager.Running start sent events)
    (noFire : label.isFire = false) :
    manager.Running start (sent ++ state.copied env label)
      (events + if label.isFire then 1 else 0) := by
  have none : state.copied env label = [] := by
    cases label with
    | fire => exact absurd noFire (by simp [GenLabel.isFire])
    | dequeue | handle | tick | flush | nic => rfl
  rw [none, List.append_nil, noFire]
  exact running

/-- Every step of a generation keeps the count of its packets. -/
theorem GenManager.Running.step {start : Ops} {sent : List MbufId} {events : ℕ}
    {state next : GenState} {label : GenLabel}
    (running : state.manager.Running start sent events)
    (started : state.manager.generationStarted = true)
    (still : next.manager.generationStarted = true)
    (step : (genMachine env).step state label = some next) :
    next.manager.Running start (sent ++ state.copied env label)
      (events + if label.isFire then 1 else 0) := by
  cases (genStep_spec step).2 with
  | fire manager next pos flow event run => exact running.fire run
  | dequeue manager msgs batch => exact running.quiet rfl
  | handle manager msg rest input =>
    exact (onIncMsg_running input msg.msg running started still).quiet rfl
  | tick manager input => exact (beforeTimers_running input running still).quiet rfl
  | flush manager tx => exact (running.flush tx).quiet rfl
  | nic manager place stats =>
    have same : GenManager.Running start sent events
        { manager with ops := { manager.ops with ethStats := stats } } :=
      running.congr rfl rfl rfl rfl rfl
    exact same.quiet rfl

/-- So does every run of it. -/
theorem GenManager.Running.run {start : Ops} {sent : List MbufId} {events : ℕ}
    {state final : GenState} {labels : List GenLabel}
    (running : state.manager.Running start sent events)
    (started : (genMachine env).AllStates
      (fun state => state.manager.generationStarted = true) state labels)
    (run : (genMachine env).run state labels = some final) :
    final.manager.Running start (sent ++ copies env state labels) (events + cntEvents labels) := by
  induction labels generalizing state sent events with
  | nil =>
    obtain rfl := Option.some.inj run
    rw [copies, List.append_nil]
    exact running
  | cons label rest inductionHypothesis =>
    obtain ⟨next, step, run⟩ := ((genMachine env).run_cons_eq_some).mp run
    have later := inductionHypothesis
      (running.step started.1 (started.2 next step).head step) (started.2 next step) run
    rw [copies, step, Option.map_some, Option.getD_some, ← List.append_assoc]
    have count : events + cntEvents (label :: rest) =
        events + (if label.isFire then 1 else 0) + cntEvents rest := by
      rw [cntEvents, List.countP_cons, Nat.add_assoc, Nat.add_comm (List.countP _ _)]
      rfl
    rw [count]
    exact later

/-- The counters right after a start that reset the statistics. -/
theorem onStartGeneration_running {input : StartIn} {cfg : GenConfig} (sound : manager.Sound)
    (idle : manager.generationStarted = false) (reset : input.resetErr = 0)
    (started : (onStartGeneration env input cfg manager).generationStarted = true) :
    (onStartGeneration env input cfg manager).Running
      (onStartGeneration env input cfg manager).ops [] 0 := by
  cases onStartGeneration_cases env input cfg manager sound.empty with
  | refused running => exact absurd (idle.symm.trans running) Bool.false_ne_true
  | failed thrown middle _ undone result =>
    rw [result] at started
    exact absurd (idle.symm.trans started) Bool.false_ne_true
  | begun gens middle _ built done result =>
    have none : totalPkts gens = 0 := by
      refine List.sum_eq_zero fun cnt member => ?_
      obtain ⟨gen, among, rfl⟩ := List.mem_map.mp member
      refine List.sum_eq_zero fun cnt member => ?_
      obtain ⟨flow, ofGen, rfl⟩ := List.mem_map.mp member
      rw [((done.fresh gen among).unused flow ofGen).1]
      rfl
    rw [result, resetStats, if_pos reset]
    exact {
      counted := ⟨[], 0, (List.append_nil _).symm, (List.append_nil _).symm, rfl, rfl, rfl⟩
      total := by
        show totalPkts gens % _ = _
        rw [none]
      unwrapped := fun _ => none }

/-- No packet and no buffer gets lost. In every state of a generation whose start reset the
statistics: the packets the flows have counted are those the NIC accepted, those it did not,
those without a buffer for the copy and those waiting, in the 64 bits of the counters. What was
sent since the start are the copies made since then, in order, each sent once and offered to
the NIC in that order. The packets stored, accepted and waiting share no buffer, none of their
buffers was freed, and what the NIC did not accept was freed once, in order. A copy made next
was never stored, sent or freed. -/
theorem packets_conserved (env : Env) (workingDir : String) {before : List GenLabel}
    {manager : GenManager} {request : Option ℕ} {cfg : GenConfig} {rest : List (Tagged ReqMsg)}
    (reached : (genMachine env).run (GenState.init workingDir) before =
      some ⟨manager, .handling (⟨request, .startGeneration cfg⟩ :: rest)⟩)
    (idle : manager.generationStarted = false) {input : StartIn} (reset : input.resetErr = 0)
    {started : GenState}
    (start : (genMachine env).step
      ⟨manager, .handling (⟨request, .startGeneration cfg⟩ :: rest)⟩ (.handle input) = some started)
    {labels : List GenLabel}
    (running : (genMachine env).AllStates
      (fun state => state.manager.generationStarted = true) started labels)
    {final : GenState} (run : (genMachine env).run started labels = some final) :
    let ops := final.manager.ops
    let stored := gensMbufs final.manager.generators
    let sent := copies env started labels
    ∃ bursts, ops.bursts = started.manager.ops.bursts ++ bursts ∧
      ops.sent = started.manager.ops.sent ++ sent ∧
      sent = bursts.flatMap Burst.offered ++ ops.txPkts ∧
      totalPkts final.manager.generators % 2 ^ 64 =
        ((acceptedPkts bursts).length + ops.cntTxPktsQfull.toNat + ops.cntTxPktsNombuf.toNat +
          ops.txPkts.length) % 2 ^ 64 ∧
      (cntEvents labels < 2 ^ 64 → totalPkts final.manager.generators =
        (acceptedPkts bursts).length + ops.cntTxPktsQfull.toNat + ops.cntTxPktsNombuf.toNat +
          ops.txPkts.length) ∧
      ops.sent.Pairwise (· < ·) ∧
      (ops.pool.freed ++
        (stored ++ acceptedPkts ops.bursts ++ ops.txPkts).flatMap ops.pool.chain).Nodup ∧
      ((droppedPkts ops.bursts).flatMap ops.pool.chain).Sublist ops.pool.freed ∧
      ∀ pkt mbuf ops', copyPkt env pkt ops = (some mbuf, ops') →
        mbuf ∉ stored.flatMap ops.pool.chain ∧ mbuf ∉ ops.sent ∧ mbuf ∉ ops.pool.freed := by
  intro ops stored sent
  obtain ⟨sound, -⟩ := GenState.accounted_of_run reached
  have reachedStart : (genMachine env).run (GenState.init workingDir)
      (before ++ [.handle input]) = some started := by
    rw [Machine.run_append, reached, Option.bind_some, Machine.run_cons, start]
    rfl
  obtain ⟨startSound, startAccounted⟩ := GenState.accounted_of_run reachedStart
  obtain ⟨-, accounted⟩ := GenState.accounted_of_run
    (show (genMachine env).run (GenState.init workingDir) (before ++ [.handle input] ++ labels) =
      some final by rw [Machine.run_append, reachedStart, Option.bind_some, run])
  obtain ⟨quiet, initial⟩ : started.place ≠ .timers ∧
      started.manager.Running started.manager.ops [] 0 := by
    have begun := running.head
    cases (genStep_spec start).2
    exact ⟨by simp, onStartGeneration_running sound.manager idle reset begun⟩
  have counted := initial.run running run
  rw [List.nil_append, Nat.zero_add] at counted
  obtain ⟨bursts, missed, burstsEq, sentEq, count, qfull, nombuf⟩ := counted.counted
  have offered : sent = bursts.flatMap Burst.offered ++ ops.txPkts := by
    have finalSent := accounted.sent
    -- nothing waits for transmission when the generation starts
    rw [sentEq, startAccounted.sent, startSound.quiet quiet, burstsEq, List.append_nil,
      List.flatMap_append, List.append_assoc] at finalSent
    exact List.append_cancel_left finalSent
  have sum : (acceptedPkts bursts).length + (droppedPkts bursts).length + ops.txPkts.length +
      missed = cntEvents labels := by
    rw [accepted_add_dropped, ← List.length_append, ← offered, count]
  have cntQfull : ops.cntTxPktsQfull.toNat = (droppedPkts bursts).length % 2 ^ 64 := by
    rw [← UInt64.toNat_ofNat', ← qfull]
  have cntNombuf : ops.cntTxPktsNombuf.toNat = missed % 2 ^ 64 := by
    rw [← UInt64.toNat_ofNat', ← nombuf]
  refine ⟨bursts, burstsEq, sentEq, offered, ?_, fun few => ?_, accounted.increasing,
    accounted.ledger.once, accounted.dropped, fun pkt mbuf ops' copied =>
      Ops.Accounted.copy_fresh accounted copied⟩
  · rw [counted.total, ← sum]
    omega
  · rw [counted.unwrapped few, ← sum]
    omega

/-- A generation with one flow is about to start. -/
def aboutToStart : List GenLabel :=
  [.dequeue [⟨none, .startGeneration (sampleCfg [oneFlow])⟩]]

/-- The NIC takes nothing. -/
def TxAnswer.refuse : TxAnswer := ⟨fun _ => 0, fun _ => Nat.zero_le _⟩

/-- The flow has an event, and its packet is offered to a NIC that takes nothing. -/
def refusedPkt : List GenLabel :=
  [.tick (tickAt 0 1), .fire 0 0 ⟨0, TxAnswer.all⟩, .flush TxAnswer.refuse]

/-- The one packet of that generation is neither accepted nor waiting, but counted. -/
theorem packets_conserved_refusedPkt : ∃ final bursts,
    (genMachine (sampleEnv samplePool)).run (GenState.init "")
      (aboutToStart ++ [.handle {}] ++ refusedPkt) = some final ∧
    totalPkts final.manager.generators = (acceptedPkts bursts).length +
      final.manager.ops.cntTxPktsQfull.toNat + final.manager.ops.cntTxPktsNombuf.toNat +
      final.manager.ops.txPkts.length ∧
    final.manager.ops.cntTxPktsQfull = 1 := by
  let machine := genMachine (sampleEnv samplePool)
  have reached : machine.run (GenState.init "") aboutToStart = some ⟨{}, .handling
    [⟨none, .startGeneration (sampleCfg [oneFlow])⟩]⟩ := rfl
  have begins : ∀ count ≤ refusedPkt.length,
      (machine.run (GenState.init "") (aboutToStart ++ [.handle {}] ++ refusedPkt.take count)).map
        (fun state => state.manager.generationStarted) = some true := by
    decide +kernel
  have refused : (machine.run (GenState.init "") (aboutToStart ++ [.handle {}] ++ refusedPkt)).map
      (fun state => state.manager.ops.cntTxPktsQfull) = some 1 := by
    decide +kernel
  obtain ⟨started, startRun, -⟩ := Option.map_eq_some_iff.mp (begins 0 (Nat.zero_le _))
  obtain ⟨final, finalRun, qfull⟩ := Option.map_eq_some_iff.mp refused
  rw [List.take_zero, List.append_nil] at startRun
  rw [Machine.run_append, startRun, Option.bind_some] at finalRun
  have start : machine.run ⟨{}, .handling
      [⟨none, .startGeneration (sampleCfg [oneFlow])⟩]⟩ [.handle {}] =
        some started := by
    rw [Machine.run_append, reached, Option.bind_some] at startRun
    exact startRun
  obtain ⟨next, step, same⟩ := (machine.run_cons_eq_some).mp start
  obtain rfl := Option.some.inj same
  have running : machine.AllStates (fun state => state.manager.generationStarted = true) next
      refusedPkt := by
    refine Machine.AllStates.of_take machine fun count bound state run => ?_
    have begun := begins count bound
    rw [Machine.run_append, startRun, Option.bind_some, run] at begun
    exact Option.some.inj begun
  obtain ⟨bursts, -, -, -, -, total, -⟩ :=
    packets_conserved (sampleEnv samplePool) "" reached rfl rfl step running finalRun
  refine ⟨final, bursts, ?_, total (by decide), qfull⟩
  rw [Machine.run_append, startRun, Option.bind_some, finalRun]

end TrafficGenerator
