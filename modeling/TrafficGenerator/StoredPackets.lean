/-
This file is about the packets a generator stores, from the loading of its
capture to the end of the generation. No part of the manager writes to a buffer
that was allocated before it, so a stored packet stays as `load_pkts` left it:
checked to hold its headers in the first segment, and with its length in the
head.
-/

import TrafficGenerator.Conservation
import TrafficGenerator.PacketContents
import TrafficGenerator.Replay

namespace TrafficGenerator

variable {env : Env} {ops ops' : Ops} {pool pool' : MbufPool} {manager : GenManager}

/-! ### Packets in later states -/

/-- A packet of allocated buffers whose head says how many bytes it holds. -/
structure MbufPool.Whole (pool : MbufPool) (head : MbufId) : Prop where
  packet : pool.Packet head (pool.chain head)
  pktLen : (pool.mbufs head).pktLen.toNat = (pool.bytes head).length

/-- One that also holds the Ethernet and the IPv4 header in its first segment. -/
structure MbufPool.Stored (pool : MbufPool) (head : MbufId) : Prop extends pool.Whole head where
  headers : etherHdrLen + ipv4HdrSize ≤ (pool.mbufs head).data.length

theorem MbufPool.Preserves.keeps (preserves : pool.Preserves pool') : pool.Keeps pool' where
  attempts := preserves.attempts
  links id allocated := congrArg Mbuf.next (preserves.mbufs id allocated)

/-- The bytes of a packet are what its buffers hold. -/
theorem MbufPool.Packet.bytes_eq {head : MbufId} {segs : List MbufId}
    (packet : pool.Packet head segs) : pool.bytes head = pool.dataOf segs := by
  rw [bytes, packet.chain_eq]
  rfl

theorem MbufPool.Whole.mbufs_keep {head : MbufId} (whole : pool.Whole head)
    (preserves : pool.Preserves pool') : pool'.mbufs head = pool.mbufs head :=
  preserves.mbufs head (whole.packet.allocated head whole.packet.head_mem)

theorem MbufPool.Packet.bytes_keep {head : MbufId} {segs : List MbufId}
    (packet : pool.Packet head segs) (preserves : pool.Preserves pool') :
    pool'.bytes head = pool.bytes head := by
  rw [(packet.keep preserves.keeps).bytes_eq, packet.bytes_eq]
  exact dataOf_congr fun id member =>
    congrArg Mbuf.data (preserves.mbufs id (packet.allocated id member))

theorem MbufPool.Whole.keep {head : MbufId} (whole : pool.Whole head)
    (preserves : pool.Preserves pool') : pool'.Whole head where
  packet := (whole.packet.keep preserves.keeps).self
  pktLen := by rw [whole.mbufs_keep preserves, whole.packet.bytes_keep preserves, whole.pktLen]

theorem MbufPool.Stored.keep {head : MbufId} (stored : pool.Stored head)
    (preserves : pool.Preserves pool') : pool'.Stored head where
  toWhole := stored.toWhole.keep preserves
  headers := by
    rw [stored.toWhole.mbufs_keep preserves]
    exact stored.headers

/-! ### Loading -/

/-- A packet just loaded; its length is a 32-bit number of the file. -/
theorem MbufPool.Holds.whole {head : MbufId} {segs : List MbufId} {bytes : List UInt8}
    (holds : pool.Holds env.answers head segs bytes) (small : bytes.length < 2 ^ 32) :
    pool.Whole head where
  packet := holds.packet.self
  pktLen := by
    rw [holds.pktLen, holds.packet.bytes_eq, holds.data]
    exact UInt32.toNat_ofNat_of_lt' small

theorem hostNum_lt (bytes : List UInt8) : hostNum bytes < 256 ^ bytes.length := by
  induction bytes with
  | nil => exact Nat.one_pos
  | cons byte rest inductionHypothesis =>
    have small := byte.toNat_lt
    rw [hostNum, List.length_cons, Nat.pow_succ]
    omega

theorem PktLoaded.whole {pkt : TcapPkt} {file file' : File}
    (loaded : PktLoaded env pkt ops ops' file file') : ops'.pool.Whole pkt.mbuf := by
  obtain ⟨segs, holds⟩ := loaded.holds
  refine holds.whole ?_
  have number := hostNum_lt ((file.data.drop 8).take 4)
  have size : 256 ^ ((file.data.drop 8).take 4).length ≤ 256 ^ 4 :=
    Nat.pow_le_pow_right (by decide) (List.length_take_le _ _)
  rw [List.length_take]
  exact Nat.lt_of_le_of_lt (Nat.min_le_left _ _) (Nat.lt_of_lt_of_le number size)

/-- Packets loaded since an attempt. -/
def MbufPool.WholeFrom (bound : ℕ) (pool : MbufPool) (pkts : List Pkt) : Prop :=
  ∀ pkt ∈ pkts, pool.Whole pkt.mbuf ∧ bound ≤ pkt.mbuf

/-- The first loop of `load_pkts`. -/
theorem loadLoop_whole {cfg : FlowsGeneratorConfig} {fuel bound : ℕ} {load load' : LoadState}
    {file : File} {thrown : Option Thrown} {ops : Ops} (older : bound ≤ ops.pool.attempts)
    (whole : ops.pool.WholeFrom bound load.ret)
    (run : loadLoop env cfg fuel load ops file = (load', thrown, ops')) :
    ops.pool.Preserves ops'.pool ∧ ops'.pool.WholeFrom bound load'.ret := by
  induction fuel generalizing load ops file with
  | zero =>
    obtain ⟨rfl, -, rfl⟩ := run
    exact ⟨MbufPool.WritesFrom.refl _ _, whole⟩
  | succ fuel inductionHypothesis =>
    have kept : ∀ {later : Ops}, ops.pool.Preserves later.pool →
        later.pool.WholeFrom bound load.ret := fun preserves pkt member =>
      ⟨(whole pkt member).1.keep preserves, (whole pkt member).2⟩
    rw [loadLoop] at run
    split at run
    · next failed =>
      have preserves := loadPkt_writes failed
      split at run
      · obtain ⟨rfl, -, rfl⟩ := run
        exact ⟨preserves, kept preserves⟩
      · obtain ⟨rfl, -, rfl⟩ := run
        exact ⟨preserves, kept preserves⟩
    · next pk middle rest loaded =>
      have preserves := loadPkt_writes loaded
      have pktLoaded := loadPkt_holds loaded
      have added : middle.pool.WholeFrom bound (addPkt env.hz cfg.interPktsGap pk load).ret := by
        intro pkt member
        rcases List.mem_append.mp member with before | new
        · exact kept preserves pkt before
        · rw [List.mem_singleton.mp new]
          exact ⟨pktLoaded.whole, Nat.le_trans older pktLoaded.fresh⟩
      obtain ⟨later, wholeLater⟩ := inductionHypothesis
        (Nat.le_trans older preserves.attempts) added run
      exact ⟨MbufPool.Preserves.trans preserves later, wholeLater⟩

/-- Headers were written to buffers from a number on. -/
structure MbufPool.Prepared (bound : ℕ) (before after : MbufPool) : Prop
    extends before.WritesFrom bound after where
  same : after.attempts = before.attempts
  written : ∀ id, HeadersWritten (before.mbufs id) (after.mbufs id)

theorem MbufPool.Prepared.trans {bound : ℕ} {pool'' : MbufPool} (first : pool.Prepared bound pool')
    (second : pool'.Prepared bound pool'') : pool.Prepared bound pool'' where
  toWritesFrom := first.toWritesFrom.trans second.toWritesFrom
  same := second.same.trans first.same
  written id := (first.written id).trans (second.written id)

/-- The packets keep their buffers and lengths. -/
theorem MbufPool.Whole.prepared {bound : ℕ} {head : MbufId} (whole : pool.Whole head)
    (prepared : pool.Prepared bound pool') : pool'.Whole head := by
  have keeps : pool.Keeps pool' :=
    ⟨prepared.same.ge, fun id _ => (prepared.written id).next⟩
  have packet := whole.packet.keep keeps
  obtain ⟨data, head', -⟩ := prepared.written head
  refine ⟨packet.self, ?_⟩
  rw [packet.bytes_eq, dataOf, List.length_flatMap, head']
  rw [whole.pktLen, whole.packet.bytes_eq, dataOf, List.length_flatMap]
  congr 1
  refine List.map_congr_left fun id _ => ?_
  obtain ⟨data, written, length⟩ := prepared.written id
  rw [written]
  exact length.symm

/-- The second loop of `load_pkts`. -/
theorem prepareLoop_prepared {cfg : FlowsGeneratorConfig} {clnEtherAddr : Option (List UInt8)}
    {pkts : List Pkt} {ops : Ops} {res : Except Thrown (List Pkt)} {bound : ℕ}
    (new : ∀ pkt ∈ pkts, bound ≤ pkt.mbuf)
    (run : prepareLoop env cfg clnEtherAddr pkts ops = (res, ops')) :
    ops.pool.Prepared bound ops'.pool ∧ ∀ prepared, res = .ok prepared → ∀ pkt ∈ pkts,
      etherHdrLen + ipv4HdrSize ≤ (ops'.pool.mbufs pkt.mbuf).data.length := by
  have refl : ∀ pool : MbufPool, pool.Prepared bound pool := fun pool =>
    ⟨MbufPool.WritesFrom.refl _ _, rfl, fun id => HeadersWritten.refl _⟩
  induction pkts generalizing clnEtherAddr ops res with
  | nil =>
    obtain ⟨rfl, rfl⟩ := run
    exact ⟨refl _, fun _ _ pkt member => absurd member List.not_mem_nil⟩
  | cons pkt rest inductionHypothesis =>
    rw [prepareLoop] at run
    split at run
    · obtain ⟨rfl, rfl⟩ := run
      exact ⟨refl _, by simp⟩
    · next addr fromCln mbuf prepared =>
      obtain ⟨written, headers⟩ := preparePkt_written prepared
      have first : ops.pool.Prepared bound (ops.pool.modify pkt.mbuf fun _ => mbuf) := by
        refine ⟨ops.pool.writesFrom_modify (new pkt List.mem_cons_self) _, rfl, fun id => ?_⟩
        by_cases same : id = pkt.mbuf
        · rw [same, MbufPool.modify_self]
          exact written
        · rw [MbufPool.modify_of_ne _ same]
          exact HeadersWritten.refl _
      have newRest : ∀ other ∈ rest, bound ≤ other.mbuf := fun other member =>
        new other (List.mem_cons_of_mem _ member)
      dsimp only at run
      split at run
      · next failed =>
        obtain ⟨rfl, rfl⟩ := run
        exact ⟨first.trans (inductionHypothesis newRest failed).1, by simp⟩
      · next done =>
        obtain ⟨rfl, rfl⟩ := run
        obtain ⟨later, checked⟩ := inductionHypothesis newRest done
        refine ⟨first.trans later, fun _ _ other member => ?_⟩
        rcases List.mem_cons.mp member with rfl | among
        · obtain ⟨data, same, length⟩ := (first.trans later).written other.mbuf
          rw [same]
          exact headers.trans length.ge
        · exact checked _ rfl other among

/-- `load_pkts` writes to fresh buffers only, and the packets it returns are checked. -/
theorem loadPkts_stored {cfg : FlowsGeneratorConfig} {res : Except Thrown (List Pkt)}
    (run : loadPkts env cfg ops = (res, ops')) :
    ops.pool.Preserves ops'.pool ∧
      ∀ pkts, res = .ok pkts → ∀ pkt ∈ pkts, ops'.pool.Stored pkt.mbuf := by
  have nothing : ops.pool.WholeFrom ops.pool.attempts [] := fun pkt member =>
    absurd member List.not_mem_nil
  rw [loadPkts] at run
  split at run
  · obtain ⟨rfl, rfl⟩ := run
    exact ⟨MbufPool.WritesFrom.refl _ _, by simp⟩
  · split at run
    · next failed =>
      obtain ⟨rfl, rfl⟩ := run
      obtain ⟨preserves, -⟩ := loadLoop_whole (Nat.le_refl _) nothing failed
      exact ⟨MbufPool.Preserves.trans preserves (MbufPool.preserves_freeBulk _ _), by simp⟩
    · next loaded =>
      obtain ⟨preserves, whole⟩ := loadLoop_whole (Nat.le_refl _) nothing loaded
      have new := fun pkt member => (whole pkt member).2
      split at run
      · next failed =>
        obtain ⟨rfl, rfl⟩ := run
        obtain ⟨prepared, -⟩ := prepareLoop_prepared new failed
        exact ⟨MbufPool.Preserves.trans
          (MbufPool.WritesFrom.trans preserves prepared.toWritesFrom)
          (MbufPool.preserves_freeBulk _ _), by simp⟩
      · next pkts _ done =>
        obtain ⟨prepared, checked⟩ := prepareLoop_prepared new done
        obtain ⟨-, -, -, -, mbufs⟩ := prepareLoop_spec done
        have writes := MbufPool.WritesFrom.trans preserves prepared.toWritesFrom
        split at run
        · obtain ⟨rfl, rfl⟩ := run
          exact ⟨writes, by simp⟩
        · obtain ⟨rfl, rfl⟩ := run
          refine ⟨writes, fun other same pkt member => ?_⟩
          obtain rfl := Except.ok.inj same
          have among : pkt.mbuf ∈ mbufsOf pkts := List.mem_map_of_mem member
          rw [mbufs pkts rfl] at among
          obtain ⟨before, memberBefore, sameMbuf⟩ := List.mem_map.mp among
          rw [← sameMbuf]
          exact ⟨(whole before memberBefore).1.prepared prepared, checked _ rfl before memberBefore⟩

/-! ### Every part of the manager -/

theorem dropEvents_pool (env : Env) (flows : List Flow) (ops : Ops) :
    (flows.foldl (fun ops flow => dropEvent env flow.event ops) ops).pool = ops.pool := by
  induction flows generalizing ops with
  | nil => rfl
  | cons flow rest inductionHypothesis =>
    rw [List.foldl_cons, inductionHypothesis]
    cases flow.event with
    | none => rfl
    | some timer => rfl

/-- Destroying generators frees buffers and writes to none. -/
theorem destroyGens_writes (env : Env) (gens : List FlowsGenerator) (ops : Ops) :
    ops.pool.Preserves (destroyGens env gens ops).pool := by
  induction gens generalizing ops with
  | nil => exact MbufPool.WritesFrom.refl _ _
  | cons gen rest inductionHypothesis =>
    have first : ops.pool.Preserves (gen.destroy env ops).pool := by
      show ops.pool.Preserves (MbufPool.freeBulk (List.foldl _ ops gen.flows).pool _)
      rw [dropEvents_pool]
      exact MbufPool.preserves_freeBulk _ _
    exact MbufPool.Preserves.trans first (inductionHypothesis _)

/-- What a generator needs of the pool: its packets are stored, and its flows are at one of them. -/
structure FlowsGenerator.Stored (pool : MbufPool) (gen : FlowsGenerator) : Prop where
  pkts : ∀ pkt ∈ gen.pkts, pool.Stored pkt.mbuf
  flows : ∀ fl ∈ gen.flows, fl.pktIdx.toNat < gen.pkts.length

theorem FlowsGenerator.Stored.keep {gen : FlowsGenerator} (stored : gen.Stored pool)
    (preserves : pool.Preserves pool') : gen.Stored pool' where
  pkts pkt member := (stored.pkts pkt member).keep preserves
  flows := stored.flows

theorem construct_writes {cfg : FlowsGeneratorConfig} {res : Except Thrown FlowsGenerator}
    (run : FlowsGenerator.construct env cfg ops = (res, ops')) :
    ops.pool.Preserves ops'.pool := by
  rcases FlowsGenerator.construct_cases run with ⟨thrown, -, failed⟩ |
    ⟨pkts, middle, thrown, aborted, loaded, -, -, rfl⟩ | ⟨pkts, middle, aborted, loaded, -, -, rfl⟩
  · exact (loadPkts_stored failed).1
  · exact MbufPool.Preserves.trans (loadPkts_stored loaded).1 (MbufPool.preserves_freeBulk _ _)
  · exact (loadPkts_stored loaded).1

theorem construct_stored {cfg : FlowsGeneratorConfig} {gen : FlowsGenerator}
    (run : FlowsGenerator.construct env cfg ops = (.ok gen, ops')) : gen.Stored ops'.pool := by
  have fresh : gen.Fresh :=
    (FlowsGenerator.construct_spec run).fresh gen (List.mem_singleton_self gen)
  obtain ⟨pkts, middle, loaded, rfl, pool⟩ := FlowsGenerator.construct_ok run
  refine ⟨?_, fun fl member => ?_⟩
  · rw [pool]
    exact (loadPkts_stored loaded).2 pkts rfl
  · rw [(fresh.unused fl member).2]
    exact List.length_pos_iff.mpr fresh.pkts

theorem createGens_writes {workingDir : String} {dutAddress : EtherAddr} {idx : UInt32}
    {caps : List FlowsConfig} {gens : List FlowsGenerator} {ops : Ops}
    {res : Except Thrown (List FlowsGenerator)}
    (run : createGens env workingDir dutAddress idx caps gens ops = (res, ops')) :
    ops.pool.Preserves ops'.pool ∧ ((∀ gen ∈ gens, gen.Stored ops.pool) →
      ∀ more, res = .ok more → ∀ gen ∈ more, gen.Stored ops'.pool) := by
  induction caps generalizing idx gens ops with
  | nil =>
    obtain ⟨rfl, rfl⟩ := run
    exact ⟨MbufPool.WritesFrom.refl _ _, fun stored more same => Except.ok.inj same ▸ stored⟩
  | cons cap rest inductionHypothesis =>
    rw [createGens] at run
    split at run
    · next failed =>
      obtain ⟨rfl, rfl⟩ := run
      exact ⟨MbufPool.Preserves.trans (construct_writes failed) (destroyGens_writes _ _ _),
        by simp⟩
    · next gen middle one =>
      have preserves := construct_writes one
      obtain ⟨later, storedLater⟩ := inductionHypothesis run
      refine ⟨MbufPool.Preserves.trans preserves later, fun stored => storedLater ?_⟩
      intro other member
      rcases List.mem_append.mp member with before | new
      · exact (stored other before).keep preserves
      · rw [List.mem_singleton.mp new]
        exact construct_stored one

theorem stopGeneration_writes (env : Env) (manager : GenManager) :
    manager.ops.pool.Preserves (stopGeneration env manager).ops.pool :=
  destroyGens_writes env manager.generators manager.ops

theorem onStartGeneration_writes (env : Env) (input : StartIn) (cfg : GenConfig)
    (manager : GenManager) :
    manager.ops.pool.Preserves (onStartGeneration env input cfg manager).ops.pool := by
  rw [onStartGeneration]
  split
  · exact MbufPool.WritesFrom.refl _ _
  · split
    · next failed => exact (createGens_writes failed).1
    · next gens middle built =>
      have destroyed := destroyGens_writes env manager.generators
        (tgEnforce env manager.generators.isEmpty middle)
      show manager.ops.pool.Preserves (resetStats input.resetErr _).pool
      rw [(resetStats_frame _ _).1]
      exact MbufPool.Preserves.trans (createGens_writes built).1 destroyed

theorem onIncMsg_writes (env : Env) (input : StartIn) (manager : GenManager) (msg : ReqMsg) :
    manager.ops.pool.Preserves (onIncMsg env input manager msg).ops.pool := by
  cases msg with
  | startGeneration cfg => exact onStartGeneration_writes env input cfg manager
  | stopGeneration => exact stopGeneration_writes env manager
  | statsReport => exact MbufPool.WritesFrom.refl _ _

theorem receiveRxPkts_writes (cnt : ℕ) (ops : Ops) :
    ops.pool.Preserves (receiveRxPkts cnt ops).pool := by
  have received : ops.pool.Preserves (ops.pool.receive cnt).2 :=
    ⟨Nat.le_add_right _ _, fun id below => if_neg fun new => Nat.not_le_of_lt below new.1⟩
  exact MbufPool.Preserves.trans received (MbufPool.preserves_freeBulk _ _)

theorem transmitTxPkts_writes (tx : TxAnswer) (ops : Ops) :
    ops.pool.Preserves (transmitTxPkts tx ops).pool := by
  rw [transmitTxPkts_pool]
  exact MbufPool.preserves_freeBulk _ _

theorem flushTxPkts_writes (tx : TxAnswer) (ops : Ops) :
    ops.pool.Preserves (flushTxPkts tx ops).pool := by
  rw [flushTxPkts]
  split
  · exact MbufPool.WritesFrom.refl _ _
  · exact transmitTxPkts_writes tx ops

theorem beforeTimers_writes (env : Env) (input : TickIn) (manager : GenManager) :
    manager.ops.pool.Preserves (beforeTimers env input manager).2.ops.pool := by
  have received := receiveRxPkts_writes input.rx manager.ops
  rcases beforeTimers_cases env input manager with
    ⟨-, aborted, -, result⟩ | ⟨-, result⟩ | ⟨-, result⟩ | ⟨-, result⟩ <;> rw [result]
  · exact received
  · exact MbufPool.Preserves.trans received (MbufPool.Preserves.trans
      (stopGeneration_writes env { manager with ops := receiveRxPkts input.rx manager.ops })
      (flushTxPkts_writes input.tx _))
  · exact received
  · exact MbufPool.Preserves.trans received (flushTxPkts_writes input.tx _)

/-- A copy is made of new buffers. -/
theorem copyPkt_writes {pkt : MbufId} {mbuf : Option MbufId}
    (run : copyPkt env pkt ops = (mbuf, ops')) : ops.pool.Preserves ops'.pool := by
  have copied : ∀ {pool : MbufPool} {mbuf : Option MbufId},
      ops.pool.copy env.answers pkt = (mbuf, pool) → ops.pool.Preserves pool := by
    intro pool mbuf run
    rw [MbufPool.copy] at run
    split at run
    · obtain ⟨-, rfl⟩ := Prod.mk.inj run
      exact ⟨Nat.le_succ _, fun _ _ => rfl⟩
    · next segments _ =>
      obtain ⟨-, rfl⟩ := Prod.mk.inj run
      refine ⟨by show _ ≤ _ + 1 + _; omega, fun id below => ?_⟩
      show ops.pool.placeCopy _ segments id = _
      rw [MbufPool.placeCopy, if_neg (Nat.ne_of_lt below),
        if_neg fun placed => Nat.lt_asymm below placed.1]
  cases mbuf with
  | none =>
    obtain ⟨pool, refused, rfl⟩ := copyPkt_refused run
    exact copied refused
  | some mbuf =>
    obtain ⟨pool, made, rfl⟩ := copyPkt_copied run
    exact copied made

theorem sendPkt_writes (tx : TxAnswer) (pkt : MbufId) (ops : Ops) :
    ops.pool.Preserves (sendPkt tx pkt ops).pool := by
  rw [sendPkt]
  split
  · exact transmitTxPkts_writes tx (pushTxPkt pkt ops)
  · exact MbufPool.WritesFrom.refl _ _

/-- A callback writes to the copy it makes. -/
theorem emitPkt_writes (env : Env) (gen : FlowsGenerator) (event : EventIn) (fl : Flow)
    (ops : Ops) : ops.pool.Preserves (gen.emitPkt env event fl ops).2.pool := by
  cases emitPkt_cases env gen event fl ops with
  | missed after refused result =>
    have copyWrites := copyPkt_writes refused
    rw [result]
    exact copyWrites
  | sent copy after granted result =>
    have copyWrites := copyPkt_writes granted
    obtain ⟨pool, made, rfl⟩ := copyPkt_copied granted
    have new : ops.pool.attempts = copy := ((MbufPool.copy_spec made).2.2 copy rfl).1.symm
    have addressed : pool.WritesFrom ops.pool.attempts
        (setAddrs (gen.reportOf event fl ops) copy { ops with pool }).pool :=
      pool.writesFrom_modify new.le _
    have sent := (sendPkt_writes event.tx copy
      (setAddrs (gen.reportOf event fl ops) copy { ops with pool })).weaken copyWrites.attempts
    rw [result]
    exact MbufPool.WritesFrom.trans copyWrites (MbufPool.WritesFrom.trans addressed sent)

/-- No step writes to a buffer that was allocated before it. -/
theorem step_writes {state next : GenState} {label : GenLabel}
    (step : (genMachine env).step state label = some next) :
    state.manager.ops.pool.Preserves next.manager.ops.pool := by
  cases (genStep_spec step).2 with
  | dequeue | nic => exact MbufPool.WritesFrom.refl _ _
  | handle manager msg rest input => exact onIncMsg_writes env input manager msg.msg
  | tick manager input => exact beforeTimers_writes env input manager
  | fire manager next pos flow event run =>
    obtain ⟨gen, fl, found, flowFound, armed, rfl⟩ := fire_eq_some.mp run
    rw [onFlowEvent_eq gen event flowFound manager.ops]
    exact emitPkt_writes env gen event (gen.advanced fl) manager.ops
  | flush manager tx => exact flushTxPkts_writes tx manager.ops

/-- Nor does any part of a run. -/
theorem run_writes {start final : GenState} {labels : List GenLabel}
    (run : (genMachine env).run start labels = some final) :
    start.manager.ops.pool.Preserves final.manager.ops.pool :=
  (genMachine env).run_invariant
    (fun state => start.manager.ops.pool.Preserves state.manager.ops.pool)
    (fun _ _ _ preserved step => MbufPool.Preserves.trans preserved (step_writes step))
    (MbufPool.WritesFrom.refl _ _) run

/-! ### The invariant -/

/-- What the generators need of the pool. -/
def GenManager.Stored (manager : GenManager) : Prop :=
  ∀ gen ∈ manager.generators, gen.Stored manager.ops.pool

theorem GenManager.Stored.keep {next : GenManager} (stored : manager.Stored)
    (generators : next.generators = manager.generators)
    (preserves : manager.ops.pool.Preserves next.ops.pool) : next.Stored := by
  intro gen member
  rw [generators] at member
  exact (stored gen member).keep preserves

theorem GenManager.Stored.empty (none : manager.generators = []) : manager.Stored := by
  intro gen member
  rw [none] at member
  exact absurd member List.not_mem_nil

theorem onIncMsg_stored (env : Env) (input : StartIn) (msg : ReqMsg) (sound : manager.Sound)
    (stored : manager.Stored) : (onIncMsg env input manager msg).Stored := by
  cases msg with
  | startGeneration cfg =>
    rw [onIncMsg]
    cases onStartGeneration_cases env input cfg manager sound.empty with
    | refused started result =>
      rw [result]
      exact stored
    | failed thrown middle idle undone result =>
      rw [result]
      exact GenManager.Stored.empty (sound.empty idle)
    | begun gens middle idle built done result =>
      rw [result]
      show ∀ gen ∈ gens, gen.Stored (resetStats input.resetErr middle).pool
      rw [(resetStats_frame input.resetErr middle).1]
      exact (createGens_writes built).2 (fun gen member => absurd member List.not_mem_nil) gens rfl
  | stopGeneration => exact GenManager.Stored.empty rfl
  | statsReport => exact stored

/-- The flow an event advances is at one of the packets. -/
theorem advanced_below {gen : FlowsGenerator} (stored : gen.Stored pool) {fl : Flow}
    (member : fl ∈ gen.flows) : (gen.advanced fl).pktIdx.toNat < gen.pkts.length := by
  have below := stored.flows fl member
  have bound : fl.pktIdx.toNat < replayPeriod gen.pkts.length :=
    Nat.lt_min.mpr ⟨below, fl.pktIdx.toNat_lt⟩
  rw [advanced_pktIdx, nextIdx_toNat bound]
  exact Nat.lt_of_lt_of_le (Nat.mod_lt _ (replayPeriod_pos (Nat.zero_lt_of_lt below)))
    (Nat.min_le_left _ _)

theorem fire_stored {pos flow : ℕ} {event : EventIn} {next : GenManager}
    (stored : manager.Stored) (run : manager.fire env pos flow event = some next) :
    next.Stored := by
  obtain ⟨gen, fl, found, flowFound, armed, rfl⟩ := fire_eq_some.mp run
  rw [onFlowEvent_eq gen event flowFound manager.ops]
  have writes := emitPkt_writes env gen event (gen.advanced fl) manager.ops
  intro other member
  rcases List.mem_or_eq_of_mem_set member with before | rfl
  · exact (stored other before).keep writes
  · have self := stored gen (List.mem_of_getElem? found)
    refine ⟨(self.keep writes).pkts, fun fl' among => ?_⟩
    rcases List.mem_or_eq_of_mem_set among with before | rfl
    · exact self.flows fl' before
    · rw [emitPkt_pktIdx]
      exact advanced_below self (List.mem_of_getElem? flowFound)

/-- Every step keeps the packets stored. -/
theorem GenManager.Stored.step {state next : GenState} {label : GenLabel} (sound : state.Sound)
    (stored : state.manager.Stored) (step : (genMachine env).step state label = some next) :
    next.manager.Stored := by
  have writes := step_writes step
  cases (genStep_spec step).2 with
  | dequeue | nic => exact stored
  | handle manager msg rest input => exact onIncMsg_stored env input msg.msg sound.manager stored
  | tick manager input =>
    rcases beforeTimers_generators env input manager with same | empty
    · exact stored.keep same writes
    · exact GenManager.Stored.empty empty
  | fire manager next pos flow event run => exact fire_stored stored run
  | flush manager tx => exact stored.keep rfl writes

theorem GenState.stored_of_run {workingDir : String} {labels : List GenLabel} {state : GenState}
    (run : (genMachine env).run (GenState.init workingDir) labels = some state) :
    state.manager.Stored :=
  ((genMachine env).run_invariant (fun state => state.Sound ∧ state.manager.Stored)
    (fun _ _ _ holds step => ⟨holds.1.step step, holds.2.step holds.1 step⟩)
    ⟨GenState.sound_init workingDir, GenManager.Stored.empty rfl⟩ run).2

end TrafficGenerator
