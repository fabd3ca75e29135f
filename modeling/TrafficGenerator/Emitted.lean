/-
This file is about what the flows send. A flow works on a copy of the stored
packet: the copy is made of new buffers, the two addresses are written to it
where the IPv4 header has them, and the report carries the same two. Nobody
writes to the stored packet, nor to a copy once it is sent, so what one flow
writes never shows in a packet of another.

The header is where it is expected without being looked for again: the stored
packet was found to have it in its first segment when it was loaded, and the
first segment of a copy is no shorter than that.
-/

import TrafficGenerator.StoredPackets

namespace TrafficGenerator

variable {env : Env} {ops ops' : Ops} {pool pool' : MbufPool}

/-! ### Copies -/

/-- A copy is deep: it holds the same bytes, as many of them in its first segment as a buffer
has room for. -/
def PoolAnswers.CopiesDeep (answers : PoolAnswers) (bufSize : ℕ) : Prop :=
  ∀ attempt bytes segments, answers.copy attempt bytes = some segments →
    segments.first ++ segments.rest.flatten = bytes ∧
      segments.first.length = min bytes.length bufSize

/-- The segments of a copy after the first one. -/
theorem placeCopy_rest (pool : MbufPool) (src : Mbuf) (segments : Segments) :
    (List.range' (pool.attempts + 1) segments.rest.length).map
      (fun id => (pool.placeCopy src segments id).data) = segments.rest := by
  refine List.ext_getElem (by simp) fun pos low high => ?_
  have later : pool.attempts + 1 + 1 * pos ≠ pool.attempts := by omega
  have placed : pool.attempts < pool.attempts + 1 + 1 * pos ∧
      pool.attempts + 1 + 1 * pos ≤ pool.attempts + segments.rest.length := by omega
  have shifted : pool.attempts + 1 + 1 * pos - pool.attempts - 1 = pos := by omega
  rw [List.getElem_map, List.getElem_range', MbufPool.placeCopy, if_neg later, if_pos placed]
  show segments.rest.getD _ [] = _
  rw [shifted, List.getD_eq_getElem?_getD, List.getElem?_eq_getElem high, Option.getD_some]

/-- A copy as it is given to a flow: its segments hold the bytes of the packet. -/
structure Copied (pool : MbufPool) (copy : MbufId) (first rest : List UInt8) : Prop where
  packet : ∃ segs, pool.Packet copy (copy :: segs) ∧ pool.dataOf segs = rest
  head : (pool.mbufs copy).data = first

theorem MbufPool.copy_copied {answers : PoolAnswers} {src copy : MbufId}
    (run : pool.copy answers src = (some copy, pool')) :
    ∃ segments, answers.copy pool.attempts (pool.bytes src) = some segments ∧
      Copied pool' copy segments.first segments.rest.flatten := by
  obtain ⟨rfl, segments, granted, mbufs, packet⟩ := (copy_spec run).2.2 copy rfl
  rw [List.range'_succ] at packet
  refine ⟨segments, granted, ⟨_, packet, ?_⟩, ?_⟩
  · rw [dataOf, List.flatMap_def, mbufs, placeCopy_rest]
  · rw [mbufs, placeCopy, if_pos rfl]

theorem Copied.bytes_eq {copy : MbufId} {first rest : List UInt8}
    (copied : Copied pool copy first rest) : pool.bytes copy = first ++ rest := by
  obtain ⟨segs, packet, rest⟩ := copied.packet
  rw [packet.bytes_eq, MbufPool.dataOf, List.flatMap_cons, copied.head]
  exact congrArg _ rest

/-! ### Addresses -/

/-- The bytes of an Ethernet frame with other IPv4 addresses. -/
def withAddrs (srcAddr dstAddr : InAddr) (bytes : List UInt8) : List UInt8 :=
  bytes.take 26 ++ srcAddr ++ dstAddr ++ bytes.drop 34

theorem withAddrs_append {srcAddr dstAddr : InAddr} {first : List UInt8} (rest : List UInt8)
    (headers : 34 ≤ first.length) :
    withAddrs srcAddr dstAddr (first ++ rest) = withAddrs srcAddr dstAddr first ++ rest := by
  rw [withAddrs, withAddrs, List.take_append_of_le_length (Nat.le_trans (by decide) headers),
    List.drop_append_of_le_length headers, List.append_assoc _ _ rest]

/-- What is written to a copy with its headers in the first segment. -/
theorem addressPkt_data {srcAddr dstAddr : InAddr} (srcLength : srcAddr.length = 4)
    (dstLength : dstAddr.length = 4) {mbuf : Mbuf} (headers : 34 ≤ mbuf.data.length) :
    (addressPkt srcAddr dstAddr mbuf).data = withAddrs srcAddr dstAddr mbuf.data := by
  have header : readHdr ipv4HdrSize mbuf etherHdrLen = some 14 := if_pos headers
  have before : (mbuf.data.take 26).length = 26 := by
    rw [List.length_take]
    omega
  have source : (mbuf.data.take 26 ++ srcAddr).length = 30 := by
    rw [List.length_append, before, srcLength]
  rw [addressPkt, header]
  show (mbuf.data.take 26 ++ srcAddr ++ mbuf.data.drop (26 + srcAddr.length)).take 30 ++ dstAddr ++
    (mbuf.data.take 26 ++ srcAddr ++ mbuf.data.drop (26 + srcAddr.length)).drop
      (30 + dstAddr.length) = _
  rw [srcLength, dstLength, ← source, List.take_left, List.drop_append, source,
    List.drop_eq_nil_of_le (by omega), List.drop_drop]
  rfl

theorem addressPkt_next (srcAddr dstAddr : InAddr) (mbuf : Mbuf) :
    (addressPkt srcAddr dstAddr mbuf).next = mbuf.next := by
  rw [addressPkt]
  split <;> rfl

/-- The copy with the addresses written to it. -/
theorem Copied.address {copy : MbufId} {first rest : List UInt8}
    (copied : Copied pool copy first rest) {srcAddr dstAddr : InAddr}
    (srcLength : srcAddr.length = 4) (dstLength : dstAddr.length = 4)
    (headers : 34 ≤ first.length) :
    Copied (pool.modify copy (addressPkt srcAddr dstAddr)) copy
      (withAddrs srcAddr dstAddr first) rest := by
  obtain ⟨segs, packet, rest⟩ := copied.packet
  have keeps : pool.Keeps (pool.modify copy (addressPkt srcAddr dstAddr)) :=
    ⟨Nat.le_refl _, fun id _ =>
      congrFun (pool.modify_links copy (addressPkt_next srcAddr dstAddr)) id⟩
  refine ⟨⟨segs, packet.keep keeps, ?_⟩, ?_⟩
  · rw [← rest]
    refine MbufPool.dataOf_congr fun id member => congrArg Mbuf.data (pool.modify_of_ne ?_ _)
    exact Nat.ne_of_gt (List.rel_of_pairwise_cons packet.increasing member)
  · rw [MbufPool.modify_self, addressPkt_data srcLength dstLength (copied.head ▸ headers),
      copied.head]

/-! ### One event -/

/-- What one event of a flow does with the packet it is about: the report, and the copy that is
sent when there is a buffer for it. The bytes of the packet are those of an earlier pool. -/
structure Emitted (loaded : MbufPool) (gen : FlowsGenerator) (pkt : Pkt) (fl : Flow)
    (report : GenerationReport) (before after : Ops) : Prop where
  reported : after.outMsgs = before.outMsgs ++ [.generationReport report]
  genIdx : report.genIdx = gen.idx
  flowIdx : report.flowIdx = fl.idx
  pktIdx : report.pktIdx = fl.pktIdx
  pktLen : report.pktLen.toNat = (loaded.bytes pkt.mbuf).length
  fromCln : report.fromCln = pkt.fromCln
  srcAddr : report.srcAddr = netBytes32 (if pkt.fromCln then fl.clnIpAddr else fl.srvIpAddr)
  dstAddr : report.dstAddr = netBytes32 (if pkt.fromCln then fl.srvIpAddr else fl.clnIpAddr)
  sent : (report.ok = false ∧ after.sent = before.sent) ∨ (report.ok = true ∧ ∃ copy,
    after.sent = before.sent ++ [copy] ∧ after.pool.bytes copy =
      withAddrs report.srcAddr report.dstAddr (loaded.bytes pkt.mbuf))

theorem sendPkt_sent (tx : TxAnswer) (pkt : MbufId) (ops : Ops) :
    (sendPkt tx pkt ops).sent = ops.sent ++ [pkt] := by
  rw [sendPkt]
  split <;> rfl

/-- A copy of a stored packet has the headers in its first segment. -/
theorem MbufPool.Stored.copy_headers {bufSize : ℕ} (deep : env.answers.CopiesDeep bufSize)
    (room : 34 ≤ bufSize) {head : MbufId} (stored : ops.pool.Stored head) {segments : Segments}
    (granted : env.answers.copy ops.pool.attempts (ops.pool.bytes head) = some segments) :
    34 ≤ segments.first.length := by
  obtain ⟨-, length⟩ := deep _ _ _ granted
  obtain ⟨segs, chain⟩ := stored.toWhole.packet.cons
  have first : (ops.pool.mbufs head).data.length ≤ (ops.pool.bytes head).length := by
    rw [bytes, chain, List.flatMap_cons, List.length_append]
    exact Nat.le_add_right _ _
  rw [length]
  exact Nat.le_min.mpr ⟨Nat.le_trans stored.headers first, room⟩

/-- So the header pointer the callback gets is not null. -/
theorem MbufPool.Stored.header_found {bufSize : ℕ} (deep : env.answers.CopiesDeep bufSize)
    (room : 34 ≤ bufSize) {head copy : MbufId} (stored : ops.pool.Stored head)
    (run : copyPkt env head ops = (some copy, ops')) :
    (readHdr ipv4HdrSize (ops'.pool.mbufs copy) etherHdrLen).isSome := by
  obtain ⟨pool, made, rfl⟩ := copyPkt_copied run
  obtain ⟨segments, granted, copied⟩ := MbufPool.copy_copied made
  have headers : etherHdrLen + ipv4HdrSize ≤ (pool.mbufs copy).data.length := by
    rw [copied.head]
    exact stored.copy_headers deep room granted
  rw [readHdr, if_pos headers]
  rfl

/-- One event, with the stored packet as it is now. -/
theorem emitPkt_emitted {bufSize : ℕ} (deep : env.answers.CopiesDeep bufSize)
    (room : 34 ≤ bufSize) (gen : FlowsGenerator) (event : EventIn) (fl : Flow)
    (stored : ops.pool.Stored (pktAt gen.pkts fl.pktIdx).mbuf) :
    ∃ report, Emitted ops.pool gen (pktAt gen.pkts fl.pktIdx) (gen.emitPkt env event fl ops).1
      report ops (gen.emitPkt env event fl ops).2 := by
  cases emitPkt_cases env gen event fl ops with
  | missed after refused result =>
    have frame := copyPkt_frame refused
    rw [result]
    exact ⟨_, {
      reported := congrArg (· ++ [_]) frame.outMsgs
      genIdx := rfl
      flowIdx := rfl
      pktIdx := rfl
      pktLen := stored.toWhole.pktLen
      fromCln := rfl
      srcAddr := rfl
      dstAddr := rfl
      sent := Or.inl ⟨rfl, frame.sent⟩ }⟩
  | sent copy after copyGranted result =>
    obtain ⟨pool, made, rfl⟩ := copyPkt_copied copyGranted
    obtain ⟨segments, granted, copied⟩ := MbufPool.copy_copied made
    have headers := stored.copy_headers deep room granted
    have addressed : Copied (setAddrs (gen.reportOf event fl ops) copy { ops with pool }).pool
        copy (withAddrs (gen.reportOf event fl ops).srcAddr (gen.reportOf event fl ops).dstAddr
          segments.first) segments.rest.flatten := copied.address rfl rfl headers
    obtain ⟨segs, packet, -⟩ := addressed.packet
    have kept := packet.bytes_keep (sendPkt_writes event.tx copy
      (setAddrs (gen.reportOf event fl ops) copy { ops with pool }))
    rw [result]
    refine ⟨_, {
      reported := congrArg (· ++ [_]) (sendPkt_frame event.tx copy _).2.1
      genIdx := rfl
      flowIdx := rfl
      pktIdx := rfl
      pktLen := stored.toWhole.pktLen
      fromCln := rfl
      srcAddr := rfl
      dstAddr := rfl
      sent := Or.inr ⟨rfl, copy, sendPkt_sent event.tx copy _, ?_⟩ }⟩
    rw [← (deep _ _ _ granted).1, withAddrs_append _ headers, ← addressed.bytes_eq]
    exact kept

/-! ### Every event of every run -/

/-- A packet consists of the same buffers and nothing was written to them. -/
structure MbufPool.Untouched (before after : MbufPool) (head : MbufId) : Prop where
  chain : after.chain head = before.chain head
  mbufs : ∀ id ∈ before.chain head, after.mbufs id = before.mbufs id

theorem MbufPool.Packet.untouched {head : MbufId} (packet : pool.Packet head (pool.chain head))
    (preserves : pool.Preserves pool') : pool.Untouched pool' head where
  chain := packet.chain_keep preserves.keeps
  mbufs id member := preserves.mbufs id (packet.allocated id member)

/-- Every event of every flow emits a stored packet with the flow's addresses and nothing else
changed. Whatever happened since some state of the generation: the packet is the one the report
names, the bytes sent are those it had in that earlier state but for the two addresses, which
are the flow's pair in the packet's direction and the same in the report; the header pointer of
the copy is not null; and no stored packet and no packet sent before is any different. -/
theorem emitted_packets (env : Env) {bufSize : ℕ} (deep : env.answers.CopiesDeep bufSize)
    (room : 34 ≤ bufSize) (workingDir : String) {before labels : List GenLabel}
    {begun state next : GenState}
    (reached : (genMachine env).run (GenState.init workingDir) before = some begun)
    (running : (genMachine env).AllStates
      (fun state => state.manager.generationStarted = true) begun labels)
    (run : (genMachine env).run begun labels = some state) {pos flow : ℕ} {event : EventIn}
    (step : (genMachine env).step state (.fire pos flow event) = some next) :
    let loaded := begun.manager.ops.pool
    ∃ gen gen' fl pkt report, begun.manager.generators[pos]? = some gen ∧
      next.manager.generators[pos]? = some gen' ∧ gen'.flows[flow]? = some fl ∧
      gen.pkts[report.pktIdx.toNat]? = some pkt ∧
      Emitted loaded gen pkt fl report state.manager.ops next.manager.ops ∧
      (∀ copy ops', copyPkt env pkt.mbuf state.manager.ops = (some copy, ops') →
        (readHdr ipv4HdrSize (ops'.pool.mbufs copy) etherHdrLen).isSome) ∧
      (∀ other ∈ begun.manager.generators, ∀ stored ∈ other.pkts,
        loaded.Untouched next.manager.ops.pool stored.mbuf) ∧
      ∀ earlier ∈ state.manager.ops.sent,
        state.manager.ops.pool.Untouched next.manager.ops.pool earlier := by
  intro loaded
  have whole : (genMachine env).run (GenState.init workingDir) (before ++ labels) = some state := by
    rw [Machine.run_append, reached, Option.bind_some, run]
  have begunStored := GenState.stored_of_run reached
  have stateStored := GenState.stored_of_run whole
  obtain ⟨-, accounted⟩ := GenState.accounted_of_run whole
  have writes := run_writes run
  have stepWrites := step_writes step
  have length := generators_length running run
  cases (genStep_spec step).2 with
  | fire manager next pos flow event fired =>
    obtain ⟨gen', fl, found', flowFound, armed, rfl⟩ := fire_eq_some.mp fired
    obtain ⟨gen, found⟩ : ∃ gen, begun.manager.generators[pos]? = some gen := by
      refine ⟨_, List.getElem?_eq_getElem ?_⟩
      rw [← length]
      exact (List.getElem?_eq_some_iff.mp found').1
    obtain ⟨later, foundLater, replayed⟩ := generator_replays found running run
    obtain rfl := Option.some.inj (found'.symm.trans foundLater)
    obtain ⟨pkts, idx⟩ := replay_keeps replayed
    have genStored := stateStored gen' (List.mem_of_getElem? found')
    have below := advanced_below genStored (List.mem_of_getElem? flowFound)
    have pktFound : gen'.pkts[(gen'.advanced fl).pktIdx.toNat]? =
        some (pktAt gen'.pkts (gen'.advanced fl).pktIdx) := by
      rw [pktAt, List.getD_eq_getElem?_getD, List.getElem?_eq_getElem below, Option.getD_some]
    have stored := genStored.pkts _ (List.mem_of_getElem? pktFound)
    have member : pktAt gen'.pkts (gen'.advanced fl).pktIdx ∈ gen.pkts :=
      pkts ▸ List.mem_of_getElem? pktFound
    have same := ((begunStored gen (List.mem_of_getElem? found)).pkts _
      member).toWhole.packet.bytes_keep writes
    obtain ⟨report, emitted⟩ := emitPkt_emitted deep room gen' event (gen'.advanced fl) stored
    refine ⟨gen, _, (gen'.emitPkt env event (gen'.advanced fl) manager.ops).1, _, report, found,
      List.getElem?_set_self (List.getElem?_eq_some_iff.mp found').1, ?_, ?_, ?_,
      fun copy ops' copied => stored.header_found deep room copied, ?_, ?_⟩
    · rw [onFlowEvent_eq gen' event flowFound manager.ops]
      exact List.getElem?_set_self (List.getElem?_eq_some_iff.mp flowFound).1
    · rw [emitted.pktIdx, emitPkt_pktIdx, ← pkts]
      exact pktFound
    · rw [onFlowEvent_eq gen' event flowFound manager.ops]
      exact { emitted with
        genIdx := emitted.genIdx.trans idx
        pktLen := by rw [emitted.pktLen, same]
        sent := by rw [← same]; exact emitted.sent }
    · intro other among pkt stored
      exact ((begunStored other among).pkts pkt stored).toWhole.packet.untouched
        (MbufPool.Preserves.trans writes stepWrites)
    · intro earlier sent
      exact (accounted.packets earlier sent).untouched stepWrites

/-- A pool whose copies have at most 2048 bytes in a buffer. -/
def splittingPool : PoolAnswers := { samplePool with
  copy := fun _ bytes => some ⟨bytes.take 2048,
    if bytes.length ≤ 2048 then [] else [bytes.drop 2048]⟩ }

theorem splittingPool_deep : splittingPool.CopiesDeep 2048 := by
  intro attempt bytes segments granted
  obtain rfl := Option.some.inj granted
  refine ⟨?_, (List.length_take ..).trans (Nat.min_comm _ _)⟩
  dsimp only
  split
  · next short => rw [List.flatten_nil, List.append_nil, List.take_of_length_le short]
  · rw [List.flatten_singleton, List.take_append_drop]

/-- The first event of a flow, right after its generation was started. -/
theorem emitted_packets_first : ∃ begun next report copy,
    (genMachine (sampleEnv splittingPool)).run (GenState.init "")
      [.dequeue [⟨none, .startGeneration (sampleCfg [oneFlow])⟩], .handle {}, .tick (tickAt 0 1)] =
        some begun ∧
    (genMachine (sampleEnv splittingPool)).step begun (.fire 0 0 ⟨0, TxAnswer.all⟩) = some next ∧
    next.manager.ops.outMsgs = begun.manager.ops.outMsgs ++ [.generationReport report] ∧
    next.manager.ops.sent = [copy] ∧ next.manager.ops.pool.bytes copy =
      withAddrs report.srcAddr report.dstAddr (begun.manager.ops.pool.bytes 0) := by
  have sends : (((genMachine (sampleEnv splittingPool)).run (GenState.init "")
      [.dequeue [⟨none, .startGeneration (sampleCfg [oneFlow])⟩], .handle {},
        .tick (tickAt 0 1)]).bind fun begun => ((genMachine (sampleEnv splittingPool)).step begun
      (.fire 0 0 ⟨0, TxAnswer.all⟩)).map fun next => (begun.manager.generationStarted,
        begun.manager.ops.sent, next.manager.ops.sent.length,
        begun.manager.generators.map fun gen => mbufsOf gen.pkts)) =
      some (true, [], 1, [[0]]) := by
    decide +kernel
  obtain ⟨begun, reached, sends⟩ := Option.bind_eq_some_iff.mp sends
  obtain ⟨next, step, sends⟩ := Option.map_eq_some_iff.mp sends
  obtain ⟨started, sends⟩ := Prod.mk.inj sends
  obtain ⟨none, sends⟩ := Prod.mk.inj sends
  obtain ⟨one, stored⟩ := Prod.mk.inj sends
  obtain ⟨gen, gen', fl, pkt, report, found, -, -, pktFound, emitted, -⟩ :=
    emitted_packets (sampleEnv splittingPool) splittingPool_deep (by decide) "" reached
      (show Machine.AllStates _ (fun state => state.manager.generationStarted = true) begun [] from
        started) rfl step
  have first : pkt.mbuf = 0 := by
    have among : mbufsOf gen.pkts ∈ begun.manager.generators.map fun gen => mbufsOf gen.pkts :=
      List.mem_map_of_mem (List.mem_of_getElem? found)
    have member : pkt.mbuf ∈ mbufsOf gen.pkts :=
      List.mem_map_of_mem (List.mem_of_getElem? pktFound)
    rw [stored, List.mem_singleton] at among
    rwa [among, List.mem_singleton] at member
  rcases emitted.sent with ⟨-, same⟩ | ⟨-, copy, sent, bytes⟩
  · rw [same, none] at one
    exact absurd one (by simp)
  · rw [none, List.nil_append] at sent
    exact ⟨begun, next, report, copy, reached, step, emitted.reported, sent, first ▸ bytes⟩

end TrafficGenerator
