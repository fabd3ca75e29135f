/-
This file compares what a sent packet asks of the NIC with what the packet is.
The checksum of the next header is requested by a field of two bits, of which a
UDP checksum takes both: the flags of a TCP and of a UDP checksum together are
those of a UDP checksum, whatever the packet is. The length of the IPv4 header
is taken from the packet as it is.
-/

import TrafficGenerator.Emitted
import TrafficGenerator.HeaderRewrite

namespace TrafficGenerator

variable {env : Env} {ops ops' : Ops} {pool pool' : MbufPool} {manager : GenManager}

/-! ### The request -/

/-- The field of the flags that requests the checksum of the next header. -/
def Mbuf.l4Cksum (mbuf : Mbuf) : UInt64 := (mbuf.olFlags >>> 52) &&& 3

/-- The request describes the packet: the checksum is that of its protocol, and the two lengths
lead behind its complete IPv4 header. -/
structure MbufPool.Described (pool : MbufPool) (head : MbufId) : Prop where
  tcp : (pool.mbufs head).l4Cksum = 1 ↔ (pool.mbufs head).nextProto = 6
  udp : (pool.mbufs head).l4Cksum = 3 ↔ (pool.mbufs head).nextProto = 17
  none : (pool.mbufs head).l4Cksum = 0 ↔ ¬ (pool.mbufs head).HasPorts
  lens : (pool.mbufs head).l2Len + (pool.mbufs head).l3Len = (pool.mbufs head).l4Off
  least : 34 ≤ (pool.mbufs head).l2Len + (pool.mbufs head).l3Len
  complete : (pool.mbufs head).l2Len + (pool.mbufs head).l3Len ≤ (pool.bytes head).length

/-- A UDP packet with a complete IPv4 header. -/
structure MbufPool.IsUdp (pool : MbufPool) (head : MbufId) : Prop where
  udp : (pool.mbufs head).nextProto = 17
  ihl : 5 ≤ (pool.mbufs head).ihl
  complete : (pool.mbufs head).l4Off ≤ (pool.bytes head).length

theorem or_and_self (flags mask : UInt64) : (flags ||| mask) &&& mask = mask := by
  apply UInt64.toBitVec_inj.mp
  ext bit bound
  simp only [UInt64.toBitVec_and, UInt64.toBitVec_or, BitVec.getElem_and, BitVec.getElem_or]
  cases mask.toBitVec[bit] with
  | false => exact Bool.and_false _
  | true => rw [Bool.or_true, Bool.and_true]

/-- Both checksums together are the one of UDP. -/
theorem txOffloadFlags_l4 (flags : UInt64) : ((flags ||| txOffloadFlags) >>> 52) &&& 3 = 3 := by
  have high : txOffloadFlags >>> 52 = 12 ||| 3 := by decide
  rw [UInt64.shiftRight_or, high, ← UInt64.or_assoc]
  exact or_and_self _ 3

/-! ### A copy -/

/-- What the callback does to a copy with its headers in the first segment. -/
theorem addressPkt_request {srcAddr dstAddr : InAddr} (srcLength : srcAddr.length = 4)
    (dstLength : dstAddr.length = 4) {mbuf : Mbuf} (headers : 34 ≤ mbuf.data.length) :
    (addressPkt srcAddr dstAddr mbuf).l4Cksum = 3 ∧
      (addressPkt srcAddr dstAddr mbuf).l2Len + (addressPkt srcAddr dstAddr mbuf).l3Len =
        mbuf.l4Off ∧
      ∀ place < 26, (addressPkt srcAddr dstAddr mbuf).byteAt place = mbuf.byteAt place := by
  have header : readHdr ipv4HdrSize mbuf etherHdrLen = some 14 := if_pos headers
  have srcFits : 14 + 12 + srcAddr.length ≤ mbuf.data.length := by omega
  have dstFits : 14 + 16 + dstAddr.length ≤ (mbuf.writeAt (14 + 12) srcAddr).data.length := by
    obtain ⟨data, same, length⟩ := HeadersWritten.writeAt srcFits
    rw [same, length]
    omega
  unfold addressPkt
  rw [header]
  refine ⟨txOffloadFlags_l4 mbuf.olFlags, ipv4HdrLen_eq mbuf, fun place before => ?_⟩
  exact (Mbuf.writeAt_outside dstFits (Or.inl (by omega))).trans
    (Mbuf.writeAt_outside srcFits (Or.inl (by omega)))

/-- The headers in the first segment of a stored packet are those of its bytes. -/
theorem MbufPool.Stored.byteAt_eq {head : MbufId} (stored : pool.Stored head)
    {first rest : List UInt8} (bytes : first ++ rest = pool.bytes head)
    (headers : 34 ≤ first.length) {place : ℕ} (within : place < 34) :
    first.getD place 0 = (pool.mbufs head).byteAt place := by
  obtain ⟨segs, chain⟩ := stored.toWhole.packet.cons
  have own : pool.bytes head = (pool.mbufs head).data ++ pool.dataOf segs := by
    rw [MbufPool.bytes, chain, List.flatMap_cons]
    rfl
  have enough : 34 ≤ (pool.mbufs head).data.length := stored.headers
  have same := congrArg (fun all : List UInt8 => all[place]?) (bytes.trans own)
  rw [List.getElem?_append_left (by omega), List.getElem?_append_left (by omega)] at same
  rw [Mbuf.byteAt, List.getD_eq_getElem?_getD, List.getD_eq_getElem?_getD, same]

/-- The fields of the IPv4 header that the request is about are read from two of its bytes. -/
theorem headerFields_eq {first second : Mbuf}
    (same : ∀ place < 26, first.byteAt place = second.byteAt place) :
    first.nextProto = second.nextProto ∧ first.ihl = second.ihl ∧ first.l4Off = second.l4Off := by
  have ihl : first.ihl = second.ihl := by
    rw [Mbuf.ihl, Mbuf.ihl, same 14 (by decide)]
  refine ⟨?_, ihl, ?_⟩
  · rw [Mbuf.nextProto, Mbuf.nextProto, same 23 (by decide)]
  · rw [Mbuf.l4Off, Mbuf.l4Off, ihl]

/-- A packet whose request is the one of every sent packet. -/
theorem MbufPool.described_iff {head : MbufId} (cksum : (pool.mbufs head).l4Cksum = 3)
    (lens : (pool.mbufs head).l2Len + (pool.mbufs head).l3Len = (pool.mbufs head).l4Off) :
    pool.Described head ↔ pool.IsUdp head := by
  constructor
  · intro described
    refine ⟨described.udp.mp cksum, ?_, ?_⟩
    · have least := described.least
      rw [lens, Mbuf.l4Off] at least
      omega
    · rw [← lens]
      exact described.complete
  · intro isUdp
    have proto := isUdp.udp
    have ihl := isUdp.ihl
    refine ⟨?_, ?_, ?_, lens, ?_, lens ▸ isUdp.complete⟩
    · rw [cksum, proto]
      exact ⟨fun same => absurd same (by decide), fun same => absurd same (by decide)⟩
    · exact ⟨fun _ => proto, fun _ => cksum⟩
    · rw [cksum]
      exact ⟨fun same => absurd same (by decide), fun other => absurd (Or.inr proto) other⟩
    · rw [lens, Mbuf.l4Off]
      omega

/-- The request on the copy an event sends describes it when the stored packet is a UDP packet with
a complete IPv4 header, and only then. -/
theorem emitPkt_described_iff {bufSize : ℕ} (deep : env.answers.CopiesDeep bufSize)
    (room : 34 ≤ bufSize) (gen : FlowsGenerator) (event : EventIn) (fl : Flow)
    (stored : ops.pool.Stored (pktAt gen.pkts fl.pktIdx).mbuf) {copy : MbufId}
    (run : copyPkt env (pktAt gen.pkts fl.pktIdx).mbuf ops = (some copy, ops')) :
    (gen.emitPkt env event fl ops).2.pool.Described copy ↔
      ops.pool.IsUdp (pktAt gen.pkts fl.pktIdx).mbuf := by
  obtain ⟨pool, made, rfl⟩ := copyPkt_copied run
  obtain ⟨segments, granted, copied⟩ := MbufPool.copy_copied made
  have headers := stored.copy_headers deep room granted
  obtain ⟨whole, -⟩ := deep _ _ _ granted
  rw [emitPkt_copied gen event run]
  generalize reportEq : gen.reportOf event fl ops = report
  have srcLength : report.srcAddr.length = 4 := by rw [← reportEq]; rfl
  have dstLength : report.dstAddr.length = 4 := by rw [← reportEq]; rfl
  have addressed : Copied (setAddrs report copy { ops with pool }).pool copy
      (withAddrs report.srcAddr report.dstAddr segments.first) segments.rest.flatten :=
    copied.address srcLength dstLength headers
  obtain ⟨cksum, lens, fields⟩ := addressPkt_request srcLength dstLength
    (show 34 ≤ (pool.mbufs copy).data.length by rw [copied.head]; exact headers)
  obtain ⟨segs, packet, -⟩ := addressed.packet
  have writes := sendPkt_writes event.tx copy (setAddrs report copy { ops with pool })
  have self : (setAddrs report copy { ops with pool }).pool.mbufs copy =
      addressPkt report.srcAddr report.dstAddr (pool.mbufs copy) := pool.modify_self copy _
  have mbuf := (writes.mbufs copy (packet.allocated copy packet.head_mem)).trans self
  have bytes := (packet.bytes_keep writes).trans addressed.bytes_eq
  show (sendPkt event.tx copy (setAddrs report copy { ops with pool })).pool.Described copy ↔ _
  generalize sendPkt event.tx copy (setAddrs report copy { ops with pool }) = sent at mbuf bytes ⊢
  -- the fields are those of the stored packet
  obtain ⟨proto, ihl, off⟩ := headerFields_eq fun place before =>
    (congrArg (Mbuf.byteAt · place) mbuf).trans ((fields place before).trans
      ((congrArg (fun data : List UInt8 => data.getD place 0) copied.head).trans
        (stored.byteAt_eq whole headers (Nat.lt_trans before (by decide)))))
  have copyOff : (pool.mbufs copy).l4Off = (sent.pool.mbufs copy).l4Off := by
    rw [mbuf]
    exact (headerFields_eq fields).2.2.symm
  have length : (sent.pool.bytes copy).length =
      (ops.pool.bytes (pktAt gen.pkts fl.pktIdx).mbuf).length := by
    rw [bytes, ← whole, List.length_append, List.length_append, withAddrs, List.length_append,
      List.length_append, List.length_append, List.length_take, List.length_drop, srcLength,
      dstLength]
    omega
  rw [MbufPool.described_iff (by rw [mbuf]; exact cksum) (by rw [mbuf, lens, copyOff, ← mbuf])]
  constructor
  · rintro ⟨udp, words, complete⟩
    exact ⟨proto ▸ udp, ihl ▸ words, by rw [← off, ← length]; exact complete⟩
  · rintro ⟨udp, words, complete⟩
    exact ⟨proto ▸ udp, ihl ▸ words, by rw [off, length]; exact complete⟩

/-- Nothing happens to a packet that was described once. -/
theorem MbufPool.Described.keep {head : MbufId} (described : pool.Described head)
    (packet : pool.Packet head (pool.chain head)) (preserves : pool.Preserves pool') :
    pool'.Described head := by
  have mbuf := preserves.mbufs head (packet.allocated head packet.head_mem)
  have bytes := packet.bytes_keep preserves
  refine ⟨?_, ?_, ?_, ?_, ?_, ?_⟩
  · rw [mbuf]
    exact described.tcp
  · rw [mbuf]
    exact described.udp
  · rw [mbuf]
    exact described.none
  · rw [mbuf]
    exact described.lens
  · rw [mbuf]
    exact described.least
  · rw [mbuf, bytes]
    exact described.complete

/-- A flow is at a stored packet when its event is there. -/
theorem FlowsGenerator.Stored.stored_at {gen : FlowsGenerator} (stored : gen.Stored pool)
    {flow : ℕ} {fl : Flow} (found : gen.flows[flow]? = some fl) :
    pool.Stored (pktAt gen.pkts (gen.advanced fl).pktIdx).mbuf := by
  have below := advanced_below stored (List.mem_of_getElem? found)
  refine stored.pkts _ (List.mem_of_getElem? (i := (gen.advanced fl).pktIdx.toNat) ?_)
  rw [pktAt, List.getD_eq_getElem?_getD, List.getElem?_eq_getElem below, Option.getD_some]

/-! ### What the steps send -/

theorem onIncMsg_sent (env : Env) (input : StartIn) (msg : ReqMsg) (sound : manager.Sound) :
    (onIncMsg env input manager msg).ops.sent = manager.ops.sent := by
  cases msg with
  | startGeneration cfg =>
    rw [onIncMsg]
    cases onStartGeneration_cases env input cfg manager sound.empty with
    | refused started result => rw [result]; rfl
    | failed thrown middle idle undone result =>
      rw [result]
      exact undone.frame.sent
    | begun gens middle idle built done result =>
      rw [result]
      exact (resetStats_frame input.resetErr middle).2.1.trans done.frame.sent
  | stopGeneration =>
    obtain ⟨aborted, -, result⟩ := stopGeneration_eq env manager sound.ownsTimers
    rw [onIncMsg, onStopGeneration, result]
    rfl
  | statsReport => rfl

theorem flushTxPkts_sent (tx : TxAnswer) (ops : Ops) : (flushTxPkts tx ops).sent = ops.sent := by
  rw [flushTxPkts]
  split <;> rfl

theorem beforeTimers_sent (env : Env) (input : TickIn) (sound : manager.Sound) :
    (beforeTimers env input manager).2.ops.sent = manager.ops.sent := by
  rcases beforeTimers_cases env input manager with
    ⟨-, aborted, -, result⟩ | ⟨-, result⟩ | ⟨-, result⟩ | ⟨-, result⟩ <;> rw [result]
  · rfl
  · obtain ⟨aborted, -, stopped⟩ := stopGeneration_eq env
      { manager with ops := receiveRxPkts input.rx manager.ops } sound.ownsTimers
    rw [stopped]
    exact flushTxPkts_sent input.tx _
  · rfl
  · exact flushTxPkts_sent input.tx _

theorem emitPkt_sent (env : Env) (gen : FlowsGenerator) (event : EventIn) (fl : Flow) (ops : Ops) :
    (gen.emitPkt env event fl ops).2.sent =
      ops.sent ++ (copyPkt env (pktAt gen.pkts fl.pktIdx).mbuf ops).1.toList := by
  cases emitPkt_cases env gen event fl ops with
  | missed after refused result =>
    rw [result, refused, Option.toList_none, List.append_nil]
    exact (copyPkt_frame refused).sent
  | sent copy after granted result =>
    rw [result, granted]
    refine (sendPkt_sent event.tx copy _).trans ?_
    show after.sent ++ [copy] = _
    rw [(copyPkt_frame granted).sent]
    rfl

/-- The packets sent are described by their requests. -/
def GenState.Described (state : GenState) : Prop :=
  ∀ copy ∈ state.manager.ops.sent, state.manager.ops.pool.Described copy

/-- A callback that gets a buffer for its copy is about a stored UDP packet with a complete IPv4
header. -/
def SendsUdp (env : Env) (state : GenState) : GenLabel → Prop
  | .fire pos flow _ => ∀ gen fl, state.manager.generators[pos]? = some gen →
      gen.flows[flow]? = some fl →
      (copyPkt env (pktAt gen.pkts (gen.advanced fl).pktIdx).mbuf state.manager.ops).1.isSome →
      state.manager.ops.pool.IsUdp (pktAt gen.pkts (gen.advanced fl).pktIdx).mbuf
  | _ => True

/-- What holds in every reachable state. -/
structure GenState.Sending (state : GenState) : Prop where
  sound : state.Sound
  accounted : state.manager.Accounted
  stored : state.manager.Stored

theorem GenState.Sending.step {state next : GenState} {label : GenLabel} (sending : state.Sending)
    (step : (genMachine env).step state label = some next) : next.Sending where
  sound := sending.sound.step step
  accounted := sending.accounted.step sending.sound step
  stored := sending.stored.step sending.sound step

theorem GenState.sending_init (workingDir : String) : (GenState.init workingDir).Sending where
  sound := GenState.sound_init workingDir
  accounted := GenManager.accounted_init workingDir
  stored := GenManager.Stored.empty rfl

/-- A step that sends nothing. -/
theorem GenState.Described.quiet {state next : GenState} {label : GenLabel}
    (sending : state.Sending) (described : state.Described)
    (step : (genMachine env).step state label = some next)
    (sent : next.manager.ops.sent = state.manager.ops.sent) : next.Described := by
  intro copy member
  rw [sent] at member
  exact (described copy member).keep (sending.accounted.packets copy member) (step_writes step)

/-- One step, in both directions. -/
theorem GenState.Described.step_iff {bufSize : ℕ} (deep : env.answers.CopiesDeep bufSize)
    (room : 34 ≤ bufSize) {state next : GenState} {label : GenLabel} (sending : state.Sending)
    (described : state.Described) (step : (genMachine env).step state label = some next) :
    next.Described ↔ SendsUdp env state label := by
  have quiet := described.quiet sending step
  cases (genStep_spec step).2 with
  | fire manager next pos flow event run =>
    obtain ⟨gen, fl, found, flowFound, armed, rfl⟩ := fire_eq_some.mp run
    have genStored := sending.stored gen (List.mem_of_getElem? found)
    have stored := genStored.stored_at flowFound
    have sent := emitPkt_sent env gen event (gen.advanced fl) manager.ops
    have writes := emitPkt_writes env gen event (gen.advanced fl) manager.ops
    have after : (gen.onFlowEvent env event flow manager.ops).2 =
        (gen.emitPkt env event (gen.advanced fl) manager.ops).2 := by
      rw [onFlowEvent_eq gen event flowFound manager.ops]
    have only : SendsUdp env ⟨manager, .timers⟩ (.fire pos flow event) ↔
        ((copyPkt env (pktAt gen.pkts (gen.advanced fl).pktIdx).mbuf manager.ops).1.isSome →
          manager.ops.pool.IsUdp (pktAt gen.pkts (gen.advanced fl).pktIdx).mbuf) := by
      refine ⟨fun sends => sends gen fl found flowFound, fun udp gen' fl' found' flowFound' => ?_⟩
      obtain rfl := Option.some.inj (found.symm.trans found')
      obtain rfl := Option.some.inj (flowFound.symm.trans flowFound')
      exact udp
    rw [only]
    unfold GenState.Described
    dsimp only
    rw [after, sent]
    cases result : copyPkt env (pktAt gen.pkts (gen.advanced fl).pktIdx).mbuf manager.ops with
    | mk mbuf copied =>
      have earlier : ∀ other ∈ manager.ops.sent,
          (gen.emitPkt env event (gen.advanced fl) manager.ops).2.pool.Described other :=
        fun other member => (described other member).keep
          (sending.accounted.packets other member) writes
      cases mbuf with
      | none =>
        refine iff_of_true (fun other member => ?_) fun granted => absurd granted (by simp)
        rw [Option.toList_none, List.append_nil] at member
        exact earlier other member
      | some copy =>
        have self := emitPkt_described_iff deep room gen event (gen.advanced fl) stored result
        constructor
        · intro all _
          exact self.mp (all copy (List.mem_append_right _ (List.mem_singleton_self copy)))
        · intro udp other member
          rcases List.mem_append.mp member with before | new
          · exact earlier other before
          · rw [List.mem_singleton.mp new]
            exact self.mpr (udp rfl)
  | dequeue manager msgs batch => exact iff_of_true (quiet rfl) trivial
  | handle manager msg rest input =>
    exact iff_of_true (quiet (onIncMsg_sent env input msg.msg sending.sound.manager)) trivial
  | tick manager input =>
    exact iff_of_true (quiet (beforeTimers_sent env input sending.sound.manager)) trivial
  | flush manager tx => exact iff_of_true (quiet (flushTxPkts_sent tx manager.ops)) trivial
  | nic manager place stats => exact iff_of_true (quiet rfl) trivial

/-- The requests describe the packets sent, in every state of a run, exactly when every packet that
is sent in it is a UDP packet with a complete IPv4 header. -/
theorem requests_described_iff (env : Env) {bufSize : ℕ} (deep : env.answers.CopiesDeep bufSize)
    (room : 34 ≤ bufSize) (workingDir : String) (labels : List GenLabel) :
    (genMachine env).AllStates GenState.Described (GenState.init workingDir) labels ↔
      (genMachine env).AllSteps (SendsUdp env) (GenState.init workingDir) labels := by
  constructor
  · intro states
    have both := states.and_invariant (genMachine env) GenState.Sending
      (fun _ _ _ sending step => sending.step step) (GenState.sending_init workingDir)
    exact (genMachine env).allSteps_of_allStates
      (fun state => state.Sending ∧ state.Described) (SendsUdp env)
      (fun _ _ _ holds step later => (holds.2.step_iff deep room holds.1 step).mp later.2) both
  · intro steps
    have both := (genMachine env).allStates_of_allSteps
      (fun state => state.Sending ∧ state.Described) (SendsUdp env)
      (fun _ _ _ holds udp step =>
        ⟨holds.1.step step, (holds.2.step_iff deep room holds.1 step).mpr udp⟩)
      ⟨GenState.sending_init workingDir, fun copy member => absurd member List.not_mem_nil⟩ steps
    exact both.imp _ fun _ holds => holds.2

instance (pool : MbufPool) (head : MbufId) : Decidable (pool.IsUdp head) :=
  decidable_of_iff ((pool.mbufs head).nextProto = 17 ∧ 5 ≤ (pool.mbufs head).ihl ∧
      (pool.mbufs head).l4Off ≤ (pool.bytes head).length)
    ⟨fun ⟨udp, ihl, complete⟩ => ⟨udp, ihl, complete⟩,
      fun ⟨udp, ihl, complete⟩ => ⟨udp, ihl, complete⟩⟩

/-- A flow that sends a UDP packet. -/
theorem requests_described_udp : (genMachine (sampleEnv splittingPool)).AllStates
    GenState.Described (GenState.init "") oneExpiration := by
  refine (requests_described_iff (sampleEnv splittingPool) splittingPool_deep (by decide) ""
    oneExpiration).mpr ?_
  have udp : ((genMachine (sampleEnv splittingPool)).run (GenState.init "")
      (oneExpiration.take 3)).map (fun state => state.manager.generators.all fun gen =>
        gen.flows.all fun fl => decide (state.manager.ops.pool.IsUdp
          (pktAt gen.pkts (gen.advanced fl).pktIdx).mbuf)) = some true := by
    decide +kernel
  refine Machine.AllSteps.of_take _ fun count label here state before => ?_
  rcases count with _ | _ | _ | _ | count
  · obtain rfl := Option.some.inj here
    exact trivial
  · obtain rfl := Option.some.inj here
    exact trivial
  · obtain rfl := Option.some.inj here
    exact trivial
  · obtain rfl := Option.some.inj here
    intro gen fl found flowFound _
    obtain ⟨other, run, all⟩ := Option.map_eq_some_iff.mp udp
    obtain rfl := Option.some.inj (before.symm.trans run)
    have flows := List.all_eq_true.mp all gen (List.mem_of_getElem? found)
    exact of_decide_eq_true (List.all_eq_true.mp flows fl (List.mem_of_getElem? flowFound))
  · exact absurd here (by simp [oneExpiration])

/-- A TCP packet. -/
def tcpPacket : List UInt8 :=
  [2, 0, 0, 0, 0, 2, 2, 0, 0, 0, 0, 1, 8, 0,
    0x45, 0, 0, 40, 0, 0, 0, 0, 64, 6, 0, 0, 10, 0, 0, 1, 10, 0, 0, 2,
    0, 80, 1, 0, 0, 0, 0, 1, 0, 0, 0, 0, 0x50, 2, 0, 0, 0, 0, 0, 0]

/-- An environment in which every path names a capture of that packet. -/
def tcpEnv : Env :=
  { sampleEnv splittingPool with fopen := fun _ => .ok (captureFile [⟨0, 0, tcpPacket⟩]) }

/-- The NIC is asked for a UDP checksum. -/
theorem requests_not_described : tcpEnv.answers.CopiesDeep 2048 ∧
    ¬ (genMachine tcpEnv).AllStates GenState.Described (GenState.init "") oneExpiration := by
  refine ⟨splittingPool_deep, fun states => ?_⟩
  have sends : ((genMachine tcpEnv).run (GenState.init "") oneExpiration).map (fun state =>
      state.manager.ops.sent.map fun copy => ((state.manager.ops.pool.mbufs copy).l4Cksum,
        (state.manager.ops.pool.mbufs copy).nextProto)) = some [(3, 6)] := by
    decide +kernel
  obtain ⟨state, run, sent⟩ := Option.map_eq_some_iff.mp sends
  have described : state.Described := states.last _ run
  obtain ⟨copy, member, request⟩ : ∃ copy ∈ state.manager.ops.sent,
      ((state.manager.ops.pool.mbufs copy).l4Cksum,
        (state.manager.ops.pool.mbufs copy).nextProto) = (3, 6) := by
    refine List.mem_map.mp ?_
    rw [sent]
    exact List.mem_singleton_self _
  obtain ⟨cksum, proto⟩ := Prod.mk.inj request
  exact absurd ((described copy member).udp.mp cksum) (by rw [proto]; decide)

end TrafficGenerator
