/-
This file models `gen/priv/flows_generator.cpp`: loading and preparing the
packets of a capture, setting up the flows and their timers, and the timer
callback that emits the next packet of a flow.

A flow's callback is given the generator and the flow's position in it, which is
what the pointers `fgen` and `ctx` of the source stand for.
-/

import TrafficGenerator.TcapLoader

namespace TrafficGenerator

variable (env : Env)

/-- `flows_generator::pkt`. -/
structure Pkt where
  relTsc : Cycles
  mbuf : MbufId
  fromCln : Bool
deriving DecidableEq, Inhabited

/-- `flows_generator::flow`. -/
structure Flow where
  idx : UInt32
  pktIdx : UInt32
  clnIpAddr : UInt32
  srvIpAddr : UInt32
  event : EventHandle
  cntPkts : UInt64
  cntBytes : UInt64
  tstampBeg : Cycles
  tstampEnd : Cycles
deriving DecidableEq

/-- The members that hand out addresses: `cln_ip_addr_`, `srv_ip_addr_` and `burst_idx_`. -/
structure AddrCursor where
  clnIpAddr : UInt32
  srvIpAddr : UInt32
  burstIdx : UInt32
deriving DecidableEq

/-- `flows_generator`. -/
structure FlowsGenerator where
  pkts : List Pkt
  flows : List Flow
  clnIpAddrs : AddrRange
  srvIpAddrs : AddrRange
  idx : UInt32
  cursor : AddrCursor
  burstCnt : UInt32
deriving DecidableEq

/-- `flows_generator::config`. -/
structure FlowsGeneratorConfig where
  idx : UInt32
  capFpath : String
  clnEtherAddr : EtherAddr
  srvEtherAddr : EtherAddr
  burst : UInt32
  flowsPerSec : UInt32
  interPktsGap : Option Int
  clnIpAddrs : NetworkV4
  srvIpAddrs : NetworkV4
  clnPort : Option UInt16

/-- The buffers a list of packets owns. -/
def mbufsOf (pkts : List Pkt) : List MbufId := pkts.map Pkt.mbuf

/-- `pkts_[idx]`. -/
def pktAt (pkts : List Pkt) (idx : UInt32) : Pkt := pkts.getD idx.toNat default

/-! ### Loading the packets -/

/-- `if_gap`, in microseconds. -/
def ifGap : Int := 100000

/-- The locals of the first loop of `load_pkts`. -/
structure LoadState where
  ret : List Pkt
  ipgTstamp : Option Int
  prevTstamp : Option Int

/-- The body of the first loop once a packet is loaded. -/
def addPkt (hz : UInt64) (ipg : Option Int) (pk : TcapPkt) (load : LoadState) : LoadState :=
  let tstamp : Int := load.ipgTstamp.getD pk.tstamp
  let prevTstamp := load.prevTstamp.getD tstamp
  { ret := load.ret ++ [{
      relTsc := Cycles.fromDuration hz .microseconds (ifGap + tstamp - prevTstamp)
      mbuf := pk.mbuf
      fromCln := false }]
    ipgTstamp := load.ipgTstamp.map fun tstamp => tstamp + ipg.getD 0
    prevTstamp := some prevTstamp }

/-- The first loop of `load_pkts`. Every packet takes its header from the file, so one round
more than the file has bytes is enough. -/
def loadLoop (cfg : FlowsGeneratorConfig) :
    ℕ → LoadState → Ops → File → LoadState × Option Thrown × Ops
  | 0, load, ops, _ => (load, none, ops)
  | fuel + 1, load, ops, file =>
    match loadPkt env ops file with
    | (.error code, ops, file) =>
      if file.eof then (load, none, ops)
      else (load, some (.systemError code
        s!"Failed to load packet from {env.texts.path cfg.capFpath}"), ops)
    | (.ok pk, ops, file) =>
      loadLoop cfg fuel (addPkt env.hz cfg.interPktsGap pk load) ops file

/-! ### Preparing the packets -/

/-- `RTE_ETHER_TYPE_IPV4`. -/
def etherTypeIpv4 : ℕ := 0x0800

/-- `IPPROTO_TCP`. -/
def ipprotoTcp : UInt8 := 6

/-- `IPPROTO_UDP`. -/
def ipprotoUdp : UInt8 := 17

/-- "Detected too short/fragmented packet". -/
def tooShort (cfg : FlowsGeneratorConfig) : Thrown :=
  .runtimeError s!"Detected too short/fragmented packet from {env.texts.path cfg.capFpath}"

/-- The Ethernet addresses of the header at an offset; the destination comes first. -/
def setEtherAddrs (cfg : FlowsGeneratorConfig) (fromCln : Bool) (eh : ℕ) (mbuf : Mbuf) : Mbuf :=
  mbuf.writeAt eh (if fromCln then cfg.srvEtherAddr.addrBytes ++ cfg.clnEtherAddr.addrBytes
    else cfg.clnEtherAddr.addrBytes ++ cfg.srvEtherAddr.addrBytes)

/-- `set_cport` on the TCP or UDP header at an offset: the ports are its first two fields. -/
def setCport (fromCln : Bool) (port : UInt16) (hdr : ℕ) (mbuf : Mbuf) : Mbuf :=
  mbuf.writeAt (if fromCln then hdr else hdr + 2) (netBytes16 port)

/-- The body of the second loop of `load_pkts` for one packet. It returns the client's
Ethernet address, the direction of the packet and its first segment. -/
def preparePkt (cfg : FlowsGeneratorConfig) (clnEtherAddr : Option (List UInt8)) (mbuf : Mbuf) :
    Except Thrown (List UInt8 × Bool × Mbuf) :=
  match readHdr etherHdrLen mbuf 0 with
  | none => .error (tooShort env cfg)
  | some eh =>
    let proto := mbuf.bigAt16 (eh + 12)
    if proto ≠ etherTypeIpv4 then
      .error (.runtimeError
        s!"Detected non IPv4 packet (proto: {proto}) from {env.texts.path cfg.capFpath}")
    else
      match readHdr ipv4HdrSize mbuf (eh + etherHdrLen) with
      | none => .error (tooShort env cfg)
      | some ih =>
        let srcAddr := (mbuf.data.drop (eh + 6)).take 6
        let clnEtherAddr := clnEtherAddr.getD srcAddr
        let fromCln := decide (clnEtherAddr = srcAddr)
        let mbuf := setEtherAddrs cfg fromCln eh mbuf
        match cfg.clnPort with
        | none => .ok (clnEtherAddr, fromCln, mbuf)
        | some port =>
          let offs := ih + mbuf.ipv4HdrLen ih
          let nextProtoId := mbuf.byteAt (ih + 9)
          if nextProtoId = ipprotoTcp then
            match readHdr tcpHdrSize mbuf offs with
            | none => .error (tooShort env cfg)
            | some th => .ok (clnEtherAddr, fromCln, setCport fromCln port th mbuf)
          else if nextProtoId = ipprotoUdp then
            match readHdr udpHdrSize mbuf offs with
            | none => .error (tooShort env cfg)
            | some uh => .ok (clnEtherAddr, fromCln, setCport fromCln port uh mbuf)
          else .ok (clnEtherAddr, fromCln, mbuf)

/-- The second loop of `load_pkts`. -/
def prepareLoop (cfg : FlowsGeneratorConfig) :
    Option (List UInt8) → List Pkt → Ops → Except Thrown (List Pkt) × Ops
  | _, [], ops => (.ok [], ops)
  | clnEtherAddr, pkt :: rest, ops =>
    match preparePkt env cfg clnEtherAddr (ops.pool.mbufs pkt.mbuf) with
    | .error thrown => (.error thrown, ops)
    | .ok (clnEtherAddr, fromCln, mbuf) =>
      let ops := { ops with pool := ops.pool.modify pkt.mbuf fun _ => mbuf }
      match prepareLoop cfg (some clnEtherAddr) rest ops with
      | (.error thrown, ops) => (.error thrown, ops)
      | (.ok rest, ops) => (.ok ({ pkt with fromCln } :: rest), ops)

/-- `load_pkts`: an exception destroys the packets loaded so far. -/
def loadPkts (cfg : FlowsGeneratorConfig) (ops : Ops) : Except Thrown (List Pkt) × Ops :=
  match openTcap env cfg.capFpath with
  | .error thrown => (.error thrown, ops)
  | .ok file =>
    match loadLoop env cfg (file.data.length + 1)
      { ret := [], ipgTstamp := cfg.interPktsGap.map fun _ => 0, prevTstamp := none } ops file with
    | (load, some thrown, ops) => (.error thrown, freePkts (mbufsOf load.ret) ops)
    | (load, none, ops) =>
      match prepareLoop env cfg none load.ret ops with
      | (.error thrown, ops) => (.error thrown, freePkts (mbufsOf load.ret) ops)
      | (.ok pkts, ops) =>
        if pkts = [] then
          (.error (.runtimeError s!"Loaded no packets from {env.texts.path cfg.capFpath}"), ops)
        else (.ok pkts, ops)

/-! ### Setting up the flows -/

/-- `inc_reset`, on a number or on an address iterator: whether it was reset, and the new
value. -/
def incReset (val beg last : UInt32) : Bool × UInt32 :=
  if val + 1 = last then (true, beg) else (false, val + 1)

/-- All flows of a burst have the same addresses; after the last one the addresses move on. -/
def nextAddrs (clnIpAddrs srvIpAddrs : AddrRange) (burstCnt : UInt32) (cursor : AddrCursor) :
    AddrCursor :=
  let (reset, burstIdx) := incReset cursor.burstIdx 0 burstCnt
  if reset then
    { clnIpAddr := (incReset cursor.clnIpAddr clnIpAddrs.first clnIpAddrs.last).2
      srvIpAddr := (incReset cursor.srvIpAddr srvIpAddrs.first srvIpAddrs.last).2
      burstIdx }
  else { cursor with burstIdx }

/-- A flow as `setup_flows` creates it. -/
def newFlow (idx : UInt32) (cursor : AddrCursor) : Flow where
  idx := idx
  pktIdx := 0
  clnIpAddr := cursor.clnIpAddr
  srvIpAddr := cursor.srvIpAddr
  event := none
  cntPkts := 0
  cntBytes := 0
  tstampBeg := 0
  tstampEnd := 0

/-- The loop of `setup_flows`: `count` more flows, numbered from `idx` on. -/
def setupFlows (clnIpAddrs srvIpAddrs : AddrRange) (burstCnt : UInt32) :
    (count : ℕ) → (idx : UInt32) → AddrCursor → List Flow × AddrCursor
  | 0, _, cursor => ([], cursor)
  | count + 1, idx, cursor =>
    let rest := setupFlows clnIpAddrs srvIpAddrs burstCnt count (idx + 1)
      (nextAddrs clnIpAddrs srvIpAddrs burstCnt cursor)
    (newFlow idx cursor :: rest.1, rest.2)

/-- The members of a generator before its events are set up. -/
def FlowsGenerator.withFlows (cfg : FlowsGeneratorConfig) (pkts : List Pkt) : FlowsGenerator :=
  let clnIpAddrs := cfg.clnIpAddrs.hosts
  let srvIpAddrs := cfg.srvIpAddrs.hosts
  let flows := setupFlows clnIpAddrs srvIpAddrs cfg.burst cfg.flowsPerSec.toNat 0
    { clnIpAddr := clnIpAddrs.first, srvIpAddr := srvIpAddrs.first, burstIdx := 0 }
  { pkts, flows := flows.1, clnIpAddrs, srvIpAddrs, idx := cfg.idx, cursor := flows.2,
    burstCnt := cfg.burst }

/-- `flow_tsc_step`. -/
def flowTscStep (hz : UInt64) (cntFlows : ℕ) : Cycles :=
  Cycles.fromDuration hz .microseconds ((1000000 / cntFlows : ℕ) : Int)

/-- The loop of `setup_flow_events`; the handles it assigns to are empty. -/
def armFlows (pkts : List Pkt) (step : Cycles) : Cycles → List Flow → Ops → List Flow × Ops
  | _, [], ops => ([], ops)
  | flowTsc, flow :: rest, ops =>
    let evtm := flowTsc + (pktAt pkts flow.pktIdx).relTsc
    let (event, ops) := createSchedulerEvent ops
    let (event, ops) := scheduleSingle env evtm event ops
    let (rest, ops) := armFlows pkts step (flowTsc + step) rest ops
    ({ flow with event } :: rest, ops)

/-- `setup_flow_events`. -/
def FlowsGenerator.setupFlowEvents (gen : FlowsGenerator) (ops : Ops) :
    Except Thrown FlowsGenerator × Ops :=
  let size := gen.flows.length
  let step := flowTscStep env.hz size
  if step = 0 then
    (.error (.runtimeError s!"Can't work with so many ({size}) flows per second"), ops)
  else
    let (flows, ops) := armFlows env gen.pkts step 0 gen.flows ops
    (.ok { gen with flows }, ops)

/-- The constructor of `flows_generator`: when the events can not be set up the members are
destroyed, no flow has a timer then. -/
def FlowsGenerator.construct (cfg : FlowsGeneratorConfig) (ops : Ops) :
    Except Thrown FlowsGenerator × Ops :=
  match loadPkts env cfg ops with
  | (.error thrown, ops) => (.error thrown, ops)
  | (.ok pkts, ops) =>
    let ops := tgEnforce env (1 ≤ cfg.burst) ops
    match (FlowsGenerator.withFlows cfg pkts).setupFlowEvents env ops with
    | (.error thrown, ops) => (.error thrown, freePkts (mbufsOf pkts) ops)
    | (.ok gen, ops) => (.ok gen, ops)

/-- The destructor: the flows return their timers, then the packets are freed. -/
def FlowsGenerator.destroy (gen : FlowsGenerator) (ops : Ops) : Ops :=
  freePkts (mbufsOf gen.pkts)
    (gen.flows.foldl (fun ops flow => dropEvent env flow.event ops) ops)

/-! ### The timer callback -/

/-- What the environment decides during one callback: the clock, and what the NIC accepts
should the burst become full. -/
structure EventIn where
  now : Cycles
  tx : TxAnswer

/-- The first statement of `on_flow_event`: the flow advances to its next packet, and to its
next addresses when the stream restarts. The first component tells whether it does. -/
def FlowsGenerator.nextPkt (gen : FlowsGenerator) (fl : Flow) : Bool × Flow × AddrCursor :=
  if (fl.pktIdx + 1).toNat = gen.pkts.length then
    (true, { fl with
      pktIdx := 0
      clnIpAddr := gen.cursor.clnIpAddr
      srvIpAddr := gen.cursor.srvIpAddr },
      nextAddrs gen.clnIpAddrs gen.srvIpAddrs gen.burstCnt gen.cursor)
  else (false, { fl with pktIdx := fl.pktIdx + 1 }, gen.cursor)

/-- `RTE_MBUF_F_TX_IPV4 | RTE_MBUF_F_TX_IP_CKSUM | RTE_MBUF_F_TX_TCP_CKSUM |
RTE_MBUF_F_TX_UDP_CKSUM`. -/
def txOffloadFlags : UInt64 :=
  (1 : UInt64) <<< 55 ||| (1 : UInt64) <<< 54 ||| (1 : UInt64) <<< 52 ||| (3 : UInt64) <<< 52

/-- The addresses and the offload metadata of a copy about to be sent. The packets have been
checked upon loading; a copy without the whole header in its first segment is one the source
would dereference a null pointer for. -/
def addressPkt (srcAddr dstAddr : InAddr) (mbuf : Mbuf) : Mbuf :=
  match readHdr ipv4HdrSize mbuf etherHdrLen with
  | none => mbuf
  | some ih =>
    { (mbuf.writeAt (ih + 12) srcAddr).writeAt (ih + 16) dstAddr with
      olFlags := mbuf.olFlags ||| txOffloadFlags
      l2Len := etherHdrLen
      l3Len := mbuf.ipv4HdrLen ih }

/-- The statistics of a flow after one more packet of a given length. -/
def Flow.count (now : Cycles) (pktLen : UInt32) (fl : Flow) : Flow :=
  { fl with
    cntPkts := fl.cntPkts + 1
    cntBytes := fl.cntBytes + pktLen.toUInt64
    tstampEnd := now
    tstampBeg := if fl.cntPkts + 1 = 1 then now else fl.tstampBeg }

/-- The report of the packet a flow is at. -/
def FlowsGenerator.report (gen : FlowsGenerator) (now : Cycles) (pktLen : UInt32) (fl : Flow) :
    GenerationReport :=
  let pkt := pktAt gen.pkts fl.pktIdx
  { tstamp := now
    genIdx := gen.idx
    flowIdx := fl.idx
    pktIdx := fl.pktIdx
    pktLen
    srcAddr := netBytes32 (if pkt.fromCln then fl.clnIpAddr else fl.srvIpAddr)
    dstAddr := netBytes32 (if pkt.fromCln then fl.srvIpAddr else fl.clnIpAddr)
    fromCln := pkt.fromCln
    ok := true }

/-- The addresses of the report are written to the copy. -/
def setAddrs (report : GenerationReport) (mbuf : MbufId) (ops : Ops) : Ops :=
  { ops with pool := ops.pool.modify mbuf (addressPkt report.srcAddr report.dstAddr) }

/-- The rest of `on_flow_event`: the packet the flow is at is counted, copied, sent and
reported, and the timer is armed again. Without a buffer for the copy the callback only
reports. -/
def FlowsGenerator.emitPkt (gen : FlowsGenerator) (event : EventIn) (fl : Flow) (ops : Ops) :
    Flow × Ops :=
  let pkt := pktAt gen.pkts fl.pktIdx
  let pktLen := (ops.pool.mbufs pkt.mbuf).pktLen
  let fl := fl.count event.now pktLen
  let report := gen.report event.now pktLen fl
  match copyPkt env pkt.mbuf ops with
  | (none, ops) => (fl, doReport { report with ok := false } ops)
  | (some mbuf, ops) =>
    let ops := sendPkt event.tx mbuf (setAddrs report mbuf ops)
    let ops := doReport report ops
    let (timer, ops) := scheduleSingle env pkt.relTsc fl.event ops
    ({ fl with event := timer }, ops)

/-- A timer that has fired is no longer pending. -/
def fired (event : EventHandle) : EventHandle := event.map fun _ => {}

/-- `on_flow_event` of the flow at a position. -/
def FlowsGenerator.onFlowEvent (event : EventIn) (pos : ℕ) (gen : FlowsGenerator) (ops : Ops) :
    FlowsGenerator × Ops :=
  match gen.flows[pos]? with
  | none => (gen, ops)
  | some fl =>
    let (_, fl, cursor) := gen.nextPkt { fl with event := fired fl.event }
    let (fl, ops) := gen.emitPkt env event fl ops
    ({ gen with flows := gen.flows.set pos fl, cursor }, ops)

end TrafficGenerator
