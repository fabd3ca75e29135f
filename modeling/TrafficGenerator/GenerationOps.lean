/-
This file models the operations the flows generators are given
(`gen/priv/generation_ops.h`), as `gen::manager_impl` implements them over the
packet pool, the transmit burst, the event scheduler (`gen/priv/event_scheduler.h`,
`gen/priv/event_handle.h`) and the queue to the management.

The state keeps, besides the members of the source, what they have done so far:
the packets passed to `send_pkt`, the bursts offered to the NIC with what it
accepted of each, the messages offered to the outgoing queue (the result of
`enqueue` is ignored at every place, so what happens to them there is not the
generator's), and whether some `TG_ENFORCE` has aborted.
-/

import TrafficGenerator.Environment
import TrafficGenerator.Messages

namespace TrafficGenerator

/-- A burst given to `rte_eth_tx_burst` and the number of packets it accepted. -/
structure Burst where
  offered : List MbufId
  accepted : ℕ
deriving DecidableEq

/-- `gen::manager_impl` as the generators see it. -/
@[ext] structure Ops where
  pool : MbufPool := {}
  /-- `event_scheduler::cnt_timers_`. -/
  cntTimers : UInt32 := 0
  txPkts : List MbufId := []
  cntTxPktsQfull : UInt64 := 0
  cntTxPktsNombuf : UInt64 := 0
  ethStats : EthStats := {}
  sent : List MbufId := []
  bursts : List Burst := []
  outMsgs : List ResMsg := []
  aborted : Bool := false

variable (env : Env)

/-- `TG_ENFORCE`. -/
def tgEnforce (cond : Bool) (ops : Ops) : Ops :=
  { ops with aborted := ops.aborted || env.enforce cond }

/-! ### Packets -/

/-- `cnt_burst_pkts`. -/
def cntBurstPkts : ℕ := 64

/-- `alloc_mbuf`. -/
def allocMbuf (ops : Ops) : Option MbufId × Ops :=
  match ops.pool.alloc env.answers with
  | (some mbuf, pool) => (some mbuf, { ops with pool })
  | (none, pool) => (none, { ops with pool, cntTxPktsNombuf := ops.cntTxPktsNombuf + 1 })

/-- `copy_pkt`. -/
def copyPkt (pkt : MbufId) (ops : Ops) : Option MbufId × Ops :=
  match ops.pool.copy env.answers pkt with
  | (some mbuf, pool) => (some mbuf, { ops with pool })
  | (none, pool) => (none, { ops with pool, cntTxPktsNombuf := ops.cntTxPktsNombuf + 1 })

/-- `transmit_tx_pkts`: what the NIC does not accept is freed and counted. -/
def transmitTxPkts (tx : TxAnswer) (ops : Ops) : Ops :=
  let cnt := tx.accept ops.txPkts.length
  let dropped := ops.txPkts.drop cnt
  { ops with
    pool := if ops.txPkts.length > cnt then ops.pool.freeBulk dropped else ops.pool
    cntTxPktsQfull :=
      if ops.txPkts.length > cnt then ops.cntTxPktsQfull + UInt64.ofNat dropped.length
      else ops.cntTxPktsQfull
    bursts := ops.bursts ++ [⟨ops.txPkts, cnt⟩]
    txPkts := [] }

/-- The first half of `send_pkt`: the packet joins the burst. -/
def pushTxPkt (pkt : MbufId) (ops : Ops) : Ops :=
  { ops with txPkts := ops.txPkts ++ [pkt], sent := ops.sent ++ [pkt] }

/-- `send_pkt`: a full burst is transmitted at once. -/
def sendPkt (tx : TxAnswer) (pkt : MbufId) (ops : Ops) : Ops :=
  let ops := pushTxPkt pkt ops
  if ops.txPkts.length = cntBurstPkts then transmitTxPkts tx ops else ops

/-- The last statement of `process_events`: `if (!tx_pkts_.empty()) transmit_tx_pkts();`. -/
def flushTxPkts (tx : TxAnswer) (ops : Ops) : Ops :=
  if ops.txPkts = [] then ops else transmitTxPkts tx ops

/-- `rte_pktmbuf_free`. -/
def freePkt (pkt : MbufId) (ops : Ops) : Ops := { ops with pool := ops.pool.free pkt }

/-- The destructor of a vector of packets. -/
def freePkts (pkts : List MbufId) (ops : Ops) : Ops := { ops with pool := ops.pool.freeBulk pkts }

/-! ### Messages -/

/-- `out_queue_->enqueue(msg)`. -/
def enqueueOut (msg : ResMsg) (ops : Ops) : Ops := { ops with outMsgs := ops.outMsgs ++ [msg] }

/-- `do_report`. -/
def doReport (report : GenerationReport) (ops : Ops) : Ops :=
  enqueueOut (.generationReport report) ops

/-! ### Timers -/

/-- `rte_timer`: the delay it is armed with, until it fires. -/
structure RteTimer where
  pending : Option Cycles := none
deriving DecidableEq

/-- `event_handle`: the timer it owns. Moving a handle transfers the timer. -/
abbrev EventHandle := Option RteTimer

/-- `event_scheduler::get_timer`. -/
def getTimer (ops : Ops) : RteTimer × Ops := ({}, { ops with cntTimers := ops.cntTimers + 1 })

/-- `create_scheduler_event`: the handle takes a timer of the scheduler. -/
def createSchedulerEvent (ops : Ops) : EventHandle × Ops :=
  (some (getTimer ops).1, (getTimer ops).2)

/-- What `rte_timer_stop` and `rte_timer_reset` return: the timer is not running on another
core, so they succeed. -/
def rteTimerResult : Int := 0

/-- `event_scheduler::ret_timer`. -/
def retTimer (ops : Ops) : Ops :=
  let ops := tgEnforce env (rteTimerResult == 0) ops
  { ops with cntTimers := ops.cntTimers - 1 }

/-- The destructor of a handle: it returns the timer it owns. -/
def dropEvent (event : EventHandle) (ops : Ops) : Ops :=
  match event with
  | none => ops
  | some _ => retTimer env ops

/-- `event_handle::schedule_single`. -/
def scheduleSingle (relTime : Cycles) (event : EventHandle) (ops : Ops) : EventHandle × Ops :=
  (event.map fun _ => { pending := some relTime },
    tgEnforce env (rteTimerResult == 0) ops)

/-- Whether the timer of a handle is armed. -/
def EventHandle.armed (event : EventHandle) : Bool :=
  match event with
  | some { pending := some _ } => true
  | _ => false

end TrafficGenerator
