/-
This file models `mgmt/messages.h` and `mgmt/stats.h`: what the management and
the generation manager send to each other. The requests travel in a queue of 32,
the responses share a queue of 256 with the per-packet generation reports.
-/

import TrafficGenerator.Cycles
import TrafficGenerator.GenConfig

namespace TrafficGenerator

/-- `mgmt::stats`. -/
structure Stats where
  cntRxPkts : UInt64 := 0
  cntTxPkts : UInt64 := 0
  cntRxBytes : UInt64 := 0
  cntTxBytes : UInt64 := 0
  cntRxPktsQfull : UInt64 := 0
  cntRxPktsNombuf : UInt64 := 0
  cntTxPktsQfull : UInt64 := 0
  cntTxPktsNombuf : UInt64 := 0
  cntRxPktsErr : UInt64 := 0
  cntTxPktsErr : UInt64 := 0
deriving DecidableEq

/-- `stats::visit`: the counters with their names, in the order of `TG_COUNTERS`. -/
def Stats.visit (stats : Stats) : List (String × UInt64) :=
  [("cnt_rx_pkts", stats.cntRxPkts), ("cnt_tx_pkts", stats.cntTxPkts),
    ("cnt_rx_bytes", stats.cntRxBytes), ("cnt_tx_bytes", stats.cntTxBytes),
    ("cnt_rx_pkts_qfull", stats.cntRxPktsQfull), ("cnt_rx_pkts_nombuf", stats.cntRxPktsNombuf),
    ("cnt_tx_pkts_qfull", stats.cntTxPktsQfull), ("cnt_tx_pkts_nombuf", stats.cntTxPktsNombuf),
    ("cnt_rx_pkts_err", stats.cntRxPktsErr), ("cnt_tx_pkts_err", stats.cntTxPktsErr)]

/-- `summary_stats::entry`. -/
structure SummaryEntry where
  genIdx : UInt32
  flowIdx : UInt32
  cntPkts : UInt64
  cntBytes : UInt64
  duration : Cycles
deriving DecidableEq

/-- `mgmt::summary_stats`. -/
structure SummaryStats where
  summary : Stats
  detailed : List SummaryEntry
deriving DecidableEq

/-- `in_addr`: the four bytes of the address as they lie in memory, in network order. -/
abbrev InAddr := List UInt8

/-- `generation_report`, the one of `gen::priv` and the one of `mgmt`, which have the same
fields. -/
structure GenerationReport where
  tstamp : Cycles
  genIdx : UInt32
  flowIdx : UInt32
  pktIdx : UInt32
  pktLen : UInt32
  srcAddr : InAddr
  dstAddr : InAddr
  fromCln : Bool
  ok : Bool
deriving DecidableEq

/-- The messages of `out_messages_queue`: what the management asks for. -/
inductive ReqMsg where
  | startGeneration (cfg : GenConfig)
  | stopGeneration
  | statsReport

/-- The messages of `inc_messages_queue`: what the generation answers and reports. -/
inductive ResMsg where
  | startGeneration (res : Except String Unit)
  | stopGeneration (res : SummaryStats)
  | statsReport (res : Stats)
  | generationReport (report : GenerationReport)

/-- A message with the number of the HTTP request it serves, which the program does not carry
along; a generation report serves none. -/
structure Tagged (Msg : Type) where
  request : Option ℕ
  msg : Msg

/-- The capacity of `out_messages_queue`. -/
def reqCapacity : ℕ := 32

/-- The capacity of `inc_messages_queue`. -/
def resCapacity : ℕ := 256

/-- The most messages one `dequeue` hands over: `std::min(Capacity, 8uz)`. -/
def dequeueBatch (capacity : ℕ) : ℕ := min capacity 8

end TrafficGenerator
