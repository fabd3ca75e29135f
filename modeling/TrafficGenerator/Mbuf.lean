/-
This file models the packet buffers of DPDK as far as the generator uses them:
the pool they are allocated from, the chains their `next` links form, and the
header access of `put/pkt_utils.h`.

An mbuf is known by the number of the allocation attempt that produced it, so
every allocation has a new identity and a buffer returned to the pool is not
confused with the next use of the same memory. What the pool grants is the
environment's choice.
-/

import TrafficGenerator.GenConfig
import TrafficGenerator.LinkedChain

namespace TrafficGenerator

abbrev MbufId := ℕ

/-- `rte_mbuf`. The segment's data is the first `data_len` bytes of its buffer. -/
structure Mbuf where
  data : List UInt8 := []
  /-- `rte_pktmbuf_tailroom` of the empty buffer. -/
  tailroom : UInt16 := 0
  next : Option MbufId := none
  nbSegs : UInt16 := 1
  pktLen : UInt32 := 0
  olFlags : UInt64 := 0
  l2Len : ℕ := 0
  l3Len : ℕ := 0
deriving DecidableEq

/-! ### The pool -/

/-- The mempool: the buffers, the number of allocations attempted, and every buffer returned
to it, in order. -/
structure MbufPool where
  mbufs : MbufId → Mbuf := fun _ => {}
  attempts : ℕ := 0
  freed : List MbufId := []

/-- The bytes of a copied packet, segment by segment. -/
structure Segments where
  first : List UInt8
  rest : List (List UInt8)

/-- What the pool answers: the tailroom of the buffer an allocation attempt gets, and the
segments a copy of given bytes gets, `none` when the pool is exhausted. -/
structure PoolAnswers where
  grant : ℕ → Option UInt16
  copy : ℕ → List UInt8 → Option Segments

/-- `rte_pktmbuf_alloc`. -/
def MbufPool.alloc (answers : PoolAnswers) (pool : MbufPool) : Option MbufId × MbufPool :=
  match answers.grant pool.attempts with
  | none => (none, { pool with attempts := pool.attempts + 1 })
  | some tailroom => (some pool.attempts, { pool with
      mbufs := Function.update pool.mbufs pool.attempts { tailroom }
      attempts := pool.attempts + 1 })

/-- The links of the buffers. -/
def MbufPool.links (pool : MbufPool) (id : MbufId) : Option MbufId := (pool.mbufs id).next

/-- The chain of a packet. A link leads to a later allocation, so there are no more links than
attempts. -/
def MbufPool.chain (pool : MbufPool) (head : MbufId) : List MbufId :=
  LinkedChain.follow pool.links pool.attempts (some head)

/-- The bytes of a packet: those of its segments in order. -/
def MbufPool.bytes (pool : MbufPool) (head : MbufId) : List UInt8 :=
  (pool.chain head).flatMap fun segment => (pool.mbufs segment).data

/-- `rte_pktmbuf_free`: every segment of the packet goes back to the pool. -/
def MbufPool.free (pool : MbufPool) (head : MbufId) : MbufPool :=
  { pool with freed := pool.freed ++ pool.chain head }

/-- `rte_pktmbuf_free_bulk`. -/
def MbufPool.freeBulk (pool : MbufPool) (heads : List MbufId) : MbufPool :=
  heads.foldl MbufPool.free pool

/-- The segments of a copy take consecutive identities from the next attempt on and are linked
in order; the first one carries the packet's header fields. -/
def MbufPool.placeCopy (pool : MbufPool) (src : Mbuf) (segments : Segments) : MbufId → Mbuf :=
  fun id =>
    if id = pool.attempts then
      { data := segments.first
        next := if segments.rest = [] then none else some (id + 1)
        nbSegs := UInt16.ofNat (segments.rest.length + 1)
        pktLen := src.pktLen
        olFlags := src.olFlags }
    else if pool.attempts < id ∧ id ≤ pool.attempts + segments.rest.length then
      { data := segments.rest.getD (id - pool.attempts - 1) []
        next := if id = pool.attempts + segments.rest.length then none else some (id + 1) }
    else pool.mbufs id

/-- `rte_pktmbuf_copy` of the whole packet. -/
def MbufPool.copy (answers : PoolAnswers) (pool : MbufPool) (src : MbufId) :
    Option MbufId × MbufPool :=
  match answers.copy pool.attempts (pool.bytes src) with
  | none => (none, { pool with attempts := pool.attempts + 1 })
  | some segments => (some pool.attempts, { pool with
      mbufs := pool.placeCopy (pool.mbufs src) segments
      attempts := pool.attempts + 1 + segments.rest.length })

/-- The driver fills `count` fresh buffers with received packets. -/
def MbufPool.receive (pool : MbufPool) (count : ℕ) : List MbufId × MbufPool :=
  ((List.range count).map fun offset => pool.attempts + offset, { pool with
    mbufs := fun id => if pool.attempts ≤ id ∧ id < pool.attempts + count then {}
      else pool.mbufs id
    attempts := pool.attempts + count })

/-- Write to the buffer `id`. -/
def MbufPool.modify (pool : MbufPool) (id : MbufId) (write : Mbuf → Mbuf) : MbufPool :=
  { pool with mbufs := Function.update pool.mbufs id (write (pool.mbufs id)) }

/-! ### Headers -/

/-- `RTE_ETHER_HDR_LEN`, which is `sizeof(rte_ether_hdr)`. -/
def etherHdrLen : ℕ := 14

/-- `sizeof(rte_ipv4_hdr)`. -/
def ipv4HdrSize : ℕ := 20

/-- `sizeof(rte_tcp_hdr)`. -/
def tcpHdrSize : ℕ := 20

/-- `sizeof(rte_udp_hdr)`. -/
def udpHdrSize : ℕ := 8

/-- `read_hdr`: a header of `size` bytes at `off` is there only when the first segment holds
all of it. The pointer it returns is the offset. -/
def readHdr (size : ℕ) (pkt : Mbuf) (off : ℕ) : Option ℕ :=
  if off + size ≤ pkt.data.length then some off else none

/-- The byte at an offset into the first segment. -/
def Mbuf.byteAt (pkt : Mbuf) (off : ℕ) : UInt8 := pkt.data.getD off 0

/-- Overwrite bytes of the first segment. -/
def Mbuf.writeAt (pkt : Mbuf) (off : ℕ) (bytes : List UInt8) : Mbuf :=
  { pkt with data := pkt.data.take off ++ bytes ++ pkt.data.drop (off + bytes.length) }

/-- `hdr_len` of the IPv4 header at `off`: the low four bits of its first byte, in words. -/
def Mbuf.ipv4HdrLen (pkt : Mbuf) (off : ℕ) : ℕ := (pkt.byteAt off &&& 0x0F).toNat * 4

/-- The bytes of a 16-bit number in network order. -/
def netBytes16 (num : UInt16) : List UInt8 :=
  [UInt8.ofNat (num.toNat / 256), UInt8.ofNat num.toNat]

/-- The bytes of an address in network order: `native_to_big` as it lies in memory. -/
def netBytes32 (num : UInt32) : List UInt8 :=
  [UInt8.ofNat (num.toNat / 2 ^ 24), UInt8.ofNat (num.toNat / 2 ^ 16),
    UInt8.ofNat (num.toNat / 2 ^ 8), UInt8.ofNat num.toNat]

/-- The big endian number in the two bytes at an offset. -/
def Mbuf.bigAt16 (pkt : Mbuf) (off : ℕ) : ℕ :=
  (pkt.byteAt off).toNat * 256 + (pkt.byteAt (off + 1)).toNat

end TrafficGenerator
