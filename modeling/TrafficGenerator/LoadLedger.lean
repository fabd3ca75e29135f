/-
This file follows the packet buffers through the loading of a capture: what
`load_pkt` and `load_pkts` return holds exactly the buffers they were granted,
and when they fail everything granted has been freed. It also says that loading
touches nothing else of the manager but the count of failed allocations.
-/

import TrafficGenerator.FlowsGenerator
import TrafficGenerator.MbufLedger

namespace TrafficGenerator

open LinkedChain

variable {env : Env} {ops ops' : Ops}

/-! ### What loading leaves alone -/

/-- The members that neither loading nor setting up flows touches. -/
structure Ops.Frame (before after : Ops) : Prop where
  txPkts : after.txPkts = before.txPkts
  cntTxPktsQfull : after.cntTxPktsQfull = before.cntTxPktsQfull
  ethStats : after.ethStats = before.ethStats
  sent : after.sent = before.sent
  bursts : after.bursts = before.bursts
  outMsgs : after.outMsgs = before.outMsgs

/-- Loading does not touch the timers either, and no `TG_ENFORCE` is on its way. -/
structure Ops.LoadFrame (before after : Ops) : Prop extends Ops.Frame before after where
  cntTimers : after.cntTimers = before.cntTimers
  aborted : after.aborted = before.aborted

theorem Ops.Frame.refl (ops : Ops) : ops.Frame ops := ⟨rfl, rfl, rfl, rfl, rfl, rfl⟩

theorem Ops.Frame.trans {ops'' : Ops} (first : ops.Frame ops') (second : ops'.Frame ops'') :
    ops.Frame ops'' where
  txPkts := second.txPkts.trans first.txPkts
  cntTxPktsQfull := second.cntTxPktsQfull.trans first.cntTxPktsQfull
  ethStats := second.ethStats.trans first.ethStats
  sent := second.sent.trans first.sent
  bursts := second.bursts.trans first.bursts
  outMsgs := second.outMsgs.trans first.outMsgs

theorem Ops.LoadFrame.trans {ops'' : Ops} (first : ops.LoadFrame ops')
    (second : ops'.LoadFrame ops'') : ops.LoadFrame ops'' where
  toFrame := first.toFrame.trans second.toFrame
  cntTimers := second.cntTimers.trans first.cntTimers
  aborted := second.aborted.trans first.aborted

/-- A step that changes the pool and the count of failed allocations only. -/
theorem Ops.loadFrame_pool (ops : Ops) (pool : MbufPool) (cnt : UInt64) :
    ops.LoadFrame { ops with pool, cntTxPktsNombuf := cnt } :=
  ⟨⟨rfl, rfl, rfl, rfl, rfl, rfl⟩, rfl, rfl⟩

theorem Ops.LoadFrame.refl (ops : Ops) : ops.LoadFrame ops := ops.loadFrame_pool _ _

/-! ### One allocation -/

/-- An allocation either is granted, and produces a fresh unlinked buffer, or only counts. -/
theorem allocMbuf_cases (env : Env) (ops : Ops) :
    (∃ tailroom, env.answers.grant ops.pool.attempts = some tailroom ∧
      allocMbuf env ops = (some ops.pool.attempts, { ops with pool := { ops.pool with
        mbufs := Function.update ops.pool.mbufs ops.pool.attempts { tailroom }
        attempts := ops.pool.attempts + 1 } })) ∨
    (env.answers.grant ops.pool.attempts = none ∧
      allocMbuf env ops = (none, { ops with
        pool := { ops.pool with attempts := ops.pool.attempts + 1 }
        cntTxPktsNombuf := ops.cntTxPktsNombuf + 1 })) := by
  rw [allocMbuf, MbufPool.alloc]
  cases env.answers.grant ops.pool.attempts with
  | none => exact Or.inr ⟨rfl, rfl⟩
  | some tailroom => exact Or.inl ⟨tailroom, rfl, rfl⟩

/-- What an allocation does to the books. -/
theorem allocMbuf_spec {mbuf : Option MbufId} (run : allocMbuf env ops = (mbuf, ops')) :
    ops.LoadFrame ops' ∧ ops'.pool.freed = ops.pool.freed ∧
      ops'.pool.attempts = ops.pool.attempts + 1 ∧
      granted env.answers ops.pool.attempts ops'.pool.attempts = mbuf.toList ∧
      (∀ id ≠ ops.pool.attempts, ops'.pool.links id = ops.pool.links id) ∧
      ∀ fresh ∈ mbuf, fresh = ops.pool.attempts ∧ ops'.pool.links fresh = none := by
  rcases allocMbuf_cases env ops with ⟨tailroom, grant, result⟩ | ⟨grant, result⟩
  · obtain ⟨rfl, rfl⟩ := Prod.mk.inj (run.symm.trans result)
    refine ⟨ops.loadFrame_pool _ _, rfl, rfl, ?_, fun id other => ?_, ?_⟩
    · rw [granted_one, grant]
      rfl
    · show (Function.update ops.pool.mbufs ops.pool.attempts _ id).next = _
      rw [Function.update_of_ne other]
      rfl
    · rintro fresh ⟨⟩
      refine ⟨rfl, ?_⟩
      show (Function.update ops.pool.mbufs ops.pool.attempts _ ops.pool.attempts).next = none
      rw [Function.update_self]
  · obtain ⟨rfl, rfl⟩ := Prod.mk.inj (run.symm.trans result)
    refine ⟨ops.loadFrame_pool _ _, rfl, rfl, ?_, fun _ _ => rfl, by simp⟩
    rw [granted_one, grant]
    rfl

/-! ### One packet -/

theorem fillSegment_links (head curr : MbufId) (bytes : List UInt8) (ops : Ops) :
    (fillSegment head curr bytes ops).pool.links = ops.pool.links := by
  unfold fillSegment
  dsimp only
  rw [MbufPool.modify_links, MbufPool.modify_links] <;> exact fun _ => rfl

theorem linkSegment_attempts (head prev curr : MbufId) (ops : Ops) :
    (linkSegment head prev curr ops).pool.attempts = ops.pool.attempts := rfl

theorem linkSegment_links (head prev curr : MbufId) (ops : Ops) :
    (linkSegment head prev curr ops).pool.links =
      Function.update ops.pool.links prev (some curr) := by
  unfold linkSegment
  dsimp only
  rw [MbufPool.modify_links _ head (by exact fun _ => rfl)]
  funext id
  show (Function.update ops.pool.mbufs prev _ id).next = _
  by_cases same : id = prev
  · rw [same, Function.update_self, Function.update_self]
  · rw [Function.update_of_ne same, Function.update_of_ne same]
    rfl

/-- What the loop of `load_pkt` does to the packet it is loading: the segments loaded so far
are followed by those it is granted. -/
structure SegmentsLoaded (env : Env) (head : MbufId) (segs : List MbufId) (before after : Ops) :
    Prop where
  frame : before.LoadFrame after
  freed : after.pool.freed = before.pool.freed
  attempts : before.pool.attempts ≤ after.pool.attempts
  packet : after.pool.Packet head
    (segs ++ granted env.answers before.pool.attempts after.pool.attempts)
  others : ∀ id < before.pool.attempts, id ∉ segs → after.pool.links id = before.pool.links id

theorem SegmentsLoaded.refl {head : MbufId} {segs : List MbufId}
    (packet : ops.pool.Packet head segs) : SegmentsLoaded env head segs ops ops where
  frame := Ops.LoadFrame.refl ops
  freed := rfl
  attempts := Nat.le_refl _
  packet := by rwa [granted_self, List.append_nil]
  others _ _ _ := rfl

theorem SegmentsLoaded.trans {head : MbufId} {segs : List MbufId} {ops'' : Ops}
    (first : SegmentsLoaded env head segs ops ops')
    (second : SegmentsLoaded env head
      (segs ++ granted env.answers ops.pool.attempts ops'.pool.attempts) ops' ops'') :
    SegmentsLoaded env head segs ops ops'' where
  frame := first.frame.trans second.frame
  freed := second.freed.trans first.freed
  attempts := Nat.le_trans first.attempts second.attempts
  packet := by
    rw [← granted_append first.attempts second.attempts, ← List.append_assoc]
    exact second.packet
  others id allocated other := by
    refine (second.others id (Nat.lt_of_lt_of_le allocated first.attempts) fun member => ?_).trans
      (first.others id allocated other)
    rcases List.mem_append.mp member with member | member
    · exact other member
    · exact absurd allocated (Nat.not_lt.mpr (mem_granted member).1)

/-- The bytes read into a segment change no link. -/
theorem SegmentsLoaded.fill {head curr : MbufId} {segs : List MbufId} {bytes : List UInt8}
    (packet : ops.pool.Packet head segs) :
    SegmentsLoaded env head segs ops (fillSegment head curr bytes ops) where
  frame := ops.loadFrame_pool _ _
  freed := rfl
  attempts := Nat.le_refl _
  packet := by
    rw [show (fillSegment head curr bytes ops).pool.attempts = ops.pool.attempts from rfl,
      granted_self, List.append_nil]
    exact packet.keep ⟨Nat.le_refl _, fun id _ => congrFun (fillSegment_links _ _ _ _) id⟩
  others id _ _ := congrFun (fillSegment_links _ _ _ _) id

/-- A failed allocation leaves the packet as it is. -/
theorem SegmentsLoaded.refused {head : MbufId} {segs : List MbufId}
    (packet : ops.pool.Packet head segs) (run : allocMbuf env ops = (none, ops')) :
    SegmentsLoaded env head segs ops ops' := by
  obtain ⟨frame, freed, attempts, none, links, -⟩ := allocMbuf_spec run
  have others : ∀ id < ops.pool.attempts, ops'.pool.links id = ops.pool.links id :=
    fun id allocated => links id (Nat.ne_of_lt allocated)
  refine ⟨frame, freed, by omega, ?_, fun id allocated _ => others id allocated⟩
  rw [none, Option.toList_none, List.append_nil]
  exact packet.keep ⟨by omega, others⟩

/-- A granted buffer is linked behind the last segment. -/
theorem SegmentsLoaded.link {head prev curr : MbufId} {front : List MbufId}
    (packet : ops.pool.Packet head (front ++ [prev]))
    (run : allocMbuf env ops = (some curr, ops')) :
    SegmentsLoaded env head (front ++ [prev]) ops (linkSegment head prev curr ops') := by
  obtain ⟨frame, freed, attempts, one, links, fresh⟩ := allocMbuf_spec run
  obtain ⟨rfl, ends⟩ := fresh curr rfl
  have prevAllocated : prev < ops.pool.attempts :=
    packet.allocated prev (List.mem_append_right _ (List.mem_singleton_self _))
  have frontBelow : ∀ id ∈ front, id < prev := fun id member =>
    (List.pairwise_append.mp packet.increasing).2.2 id member prev (List.mem_singleton_self _)
  have others : ∀ id < ops.pool.attempts, id ≠ prev →
      (linkSegment head prev ops.pool.attempts ops').pool.links id = ops.pool.links id := by
    intro id allocated other
    rw [linkSegment_links, Function.update_of_ne other]
    exact links id (Nat.ne_of_lt allocated)
  refine ⟨frame.trans (ops'.loadFrame_pool _ _), freed, ?_, ?_, ?_⟩
  · show ops.pool.attempts ≤ ops'.pool.attempts
    omega
  · show MbufPool.Packet _ head
      (front ++ [prev] ++ granted env.answers ops.pool.attempts ops'.pool.attempts)
    rw [one]
    refine ⟨packet.linked.snoc (fun id member => ?_) ?_ ?_, ?_, ?_⟩
    · have below := frontBelow id member
      exact others id (Nat.lt_trans below prevAllocated) (Nat.ne_of_lt below)
    · rw [linkSegment_links, Function.update_self]
    · rw [linkSegment_links, Function.update_of_ne (Nat.ne_of_gt prevAllocated)]
      exact ends
    · refine List.pairwise_append.mpr ⟨packet.increasing, List.pairwise_singleton _ _, ?_⟩
      rintro id member _ (_ | ⟨_, ⟨⟩⟩)
      exact packet.allocated id member
    · intro id member
      show id < ops'.pool.attempts
      rcases List.mem_append.mp member with member | member
      · exact Nat.lt_of_lt_of_le (packet.allocated id member) (by omega)
      · rw [List.mem_singleton.mp member, attempts]
        exact Nat.lt_succ_self _
  · intro id allocated other
    refine others id allocated fun same => other ?_
    rw [same]
    exact List.mem_append_right _ (List.mem_singleton_self _)

/-- The segments loaded when the loop is about to read: none but the head in the first round,
else those up to the last one. -/
def LoadedUpTo (head : MbufId) (prev : Option MbufId) (segs : List MbufId) : Prop :=
  match prev with
  | none => segs = [head]
  | some prev => ∃ front, segs = front ++ [prev]

theorem loadSegments_spec {head : MbufId} {fuel left : ℕ} {prev : Option MbufId} {file file' : File}
    {segs : List MbufId} {code : Option Errno} (packet : ops.pool.Packet head segs)
    (place : LoadedUpTo head prev segs)
    (run : loadSegments env head fuel left prev ops file = (code, ops', file')) :
    SegmentsLoaded env head segs ops ops' := by
  induction fuel generalizing left prev ops file segs with
  | zero =>
    obtain ⟨-, rfl, -⟩ := run
    exact SegmentsLoaded.refl packet
  | succ fuel inductionHypothesis =>
    -- after a read into the last segment, whether it is the head or was just linked
    have read : ∀ {ops : Ops} {curr : MbufId} {front : List MbufId} {left : ℕ} {bytes : List UInt8}
        {file : File}, ops.pool.Packet head (front ++ [curr]) →
        loadSegments env head fuel left (some curr) (fillSegment head curr bytes ops) file =
          (code, ops', file') →
        SegmentsLoaded env head (front ++ [curr]) ops ops' := by
      intro ops curr front left bytes file packet run
      have filled : SegmentsLoaded env head (front ++ [curr]) ops
          (fillSegment head curr bytes ops) := SegmentsLoaded.fill packet
      have place : LoadedUpTo head (some curr) (front ++ [curr] ++ granted env.answers
          ops.pool.attempts (fillSegment head curr bytes ops).pool.attempts) := ⟨front, by
        rw [show (fillSegment head curr bytes ops).pool.attempts = ops.pool.attempts from rfl,
          granted_self, List.append_nil]⟩
      exact filled.trans (inductionHypothesis filled.packet place run)
    rw [loadSegments] at run
    split at run
    · obtain ⟨-, rfl, -⟩ := run
      exact SegmentsLoaded.refl packet
    · cases prev with
      | none =>
        obtain rfl : segs = [head] := place
        have alone : ops.pool.Packet head ([] ++ [head]) := packet
        dsimp only at run
        split at run
        · obtain ⟨-, rfl, -⟩ := run
          exact SegmentsLoaded.refl packet
        · exact read alone run
      | some prev =>
        obtain ⟨front, rfl⟩ := place
        dsimp only at run
        split at run
        · next refused =>
          obtain ⟨-, rfl, -⟩ := run
          exact SegmentsLoaded.refused packet refused
        · next curr middle granted =>
          have linked := SegmentsLoaded.link packet granted
          obtain ⟨-, -, -, one, -⟩ := allocMbuf_spec granted
          have linkedPacket := linked.packet
          rw [linkSegment_attempts, one] at linkedPacket
          split at run
          · obtain ⟨-, rfl, -⟩ := run
            exact linked
          · refine linked.trans ?_
            rw [linkSegment_attempts, one]
            exact read linkedPacket run

/-- A fresh buffer is a packet of one segment. -/
theorem allocMbuf_packet {head : MbufId} (run : allocMbuf env ops = (some head, ops')) :
    ops'.pool.Packet head [head] := by
  obtain ⟨-, -, attempts, -, -, fresh⟩ := allocMbuf_spec run
  obtain ⟨rfl, ends⟩ := fresh head rfl
  refine ⟨⟨rfl, ends⟩, List.pairwise_singleton _ _, fun id member => ?_⟩
  rw [List.mem_singleton.mp member, attempts]
  exact Nat.lt_succ_self _

/-- A failed allocation settles itself. -/
theorem allocMbuf_refused (run : allocMbuf env ops = (none, ops')) :
    ops.pool.Books env.answers ops'.pool [] := by
  obtain ⟨-, freed, attempts, nothing, links, -⟩ := allocMbuf_spec run
  refine ⟨⟨by omega, fun id allocated => links id (Nat.ne_of_lt allocated)⟩, [], [], .nil, ?_, ?_⟩
  · rw [freed, List.append_nil]
  · rw [nothing]
    rfl

/-- Whatever the loop of `load_pkt` ends with, the packet holds all that was granted since
before its head was, and nothing was freed. -/
theorem SegmentsLoaded.whole {head : MbufId} {middle : Ops}
    (allocated : allocMbuf env ops = (some head, middle))
    (loaded : SegmentsLoaded env head [head] middle ops') :
    ops'.pool.Packet head (granted env.answers ops.pool.attempts ops'.pool.attempts) ∧
      ops'.pool.freed = ops.pool.freed := by
  obtain ⟨-, freed, attempts, one, -⟩ := allocMbuf_spec allocated
  have low : ops.pool.attempts ≤ middle.pool.attempts := by omega
  refine ⟨?_, loaded.freed.trans freed⟩
  rw [← granted_append low loaded.attempts, one]
  exact loaded.packet

/-- So it settles the books. -/
theorem SegmentsLoaded.books {head : MbufId} {middle : Ops}
    (allocated : allocMbuf env ops = (some head, middle))
    (loaded : SegmentsLoaded env head [head] middle ops') :
    ops.LoadFrame ops' ∧ ops.pool.Books env.answers ops'.pool [head] := by
  obtain ⟨packet, unchanged⟩ := loaded.whole allocated
  obtain ⟨frame, -, attempts, -, links, fresh⟩ := allocMbuf_spec allocated
  obtain ⟨rfl, -⟩ := fresh head rfl
  have low : ops.pool.attempts ≤ middle.pool.attempts := by omega
  refine ⟨frame.trans loaded.frame, MbufPool.Books.one
    ⟨Nat.le_trans low loaded.attempts, fun id before => ?_⟩ packet unchanged⟩
  refine (loaded.others id (Nat.lt_of_lt_of_le before low) fun member => ?_).trans
    (links id (Nat.ne_of_lt before))
  exact Nat.ne_of_lt before (List.mem_singleton.mp member)

/-- `load_pkt`: the packet returned holds everything granted, and a failed call keeps
nothing. -/
theorem loadPkt_spec {file file' : File} {res : Except Errno TcapPkt}
    (run : loadPkt env ops file = (res, ops', file')) :
    ops.LoadFrame ops' ∧
      ops.pool.Books env.answers ops'.pool (res.toOption.toList.map TcapPkt.mbuf) := by
  rw [loadPkt] at run
  split at run
  · obtain ⟨rfl, rfl, -⟩ := run
    exact ⟨Ops.LoadFrame.refl ops, MbufPool.Books.refl _⟩
  · dsimp only at run
    split at run
    · obtain ⟨rfl, rfl, -⟩ := run
      exact ⟨Ops.LoadFrame.refl ops, MbufPool.Books.refl _⟩
    · split at run
      · next refused =>
        obtain ⟨rfl, rfl, -⟩ := run
        exact ⟨(allocMbuf_spec refused).1, allocMbuf_refused refused⟩
      · next allocated =>
        have packet := allocMbuf_packet allocated
        split at run
        · next segments =>
          obtain ⟨rfl, rfl, -⟩ := run
          obtain ⟨frame, books⟩ :=
            (loadSegments_spec packet (by exact rfl) segments).books allocated
          exact ⟨frame.trans (Ops.loadFrame_pool _ _ _), books.free⟩
        · next segments =>
          obtain ⟨rfl, rfl, -⟩ := run
          exact (loadSegments_spec packet (by exact rfl) segments).books allocated

/-! ### A whole capture -/

/-- The first loop of `load_pkts`. -/
theorem loadLoop_spec {cfg : FlowsGeneratorConfig} {fuel : ℕ} {load load' : LoadState}
    {file : File} {thrown : Option Thrown} {start : MbufPool}
    {ops : Ops} (books : start.Books env.answers ops.pool (mbufsOf load.ret))
    (run : loadLoop env cfg fuel load ops file = (load', thrown, ops')) :
    ops.LoadFrame ops' ∧ start.Books env.answers ops'.pool (mbufsOf load'.ret) := by
  induction fuel generalizing load ops file with
  | zero =>
    obtain ⟨rfl, -, rfl⟩ := run
    exact ⟨Ops.LoadFrame.refl _, books⟩
  | succ fuel inductionHypothesis =>
    rw [loadLoop] at run
    split at run
    · next failed =>
      obtain ⟨frame, settled⟩ := loadPkt_spec failed
      have both := MbufPool.Books.trans books (show ops.pool.Books env.answers _ [] from settled)
      rw [List.append_nil] at both
      split at run
      · obtain ⟨rfl, -, rfl⟩ := run
        exact ⟨frame, both⟩
      · obtain ⟨rfl, -, rfl⟩ := run
        exact ⟨frame, both⟩
    · next pk middle rest loaded =>
      obtain ⟨frame, held⟩ := loadPkt_spec loaded
      have both := MbufPool.Books.trans books
        (show ops.pool.Books env.answers _ [pk.mbuf] from held)
      have added : mbufsOf (addPkt env.hz cfg.interPktsGap pk load).ret =
          mbufsOf load.ret ++ [pk.mbuf] := List.map_append
      rw [← added] at both
      obtain ⟨laterFrame, later⟩ := inductionHypothesis both run
      exact ⟨frame.trans laterFrame, later⟩

theorem readHdr_eq_some {size off place : ℕ} {pkt : Mbuf} :
    readHdr size pkt off = some place ↔ off = place ∧ off + size ≤ pkt.data.length := by
  rw [readHdr]
  split
  · next there => exact ⟨fun same => ⟨Option.some.inj same, there⟩, fun same => by rw [same.1]⟩
  · next short => exact ⟨fun none => absurd none (by simp), fun same => absurd same.2 short⟩

/-- Headers were written to the data of a buffer, which is as long as before. -/
def HeadersWritten (before after : Mbuf) : Prop :=
  ∃ data, after = { before with data } ∧ data.length = before.data.length

theorem HeadersWritten.refl (mbuf : Mbuf) : HeadersWritten mbuf mbuf := ⟨mbuf.data, rfl, rfl⟩

theorem HeadersWritten.trans {first second third : Mbuf} (before : HeadersWritten first second)
    (after : HeadersWritten second third) : HeadersWritten first third := by
  obtain ⟨data, rfl, length⟩ := before
  obtain ⟨data', rfl, length'⟩ := after
  exact ⟨data', rfl, length'.trans length⟩

theorem HeadersWritten.writeAt {mbuf : Mbuf} {off : ℕ} {bytes : List UInt8}
    (within : off + bytes.length ≤ mbuf.data.length) :
    HeadersWritten mbuf (mbuf.writeAt off bytes) := by
  refine ⟨_, rfl, ?_⟩
  rw [List.length_append, List.length_append, List.length_take, List.length_drop]
  omega

theorem setEtherAddrs_written (cfg : FlowsGeneratorConfig) (fromCln : Bool) {mbuf : Mbuf}
    (ether : etherHdrLen ≤ mbuf.data.length) :
    HeadersWritten mbuf (setEtherAddrs cfg fromCln 0 mbuf) := by
  have cln := cfg.clnEtherAddr.six
  have srv := cfg.srvEtherAddr.six
  have room : 14 ≤ mbuf.data.length := ether
  refine HeadersWritten.writeAt ?_
  split <;> rw [List.length_append, cln, srv] <;> omega

/-- The ports are the first four bytes of either header. -/
theorem setCport_written (fromCln : Bool) (port : UInt16) {hdr : ℕ} {mbuf : Mbuf}
    (ports : hdr + 4 ≤ mbuf.data.length) :
    HeadersWritten mbuf (setCport fromCln port hdr mbuf) := by
  have two : (netBytes16 port).length = 2 := rfl
  refine HeadersWritten.writeAt ?_
  rw [two]
  split <;> omega

/-- Preparing a packet writes to the headers of its first segment, which holds the Ethernet and the
IPv4 header. -/
theorem preparePkt_written {cfg : FlowsGeneratorConfig} {clnEtherAddr : Option (List UInt8)}
    {mbuf mbuf' : Mbuf} {addr : List UInt8} {fromCln : Bool}
    (run : preparePkt env cfg clnEtherAddr mbuf = .ok (addr, fromCln, mbuf')) :
    HeadersWritten mbuf mbuf' ∧ etherHdrLen + ipv4HdrSize ≤ mbuf.data.length := by
  rw [preparePkt] at run
  split at run
  · exact absurd run (by simp)
  · next eh ether =>
    obtain ⟨rfl, etherFits⟩ := readHdr_eq_some.mp ether
    dsimp only at run
    split at run
    · exact absurd run (by simp)
    · split at run
      · exact absurd run (by simp)
      · next ih ipv4 =>
        obtain ⟨rfl, ipv4Fits⟩ := readHdr_eq_some.mp ipv4
        rw [Nat.zero_add] at etherFits ipv4Fits
        refine ⟨?_, ipv4Fits⟩
        split at run
        · obtain ⟨-, -, rfl⟩ := Except.ok.inj run
          exact setEtherAddrs_written _ _ etherFits
        · split at run
          -- TCP, UDP and the rest of the protocols
          · split at run
            · exact absurd run (by simp)
            · next th tcp =>
              obtain ⟨rfl, tcpFits⟩ := readHdr_eq_some.mp tcp
              obtain ⟨-, -, rfl⟩ := Except.ok.inj run
              refine (setEtherAddrs_written _ _ etherFits).trans (setCport_written _ _ ?_)
              exact Nat.le_trans (Nat.add_le_add_left (by decide) _) tcpFits
          · split at run
            · split at run
              · exact absurd run (by simp)
              · next uh udp =>
                obtain ⟨rfl, udpFits⟩ := readHdr_eq_some.mp udp
                obtain ⟨-, -, rfl⟩ := Except.ok.inj run
                refine (setEtherAddrs_written _ _ etherFits).trans (setCport_written _ _ ?_)
                exact Nat.le_trans (Nat.add_le_add_left (by decide) _) udpFits
            · obtain ⟨-, -, rfl⟩ := Except.ok.inj run
              exact setEtherAddrs_written _ _ etherFits

/-- Writing headers keeps the link of the buffer. -/
theorem HeadersWritten.next {before after : Mbuf} (written : HeadersWritten before after) :
    after.next = before.next := by
  obtain ⟨data, rfl, -⟩ := written
  rfl

/-- The second loop of `load_pkts` writes headers only; the packets keep their buffers and
their relative time stamps. -/
theorem prepareLoop_spec {cfg : FlowsGeneratorConfig} {clnEtherAddr : Option (List UInt8)}
    {pkts : List Pkt} {ops : Ops} {res : Except Thrown (List Pkt)}
    (run : prepareLoop env cfg clnEtherAddr pkts ops = (res, ops')) :
    ops.LoadFrame ops' ∧ ops'.pool.links = ops.pool.links ∧
      ops'.pool.attempts = ops.pool.attempts ∧ ops'.pool.freed = ops.pool.freed ∧
      ∀ prepared, res = .ok prepared → mbufsOf prepared = mbufsOf pkts := by
  induction pkts generalizing clnEtherAddr ops res with
  | nil =>
    obtain ⟨rfl, rfl⟩ := run
    exact ⟨Ops.LoadFrame.refl _, rfl, rfl, rfl, fun prepared same =>
      Except.ok.inj same ▸ rfl⟩
  | cons pkt rest inductionHypothesis =>
    rw [prepareLoop] at run
    split at run
    · obtain ⟨rfl, rfl⟩ := run
      exact ⟨Ops.LoadFrame.refl _, rfl, rfl, rfl, by simp⟩
    · next addr fromCln mbuf prepared =>
      have same := (preparePkt_written prepared).1.next
      have links : (ops.pool.modify pkt.mbuf fun _ => mbuf).links = ops.pool.links := by
        funext id
        show (Function.update ops.pool.mbufs pkt.mbuf mbuf id).next = (ops.pool.mbufs id).next
        by_cases written : id = pkt.mbuf
        · rw [written, Function.update_self, same]
        · rw [Function.update_of_ne written]
      dsimp only at run
      split at run
      · next failed =>
        obtain ⟨rfl, rfl⟩ := run
        obtain ⟨frame, restLinks, attempts, freed, -⟩ := inductionHypothesis failed
        exact ⟨(Ops.loadFrame_pool _ _ _).trans frame, restLinks.trans links, attempts, freed,
          by simp⟩
      · next done =>
        obtain ⟨rfl, rfl⟩ := run
        obtain ⟨frame, restLinks, attempts, freed, mbufs⟩ := inductionHypothesis done
        refine ⟨(Ops.loadFrame_pool _ _ _).trans frame, restLinks.trans links, attempts, freed,
          fun prepared result => ?_⟩
        obtain rfl := Except.ok.inj result
        exact congrArg (pkt.mbuf :: ·) (mbufs _ rfl)

/-- `load_pkts`: the packets returned hold everything granted that was not freed; when it
throws, everything was freed. -/
theorem loadPkts_spec {cfg : FlowsGeneratorConfig} {res : Except Thrown (List Pkt)}
    (run : loadPkts env cfg ops = (res, ops')) :
    ops.LoadFrame ops' ∧
      ops.pool.Books env.answers ops'.pool (mbufsOf (res.toOption.getD [])) ∧
      ∀ pkts, res = .ok pkts → pkts ≠ [] := by
  rw [loadPkts] at run
  split at run
  · obtain ⟨rfl, rfl⟩ := run
    exact ⟨Ops.LoadFrame.refl _, MbufPool.Books.refl _, by simp⟩
  · split at run
    · next failed =>
      obtain ⟨rfl, rfl⟩ := run
      obtain ⟨frame, books⟩ := loadLoop_spec (MbufPool.Books.refl ops.pool) failed
      exact ⟨frame.trans (Ops.loadFrame_pool _ _ _), books.free, by simp⟩
    · next loaded =>
      obtain ⟨frame, books⟩ := loadLoop_spec (MbufPool.Books.refl ops.pool) loaded
      split at run
      · next failed =>
        obtain ⟨rfl, rfl⟩ := run
        obtain ⟨prepareFrame, links, attempts, freed, -⟩ := prepareLoop_spec failed
        exact ⟨(frame.trans prepareFrame).trans (Ops.loadFrame_pool _ _ _),
          (books.write links attempts freed).free, by simp⟩
      · next pkts _ prepared =>
        obtain ⟨prepareFrame, links, attempts, freed, mbufs⟩ := prepareLoop_spec prepared
        have written := books.write links attempts freed
        rw [← mbufs pkts rfl] at written
        split at run
        · next empty =>
          obtain ⟨rfl, rfl⟩ := run
          rw [empty] at written
          exact ⟨frame.trans prepareFrame, written, by simp⟩
        · next some =>
          obtain ⟨rfl, rfl⟩ := run
          exact ⟨frame.trans prepareFrame, written, fun other same =>
            Except.ok.inj same ▸ some⟩

end TrafficGenerator
