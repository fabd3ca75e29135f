/-
This file says what a start request leads to, from nothing but its configuration
and the bytes of the captures it names. With buffers for everything, the first
loop of `load_pkts` loads the records of a capture, each one into a packet of
its own whose first segment holds as many bytes as a buffer has room for. That
is what the second loop checks and rewrites, so the generation starts when these
bytes pass, and the generators hold the records with their headers rewritten.
-/

import TrafficGenerator.HeaderRewrite
import TrafficGenerator.Provenance

namespace TrafficGenerator

variable {env : Env} {ops ops' : Ops} {pool pool' : MbufPool} {cfg : FlowsGeneratorConfig}
  {capacity : UInt16}

/-! ### The first segment of a loaded packet -/

/-- Once the loop of `load_pkt` is behind the first segment it does not write its data again. -/
theorem loadSegments_headData {head prev : MbufId} {fuel left : ℕ} {file file' : File}
    {code : Option Errno} (allocated : head < ops.pool.attempts)
    (run : loadSegments env head fuel left (some prev) ops file = (code, ops', file')) :
    (ops'.pool.mbufs head).data = (ops.pool.mbufs head).data := by
  induction fuel generalizing left prev ops file with
  | zero =>
    obtain ⟨-, rfl, -⟩ := run
    rfl
  | succ fuel inductionHypothesis =>
    rw [loadSegments] at run
    split at run
    · obtain ⟨-, rfl, -⟩ := run
      rfl
    · dsimp only at run
      split at run
      · next refused =>
        obtain ⟨-, rfl, -⟩ := run
        rw [(allocMbuf_writes refused).1.mbufs head allocated]
      · next curr middle granted =>
        obtain ⟨writes, fresh⟩ := allocMbuf_writes granted
        have apart : head ≠ curr := Nat.ne_of_lt (Nat.lt_of_lt_of_le allocated (fresh curr rfl))
        have linked : ((linkSegment head prev curr middle).pool.mbufs head).data =
            (ops.pool.mbufs head).data := by
          rw [(linkSegment_mbufs head prev curr middle).data, writes.mbufs head allocated]
        split at run
        · obtain ⟨-, rfl, -⟩ := run
          exact linked
        · next bytes rest read =>
          have later : head < (fillSegment head curr bytes
              (linkSegment head prev curr middle)).pool.attempts :=
            Nat.lt_of_lt_of_le allocated writes.attempts
          rw [inductionHypothesis later run, (fillSegment_mbufs head curr bytes _).data head apart,
            linked]

/-- The first segment takes what it has room for. -/
theorem loadSegments_first {head : MbufId} {fuel left : ℕ} {file file' : File}
    (allocated : head < ops.pool.attempts) (enough : left ≤ fuel)
    (empty : (ops.pool.mbufs head).data = [])
    (run : loadSegments env head fuel left none ops file = (none, ops', file')) :
    (ops'.pool.mbufs head).data =
      (file.data.take left).take (ops.pool.mbufs head).tailroom.toNat := by
  cases fuel with
  | zero =>
    obtain rfl := Nat.le_zero.mp enough
    obtain ⟨-, rfl, -⟩ := run
    rw [empty, List.take_zero, List.take_nil]
  | succ fuel =>
    rw [loadSegments] at run
    split at run
    · next done =>
      obtain ⟨-, rfl, -⟩ := run
      rw [empty, done, List.take_zero, List.take_nil]
    · dsimp only at run
      split at run
      · exact absurd (Prod.mk.inj run).1 (by simp)
      · next bytes rest read =>
        obtain ⟨-, -, rfl, -⟩ := fread_ok.mp read
        have filled := fillSegment_mbufs head head
          (file.data.take (min left (ops.pool.mbufs head).tailroom.toNat)) ops
        rw [loadSegments_headData (by exact allocated) run, filled.self, List.take_take,
          Nat.min_comm]

/-! ### Packets that hold records -/

/-- The first segment of a packet in buffers of a capacity. -/
def firstSegment (capacity : UInt16) (payload : List UInt8) : Mbuf where
  data := payload.take capacity.toNat

/-- A packet holds a payload, filling its first segment first. -/
structure MbufPool.Carries (pool : MbufPool) (capacity : UInt16) (payload : List UInt8)
    (head : MbufId) : Prop where
  packet : pool.Packet head (pool.chain head)
  bytes : pool.bytes head = payload
  first : (pool.mbufs head).data = (firstSegment capacity payload).data

theorem MbufPool.Carries.keep {payload : List UInt8} {head : MbufId}
    (carries : pool.Carries capacity payload head) (preserves : pool.Preserves pool') :
    pool'.Carries capacity payload head where
  packet := (carries.packet.keep preserves.keeps).self
  bytes := (carries.packet.bytes_keep preserves).trans carries.bytes
  first := by
    rw [preserves.mbufs head (carries.packet.allocated head carries.packet.head_mem)]
    exact carries.first

/-- The next record of a file is loaded into such a packet. -/
theorem loadPkt_carries (grants : env.Grants capacity) (positive : 0 < capacity.toNat) (ops : Ops)
    {record : Record} {rest : List UInt8} {file : File}
    (contents : file.data = record.bytes ++ rest) (fits : record.Fits) :
    ∃ pkt ops', loadPkt env ops file = (.ok pkt, ops', { file with data := rest }) ∧
      ops'.pool.Carries capacity record.payload pkt.mbuf := by
  obtain ⟨pkt, ops', run⟩ := loadPkt_runs grants positive ops contents fits
  have ahead : RecordAhead record rest file.data := by
    rw [contents]
    exact record.ahead rest fits
  obtain ⟨segs, holds⟩ := (loadPkt_holds run).holds
  rw [ahead.payload, ahead.caplen, List.take_left' rfl] at holds
  refine ⟨pkt, ops', run, holds.packet.self, ?_, ?_⟩
  · rw [holds.packet.bytes_eq, holds.data]
  · -- The room of the first segment is that of the buffer the call obtains first.
    rw [loadPkt] at run
    split at run
    · exact absurd (Prod.mk.inj run).1 (by simp)
    · next hdr left read =>
      obtain ⟨-, -, rfl, rfl⟩ := fread_ok.mp read
      dsimp only at run
      rw [hostNumAt_take (by decide), hostNumAt_take (by decide), ahead.caplen, ahead.len,
        if_neg (not_not_intro rfl)] at run
      split at run
      · exact absurd (Prod.mk.inj run).1 (by simp)
      · next head middle granted =>
        split at run
        · exact absurd (Prod.mk.inj run).1 (by simp)
        · next last behind segments =>
          obtain ⟨same, later⟩ := Prod.mk.inj run
          obtain ⟨rfl, -⟩ := Prod.mk.inj later
          obtain rfl := Except.ok.inj same
          obtain ⟨tailroom, grant, mbuf, -⟩ := allocMbuf_granted granted
          obtain rfl := Option.some.inj ((grants _).symm.trans grant)
          have packet := allocMbuf_packet granted
          have data := loadSegments_first (packet.allocated head packet.head_mem) (Nat.le_refl _)
            (by rw [mbuf]) segments
          rw [mbuf] at data
          refine data.trans ?_
          dsimp only
          rw [ahead.payload, List.take_left' rfl]
          rfl

/-- The first loop of `load_pkts` writes to fresh buffers only. -/
theorem loadLoop_writes {fuel : ℕ} {load load' : LoadState} {file : File}
    {thrown : Option Thrown} (run : loadLoop env cfg fuel load ops file = (load', thrown, ops')) :
    ops.pool.Preserves ops'.pool := by
  induction fuel generalizing load ops file with
  | zero =>
    obtain ⟨-, -, rfl⟩ := run
    exact MbufPool.WritesFrom.refl _ _
  | succ fuel inductionHypothesis =>
    rw [loadLoop] at run
    split at run
    · next failed =>
      split at run <;> obtain ⟨-, -, rfl⟩ := run <;> exact loadPkt_writes failed
    · next loaded => exact (loadPkt_writes loaded).trans (inductionHypothesis run)

/-- The first loop of `load_pkts` loads the records of a capture, in order. -/
theorem loadLoop_carries (cfg : FlowsGeneratorConfig) (grants : env.Grants capacity)
    (positive : 0 < capacity.toNat) {records : List Record} {tail : List UInt8} {fuel : ℕ}
    (load : LoadState) (ops : Ops) {file : File}
    (contents : file.data = records.flatMap Record.bytes ++ tail)
    (fits : ∀ record ∈ records, record.Fits) (ends : tail = [] ∨ IncompleteRecord tail)
    (noFailure : file.failure = none) (enough : file.data.length < fuel) :
    ∃ load' ops' pkts, loadLoop env cfg fuel load ops file = (load', none, ops') ∧
      load'.ret = load.ret ++ pkts ∧
      pkts.Forall₂ (fun pkt record => ops'.pool.Carries capacity record.payload pkt.mbuf)
        records := by
  induction records generalizing fuel load ops file with
  | nil =>
    obtain ⟨fuel, rfl⟩ := Nat.exists_eq_succ_of_ne_zero (Nat.ne_zero_of_lt enough)
    obtain ⟨code, ops', file', run, atEnd⟩ :
        ∃ code ops' file', loadPkt env ops file = (.error code, ops', file') ∧
          file'.eof = true := by
      rw [List.flatMap_nil, List.nil_append] at contents
      rcases ends with rfl | incomplete
      · exact ⟨_, _, _, loadPkt_atEnd contents noFailure, rfl⟩
      · exact loadPkt_incomplete grants positive noFailure (contents ▸ incomplete)
    rw [loadLoop, run]
    dsimp only
    rw [if_pos atEnd]
    exact ⟨load, ops', [], rfl, (List.append_nil _).symm, .nil⟩
  | cons record rest inductionHypothesis =>
    obtain ⟨fuel, rfl⟩ := Nat.exists_eq_succ_of_ne_zero (Nat.ne_zero_of_lt enough)
    rw [List.flatMap_cons, List.append_assoc] at contents
    obtain ⟨pk, middle, run, carries⟩ := loadPkt_carries grants positive ops contents
      (fits record List.mem_cons_self)
    have length := congrArg List.length contents
    rw [List.length_append, record.bytes_length, pcapPktHdrSize] at length
    have shorter : (rest.flatMap Record.bytes ++ tail).length < fuel := by omega
    obtain ⟨load', ops', pkts, loop, ret, each⟩ := inductionHypothesis
      (addPkt env.hz cfg.interPktsGap pk load) middle
      (show File.data { file with data := rest.flatMap Record.bytes ++ tail } = _ from rfl)
      (fun other member => fits other (List.mem_cons_of_mem _ member)) noFailure shorter
    rw [loadLoop, run]
    refine ⟨load', ops', _, loop, ret.trans (List.append_assoc _ [_] _), .cons ?_ each⟩
    exact carries.keep (loadLoop_writes loop)

/-! ### What the second loop makes of them -/

/-- The second loop checks the data of a segment and nothing else. -/
theorem Preparable.congr {mbuf other : Mbuf} (preparable : Preparable cfg mbuf)
    (same : other.data = mbuf.data) : Preparable cfg other := by
  obtain ⟨data⟩ := other
  obtain rfl : data = mbuf.data := same
  exact ⟨preparable.headers, preparable.ipv4, preparable.ports⟩

theorem setPort_data (fromCln : Bool) {mbuf other : Mbuf} (same : other.data = mbuf.data) :
    (setPort cfg fromCln other).data = (setPort cfg fromCln mbuf).data := by
  have byteAt : other.byteAt = mbuf.byteAt := by
    funext off
    rw [Mbuf.byteAt, Mbuf.byteAt, same]
  have proto : other.nextProto = mbuf.nextProto := by rw [Mbuf.nextProto, Mbuf.nextProto, byteAt]
  have place : other.portOff fromCln = mbuf.portOff fromCln := by
    rw [Mbuf.portOff, Mbuf.portOff, Mbuf.l4Off, Mbuf.l4Off, Mbuf.ihl, Mbuf.ihl, byteAt]
  unfold setPort
  rw [proto, place]
  cases cfg.clnPort with
  | none => exact same
  | some port =>
    cases l4HdrSize mbuf.nextProto with
    | none => exact same
    | some size =>
      dsimp only
      rw [Mbuf.writeAt, Mbuf.writeAt, same]

theorem rewriteHdrs_data (fromCln : Bool) {mbuf other : Mbuf} (same : other.data = mbuf.data) :
    (rewriteHdrs cfg fromCln other).data = (rewriteHdrs cfg fromCln mbuf).data := by
  refine setPort_data fromCln ?_
  rw [setEtherAddrs, setEtherAddrs, Mbuf.writeAt, Mbuf.writeAt, same]

/-- The bytes of a packet with its headers rewritten. -/
def storedBytes (capacity : UInt16) (cfg : FlowsGeneratorConfig) (fromCln : Bool)
    (payload : List UInt8) : List UInt8 :=
  (rewriteHdrs cfg fromCln (firstSegment capacity payload)).data ++ payload.drop capacity.toNat

/-- The source address of the first record: packets from there are from the client. -/
def capturedClient (capacity : UInt16) : List Record → List UInt8
  | [] => []
  | record :: _ => (firstSegment capacity record.payload).srcEther

/-- A packet of a generator stands for a record: its direction tells whether its source address is
that of the client, and it has the bytes of the record but for the headers. -/
structure MbufPool.StandsFor (pool : MbufPool) (capacity : UInt16) (cfg : FlowsGeneratorConfig)
    (client : List UInt8) (pkt : Pkt) (record : Record) : Prop where
  packet : pool.Packet pkt.mbuf (pool.chain pkt.mbuf)
  fromCln : pkt.fromCln = decide (client = (firstSegment capacity record.payload).srcEther)
  bytes : pool.bytes pkt.mbuf = storedBytes capacity cfg pkt.fromCln record.payload

theorem MbufPool.StandsFor.keep {client : List UInt8} {pkt : Pkt} {record : Record}
    (stands : pool.StandsFor capacity cfg client pkt record) (preserves : pool.Preserves pool') :
    pool'.StandsFor capacity cfg client pkt record where
  packet := (stands.packet.keep preserves.keeps).self
  fromCln := stands.fromCln
  bytes := (stands.packet.bytes_keep preserves).trans stands.bytes

/-- What becomes of a packet when headers are written. -/
theorem MbufPool.Carries.rewritten {bound : ℕ} {payload : List UInt8} {head : MbufId}
    {fromCln : Bool} (carries : pool.Carries capacity payload head)
    (prepared : pool.Prepared bound pool')
    (first : pool'.mbufs head = rewriteHdrs cfg fromCln (pool.mbufs head))
    (later : ∀ id ∈ (pool.chain head).tail, pool'.mbufs id = pool.mbufs id) :
    pool'.Packet head (pool'.chain head) ∧
      pool'.bytes head = storedBytes capacity cfg fromCln payload := by
  have keeps : pool.Keeps pool' :=
    ⟨prepared.same.ge, fun id _ => (prepared.written id).next⟩
  have packet := carries.packet.keep keeps
  obtain ⟨rest, chain⟩ := carries.packet.cons
  have whole := carries.bytes
  rw [carries.packet.bytes_eq, chain, dataOf, List.flatMap_cons, ← dataOf, carries.first] at whole
  have behind : pool.dataOf rest = payload.drop capacity.toNat :=
    List.append_cancel_left (whole.trans (List.take_append_drop _ _).symm)
  refine ⟨packet.self, ?_⟩
  rw [chain] at packet later
  rw [List.tail_cons] at later
  rw [packet.bytes_eq, dataOf, List.flatMap_cons, ← dataOf, first, storedBytes,
    dataOf_congr fun id member => congrArg Mbuf.data (later id member), behind,
    rewriteHdrs_data fromCln carries.first]

/-- What holds of all elements of one list holds of all elements of a related one. -/
theorem forall_mem_iff_of_forall₂ {First Second : Type} {related : First → Second → Prop}
    {firsts : List First} {seconds : List Second} (each : firsts.Forall₂ related seconds)
    {left : First → Prop} {right : Second → Prop}
    (same : ∀ first second, related first second → (left first ↔ right second)) :
    (∀ first ∈ firsts, left first) ↔ ∀ second ∈ seconds, right second := by
  induction each with
  | nil => exact iff_of_true (by simp) (by simp)
  | cons here _ inductionHypothesis =>
    rw [List.forall_mem_cons, List.forall_mem_cons, inductionHypothesis, same _ _ here]

/-- `load_pkts` of a capture, from its bytes: it succeeds when there are records and the first
segments of all of them pass, and what it returns stands for the records. -/
theorem loadPkts_capture (grants : env.Grants capacity) (positive : 0 < capacity.toNat) (ops : Ops)
    {file : File} {hdr : PcapHdr} {records : List Record} {tail : List UInt8}
    (opens : env.fopen cfg.capFpath = .ok file) (noFailure : file.failure = none)
    (capture : CaptureOf file.data hdr records tail) :
    ((∃ pkts ops', loadPkts env cfg ops = (.ok pkts, ops')) ↔
      records ≠ [] ∧ ∀ record ∈ records, Preparable cfg (firstSegment capacity record.payload)) ∧
    ∀ pkts ops', loadPkts env cfg ops = (.ok pkts, ops') →
      pkts.Forall₂ (ops'.pool.StandsFor capacity cfg (capturedClient capacity records))
        records := by
  obtain ⟨load, middle, pkts, loop, ret, each⟩ := loadLoop_carries cfg grants positive
    (.start cfg) ops (show File.data { file with data := records.flatMap Record.bytes ++ tail } = _
      from rfl) capture.fits capture.ends noFailure (Nat.lt_succ_self _)
  have read : LoadedPkts env cfg ops middle pkts :=
    ⟨_, load, openTcap_ok opens capture.contents, ret, loop⟩
  have preparable : (∀ pkt ∈ pkts, Preparable cfg (middle.pool.mbufs pkt.mbuf)) ↔
      ∀ record ∈ records, Preparable cfg (firstSegment capacity record.payload) :=
    forall_mem_iff_of_forall₂ each fun pkt record carries =>
      ⟨fun checked => checked.congr carries.first.symm, fun checked => checked.congr carries.first⟩
  have some : pkts = [] ↔ records = [] := by
    rw [← List.length_eq_zero_iff, each.length_eq, List.length_eq_zero_iff]
  have distinct := read.heads_apart.1
  refine ⟨⟨?_, ?_⟩, fun prepared ops' run => ?_⟩
  · rintro ⟨prepared, ops', run⟩
    obtain ⟨nonempty, done⟩ := read.loadPkts_eq.mp run
    refine ⟨fun empty => nonempty ?_, preparable.mp (prepareLoop_checked distinct done)⟩
    rw [some.mpr empty] at done
    exact (Except.ok.inj (Prod.mk.inj done).1).symm
  · rintro ⟨nonempty, checked⟩
    obtain ⟨ops', done, -⟩ := prepareLoop_ok env middle distinct none (preparable.mpr checked)
    refine ⟨_, ops', read.loadPkts_eq.mpr ⟨?_, done⟩⟩
    exact fun empty => nonempty (some.mp (List.map_eq_nil_iff.mp empty))
  · obtain ⟨nonempty, done⟩ := read.loadPkts_eq.mp run
    obtain ⟨after, again, rewritten, others⟩ := prepareLoop_ok env middle distinct none
      (prepareLoop_checked distinct done)
    obtain ⟨result, rfl⟩ := Prod.mk.inj (done.symm.trans again)
    obtain rfl := Except.ok.inj result
    obtain ⟨written, -⟩ := prepareLoop_prepared
      (show ∀ pkt : Pkt, pkt ∈ _ → 0 ≤ pkt.mbuf from fun _ _ => Nat.zero_le _) done
    rw [Option.getD_none] at rewritten ⊢
    have source {pkt : Pkt} {record : Record}
        (carries : middle.pool.Carries capacity record.payload pkt.mbuf) :
        (middle.pool.mbufs pkt.mbuf).srcEther =
          (firstSegment capacity record.payload).srcEther := by
      rw [Mbuf.srcEther, Mbuf.bytesAt, carries.first]
      rfl
    have client : clientAddr middle.pool pkts = capturedClient capacity records := by
      cases each with
      | nil => exact absurd rfl nonempty
      | cons first _ => exact source first
    have facts : ∀ pkt ∈ pkts,
        ops'.pool.mbufs pkt.mbuf = rewriteHdrs cfg (decide (clientAddr middle.pool pkts =
          (middle.pool.mbufs pkt.mbuf).srcEther)) (middle.pool.mbufs pkt.mbuf) ∧
        ∀ id ∈ (middle.pool.chain pkt.mbuf).tail, ops'.pool.mbufs id = middle.pool.mbufs id :=
      fun pkt member => ⟨rewritten _ (List.mem_map_of_mem member),
        fun id later => others id (read.heads_apart.2 pkt member id later)⟩
    rw [marked, List.forall₂_map_left_iff]
    refine ((List.forall₂_and_left _ _).mpr ⟨facts, each⟩).imp ?_
    rintro pkt record ⟨fact, carries⟩
    rw [source carries, client] at fact ⊢
    obtain ⟨packet, bytes⟩ := carries.rewritten written fact.1 fact.2
    exact ⟨packet, rfl, bytes⟩

/-! ### Generators -/

/-- No file fails while it is read. -/
def Env.ReadsFiles (env : Env) : Prop :=
  ∀ path file, env.fopen path = .ok file → file.failure = none ∧ file.eof = false

/-- A generator can be built: its file is a capture of some records, of which the first bytes pass
the checks, and its flows are not too many for the clock. -/
structure CanReplay (env : Env) (capacity : UInt16) (cfg : FlowsGeneratorConfig) : Prop where
  capture : ∃ file hdr records tail, env.fopen cfg.capFpath = .ok file ∧
    CaptureOf file.data hdr records tail ∧ records ≠ [] ∧
    ∀ record ∈ records, Preparable cfg (firstSegment capacity record.payload)
  steps : flowTscStep env.hz cfg.flowsPerSec.toNat ≠ 0

/-- A generator has one packet for each record of its file, in order. -/
def FlowsGenerator.HoldsCapture (gen : FlowsGenerator) (env : Env) (capacity : UInt16)
    (cfg : FlowsGeneratorConfig) (pool : MbufPool) : Prop :=
  ∀ file hdr records tail, env.fopen cfg.capFpath = .ok file →
    CaptureOf file.data hdr records tail →
    gen.pkts.Forall₂ (pool.StandsFor capacity cfg (capturedClient capacity records)) records

theorem FlowsGenerator.HoldsCapture.keep {gen : FlowsGenerator}
    (holds : gen.HoldsCapture env capacity cfg pool) (preserves : pool.Preserves pool') :
    gen.HoldsCapture env capacity cfg pool' := fun file hdr records tail opens capture =>
  (holds file hdr records tail opens capture).imp fun _ _ stands => stands.keep preserves

/-- What `load_pkts` succeeds on is a capture. -/
theorem loadPkts_opened (reads : env.ReadsFiles) {pkts : List Pkt}
    (run : loadPkts env cfg ops = (.ok pkts, ops')) : ∃ file hdr records tail,
      env.fopen cfg.capFpath = .ok file ∧ CaptureOf file.data hdr records tail := by
  obtain ⟨middle, loaded, rest, load, opened, -, loop⟩ := loadPkts_read run
  cases opens : env.fopen cfg.capFpath with
  | error code =>
    rw [openTcap, opens] at opened
    exact absurd opened (by simp)
  | ok file =>
    obtain ⟨hdr, records, tail, capture, -⟩ :=
      LoadsAll.capture opens (reads _ _ opens).2 ⟨rest, middle, opened, loop⟩
    exact ⟨file, hdr, records, tail, rfl, capture⟩

/-- The constructor of a generator. -/
theorem construct_capture (grants : env.Grants capacity) (positive : 0 < capacity.toNat)
    (reads : env.ReadsFiles) (cfg : FlowsGeneratorConfig) (ops : Ops) :
    ((∃ gen ops', FlowsGenerator.construct env cfg ops = (.ok gen, ops')) ↔
      CanReplay env capacity cfg) ∧
    ∀ gen ops', FlowsGenerator.construct env cfg ops = (.ok gen, ops') →
      gen.HoldsCapture env capacity cfg ops'.pool := by
  refine ⟨⟨fun ⟨gen, ops', run⟩ => ?_, fun can => ?_⟩, fun gen ops' run => ?_⟩
  · obtain ⟨pkts, middle, loaded, -⟩ := FlowsGenerator.construct_ok run
    obtain ⟨file, hdr, records, tail, opens, capture⟩ := loadPkts_opened reads loaded
    refine ⟨⟨file, hdr, records, tail, opens, capture, ?_⟩, fun none => ?_⟩
    · exact (loadPkts_capture grants positive ops opens (reads _ _ opens).1 capture).1.mp
        ⟨pkts, middle, loaded⟩
    · rw [FlowsGenerator.construct, loaded] at run
      dsimp only at run
      rw [FlowsGenerator.setupFlowEvents, withFlows_length] at run
      dsimp only at run
      rw [if_pos none] at run
      exact absurd (Prod.mk.inj run).1 (by simp)
  · obtain ⟨file, hdr, records, tail, opens, capture, usable⟩ := can.capture
    obtain ⟨pkts, middle, loaded⟩ :=
      (loadPkts_capture grants positive ops opens (reads _ _ opens).1 capture).1.mpr usable
    have steps := can.steps
    rw [← withFlows_length cfg pkts] at steps
    obtain ⟨aborted, -, built⟩ := FlowsGenerator.construct_loaded loaded steps
    exact ⟨_, _, built⟩
  · obtain ⟨pkts, middle, loaded, rfl, pool⟩ := FlowsGenerator.construct_ok run
    intro file hdr records tail opens capture
    rw [pool]
    exact (loadPkts_capture grants positive ops opens (reads _ _ opens).1 capture).2 pkts middle
      loaded

/-- All the generators of a start request. -/
theorem createGens_captures (grants : env.Grants capacity) (positive : 0 < capacity.toNat)
    (reads : env.ReadsFiles) {workingDir : String} {dutAddress : EtherAddr} {pos : ℕ}
    {caps : List FlowsConfig} {gens : List FlowsGenerator} {ops : Ops} :
    ((∃ more ops', createGens env workingDir dutAddress (UInt32.ofNat pos) caps gens ops =
        (.ok more, ops')) ↔
      ∀ (place : ℕ) (cap : FlowsConfig), caps[place]? = some cap → CanReplay env capacity
        (generatorConfig env workingDir dutAddress (UInt32.ofNat (pos + place)) cap)) ∧
    ∀ more ops', createGens env workingDir dutAddress (UInt32.ofNat pos) caps gens ops =
      (.ok more, ops') → ∃ built, more = gens ++ built ∧
        ∀ (place : ℕ) (cap : FlowsConfig) (gen : FlowsGenerator), caps[place]? = some cap →
          built[place]? = some gen → gen.HoldsCapture env capacity
            (generatorConfig env workingDir dutAddress (UInt32.ofNat (pos + place)) cap)
            ops'.pool := by
  induction caps generalizing pos gens ops with
  | nil =>
    refine ⟨iff_of_true ⟨gens, ops, rfl⟩ fun place cap found => absurd found (by simp), ?_⟩
    intro more ops' run
    obtain ⟨same, -⟩ := Prod.mk.inj run
    exact ⟨[], (Except.ok.inj same).symm.trans (List.append_nil _).symm,
      fun place cap gen found => absurd found (by simp)⟩
  | cons cap rest inductionHypothesis =>
    have next : UInt32.ofNat pos + 1 = UInt32.ofNat (pos + 1) := by
      rw [UInt32.ofNat_add]
      rfl
    have further (place : ℕ) : pos + (place + 1) = pos + 1 + place := by omega
    obtain ⟨buildable, holds⟩ := construct_capture grants positive reads
      (generatorConfig env workingDir dutAddress (UInt32.ofNat pos) cap) ops
    rw [createGens, next]
    cases one : FlowsGenerator.construct env
      (generatorConfig env workingDir dutAddress (UInt32.ofNat pos) cap) ops with
    | mk res middle =>
      cases res with
      | error thrown =>
        refine ⟨iff_of_false ?_ fun all => ?_, fun more ops' run => ?_⟩
        · rintro ⟨more, ops', run⟩
          exact absurd (Prod.mk.inj run).1 (by simp)
        · obtain ⟨gen, ops', built⟩ := buildable.mpr (all 0 cap rfl)
          exact absurd (Prod.mk.inj (one.symm.trans built)).1 (by simp)
        · exact absurd (Prod.mk.inj run).1 (by simp)
      | ok gen =>
        obtain ⟨restBuildable, restHolds⟩ := @inductionHypothesis (pos + 1) (gens ++ [gen]) middle
        refine ⟨restBuildable.trans ⟨fun all => ?_, fun all => ?_⟩, fun more ops' run => ?_⟩
        · rintro (_ | place) other found
          · obtain rfl := Option.some.inj found
            exact buildable.mp ⟨gen, middle, one⟩
          · rw [further]
            exact all place other found
        · intro place other found
          rw [← further]
          exact all (place + 1) other found
        · obtain ⟨built, same, each⟩ := restHolds more ops' run
          refine ⟨gen :: built, by rw [same, List.append_assoc]; rfl, ?_⟩
          rintro (_ | place) other gen' found foundGen
          · obtain rfl := Option.some.inj found
            obtain rfl := Option.some.inj foundGen
            exact (holds gen middle one).keep (createGens_writes run).1
          · rw [further]
            exact each place other gen' found foundGen

/-- A start request, from its configuration and the bytes of the captures. With buffers for
everything and files that can be read, a generation starts exactly when every file it names is a
capture of some records, the first bytes of each record are those of a packet whose headers can be
rewritten, and no capture has too many flows for the clock. The response says which it was. Every
generator then holds one packet for each record of its file, in order: in the direction the source
address of the first record gives it, and with the bytes of the record but for the headers. -/
theorem start_outcome (env : Env) (input : StartIn) (cfg : GenConfig) (manager : GenManager)
    (capacity : UInt16) (idle : manager.genCycles = none) (empty : manager.generators = [])
    (positive : 0 < capacity.toNat) (grants : env.Grants capacity) (reads : env.ReadsFiles) :
    let next := onStartGeneration env input cfg manager
    let genCfg := fun pos cap =>
      generatorConfig env manager.workingDir cfg.dutAddr (UInt32.ofNat pos) cap
    (next.generationStarted = true ↔
      ∀ pos cap, cfg.flowsCfgs[pos]? = some cap → CanReplay env capacity (genCfg pos cap)) ∧
    (∃ res, next.ops.outMsgs = manager.ops.outMsgs ++ [.startGeneration res] ∧
      (res = .ok () ↔ next.generationStarted = true)) ∧
    (next.generationStarted = true → next.generators.length = cfg.flowsCfgs.length) ∧
    ∀ (pos : ℕ) (cap : FlowsConfig) (gen : FlowsGenerator), cfg.flowsCfgs[pos]? = some cap →
      next.generators[pos]? = some gen →
      gen.HoldsCapture env capacity (genCfg pos cap) next.ops.pool := by
  intro next genCfg
  have stopped : manager.generationStarted = false := by
    rw [GenManager.generationStarted, idle]
    rfl
  obtain ⟨buildable, holds⟩ := @createGens_captures env capacity grants positive reads
    manager.workingDir cfg.dutAddr 0 cfg.flowsCfgs [] manager.ops
  simp only [Nat.zero_add] at buildable holds
  cases built : createGens env manager.workingDir cfg.dutAddr 0 cfg.flowsCfgs [] manager.ops with
  | mk res middle =>
    have outMsgs := (createGens_spec (Built.refl manager.ops) built).frame.outMsgs
    cases res with
    | error thrown =>
      have failed : next = _ := onStartGeneration_failed input cfg manager stopped built
      have remains : next.generationStarted = false := by
        rw [failed]
        exact stopped
      refine ⟨iff_of_false (by simp [remains]) fun all => ?_, ⟨.error (thrown.what env), ?_, ?_⟩,
        fun started => absurd (remains.symm.trans started) (by simp), ?_⟩
      · obtain ⟨more, ops', run⟩ := buildable.mpr all
        exact absurd (Prod.mk.inj (built.symm.trans run)).1 (by simp)
      · rw [failed, ← outMsgs]
        rfl
      · simp [remains]
      · intro pos cap gen _ found
        rw [failed, show manager.generators = [] from empty] at found
        exact absurd found (by simp)
    | ok gens =>
      have begun : next = _ := onStartGeneration_built input cfg manager stopped empty built
      have started : next.generationStarted = true := by
        rw [begun]
        rfl
      obtain ⟨more, same, each⟩ := holds gens middle built
      obtain ⟨again, sameAgain, length, -⟩ := createGens_worksOn
        (show createGens _ _ _ (UInt32.ofNat 0) _ _ _ = _ from built)
      rw [List.nil_append] at same sameAgain
      subst same sameAgain
      obtain ⟨pool, -, -, -, outMsgsReset, -⟩ := resetStats_frame input.resetErr middle
      refine ⟨iff_of_true started (buildable.mp ⟨gens, middle, built⟩), ⟨.ok (), ?_, ?_⟩,
        fun _ => ?_, fun pos cap gen found foundGen => ?_⟩
      · rw [begun, ← outMsgs, ← outMsgsReset]
        rfl
      · exact iff_of_true rfl started
      · rw [begun]
        exact length
      · have poolAfter : next.ops.pool = middle.pool := by
          rw [begun]
          exact pool
        rw [begun] at foundGen
        rw [poolAfter]
        exact each pos cap gen found foundGen

/-- Both captures of the sample, over a pool without limits. -/
theorem start_outcome_twoCaptures :
    let next := onStartGeneration (sampleEnv samplePool) {} twoCaptures {}
    next.generators.length = 2 ∧ ∀ (pos : ℕ) (cap : FlowsConfig) (gen : FlowsGenerator),
      twoCaptures.flowsCfgs[pos]? = some cap → next.generators[pos]? = some gen →
      gen.HoldsCapture (sampleEnv samplePool) 2048
        (generatorConfig (sampleEnv samplePool) "" twoCaptures.dutAddr (UInt32.ofNat pos) cap)
        next.ops.pool := by
  intro next
  obtain ⟨-, -, length, each⟩ := start_outcome (sampleEnv samplePool) {} twoCaptures {} 2048 rfl rfl
    (by decide) (fun _ => rfl) (fun path file opens => by
      obtain rfl := Except.ok.inj opens
      exact ⟨rfl, rfl⟩)
  have started : next.generationStarted = true := by decide +kernel
  exact ⟨length started, each⟩

end TrafficGenerator
