/-
This file is about the captures the loader is made for: a file header of the
host's byte order and complete records behind it. Every call returns the next
record, in a chain of full buffers, and the call after the last one finds the
end of the file.
-/

import TrafficGenerator.GenManager
import TrafficGenerator.PacketContents

namespace TrafficGenerator

variable {env : Env} {ops ops' : Ops}

/-! ### Numbers in a file -/

/-- The bytes of a number in the byte order of the host, which is little endian. -/
def hostBytes : (size : ℕ) → ℕ → List UInt8
  | 0, _ => []
  | size + 1, num => UInt8.ofNat num :: hostBytes size (num / 256)

@[simp] theorem hostBytes_length (size num : ℕ) : (hostBytes size num).length = size := by
  induction size generalizing num with
  | zero => rfl
  | succ size inductionHypothesis => exact congrArg (· + 1) (inductionHypothesis _)

/-- A number that fits is read as it was written. -/
theorem hostNum_hostBytes {size num : ℕ} (fits : num < 256 ^ size) :
    hostNum (hostBytes size num) = num := by
  induction size generalizing num with
  | zero =>
    rw [Nat.pow_zero, Nat.lt_one_iff] at fits
    rw [fits]
    rfl
  | succ size inductionHypothesis =>
    have quotient : num / 256 < 256 ^ size := by
      refine Nat.div_lt_of_lt_mul ?_
      rwa [Nat.mul_comm, ← Nat.pow_succ]
    rw [hostBytes, hostNum, inductionHypothesis quotient, UInt8.toNat_ofNat']
    exact Nat.mod_add_div num 256

theorem hostNumAt_append {front back : List UInt8} {off size num : ℕ} (place : front.length = off)
    (fits : num < 256 ^ size) :
    hostNumAt (front ++ (hostBytes size num ++ back)) off size = num := by
  rw [hostNumAt, List.drop_left' place, List.take_left' (hostBytes_length size num),
    hostNum_hostBytes fits]

/-! ### The file -/

/-- What `load_pkt` does not look at in the file header. -/
structure PcapHdr where
  thiszone : UInt32
  sigfigs : UInt32
  snaplen : UInt32
  linktype : UInt32

/-- `pcap_file_header` of version 2.4. -/
def PcapHdr.bytes (hdr : PcapHdr) : List UInt8 :=
  hostBytes 4 pcapMagic ++ (hostBytes 2 pcapVersionMajor ++ (hostBytes 2 pcapVersionMinor ++
    (hostBytes 4 hdr.thiszone.toNat ++ (hostBytes 4 hdr.sigfigs.toNat ++
      (hostBytes 4 hdr.snaplen.toNat ++ hostBytes 4 hdr.linktype.toNat)))))

/-- A packet as it was captured. -/
structure Record where
  sec : UInt32
  usec : UInt32
  payload : List UInt8

/-- A record of a complete packet: its length is the captured length. -/
def Record.bytes (record : Record) : List UInt8 :=
  hostBytes 4 record.sec.toNat ++ (hostBytes 4 record.usec.toNat ++
    (hostBytes 4 record.payload.length ++ (hostBytes 4 record.payload.length ++ record.payload)))

theorem PcapHdr.bytes_length (hdr : PcapHdr) : hdr.bytes.length = pcapFileHdrSize := by
  simp only [bytes, List.length_append, hostBytes_length]
  rfl

/-- A file with a valid header is opened, at its first record. -/
theorem openTcap_ok {path : String} {file : File} {hdr : PcapHdr} {records : List UInt8}
    (opens : env.fopen path = .ok file) (contents : file.data = hdr.bytes ++ records) :
    openTcap env path = .ok { file with data := records } := by
  have read : fread pcapFileHdrSize file = (some hdr.bytes, { file with data := records }) := by
    refine fread_ok.mpr ⟨by decide, ?_, ?_, ?_⟩
    · rw [contents, List.length_append, hdr.bytes_length]
      exact Nat.le_add_right _ _
    · rw [contents, List.take_left' hdr.bytes_length]
    · rw [contents, List.drop_left' hdr.bytes_length]
  have magic : hostNumAt hdr.bytes 0 4 = pcapMagic :=
    hostNumAt_append (show ([] : List UInt8).length = 0 from rfl) (by decide)
  have major : hostNumAt hdr.bytes 4 2 = pcapVersionMajor :=
    hostNumAt_append (hostBytes_length 4 pcapMagic) (by decide)
  have minor : hostNumAt hdr.bytes 6 2 = pcapVersionMinor := by
    rw [PcapHdr.bytes, ← List.append_assoc]
    exact hostNumAt_append (by rw [List.length_append, hostBytes_length, hostBytes_length])
      (by decide)
  have valid : validPcapHdr hdr.bytes = true := by
    rw [validPcapHdr, magic, major, minor]
    rfl
  rw [openTcap, opens]
  dsimp only
  rw [read]
  dsimp only
  rw [if_pos valid]

/-- The fields of the record at the beginning of a file. -/
structure RecordAhead (record : Record) (rest data : List UInt8) : Prop where
  sec : hostNumAt data 0 4 = record.sec.toNat
  usec : hostNumAt data 4 4 = record.usec.toNat
  caplen : hostNumAt data 8 4 = record.payload.length
  len : hostNumAt data 12 4 = record.payload.length
  payload : data.drop pcapPktHdrSize = record.payload ++ rest
  length : pcapPktHdrSize + record.payload.length ≤ data.length

theorem Record.ahead (record : Record) (rest : List UInt8)
    (fits : record.payload.length < 2 ^ 32) :
    RecordAhead record rest (record.bytes ++ rest) := by
  have size : 2 ^ 32 = 256 ^ 4 := by decide
  have sec := record.sec.toNat_lt
  have usec := record.usec.toNat_lt
  rw [size] at fits sec usec
  have data : record.bytes ++ rest = hostBytes 4 record.sec.toNat ++
      (hostBytes 4 record.usec.toNat ++ (hostBytes 4 record.payload.length ++
        (hostBytes 4 record.payload.length ++ (record.payload ++ rest)))) := by
    simp only [bytes, List.append_assoc]
  have two : record.bytes ++ rest = hostBytes 4 record.sec.toNat ++ hostBytes 4 record.usec.toNat ++
      (hostBytes 4 record.payload.length ++
        (hostBytes 4 record.payload.length ++ (record.payload ++ rest))) := by
    rw [data, List.append_assoc]
  have three : record.bytes ++ rest = hostBytes 4 record.sec.toNat ++
      hostBytes 4 record.usec.toNat ++ hostBytes 4 record.payload.length ++
        (hostBytes 4 record.payload.length ++ (record.payload ++ rest)) := by
    rw [two, List.append_assoc _ (hostBytes 4 record.payload.length)]
  have four : record.bytes ++ rest = hostBytes 4 record.sec.toNat ++
      hostBytes 4 record.usec.toNat ++ hostBytes 4 record.payload.length ++
        hostBytes 4 record.payload.length ++ (record.payload ++ rest) := by
    rw [three, ← List.append_assoc _ (hostBytes 4 record.payload.length)]
  refine ⟨?_, ?_, ?_, ?_, ?_, ?_⟩
  · rw [data]
    exact hostNumAt_append (show ([] : List UInt8).length = 0 from rfl) sec
  · rw [data]
    exact hostNumAt_append (hostBytes_length _ _) usec
  · rw [two]
    exact hostNumAt_append (by simp) fits
  · rw [three]
    exact hostNumAt_append (by simp) fits
  · rw [four]
    exact List.drop_left' (by simp [pcapPktHdrSize])
  · rw [four]
    simp [pcapPktHdrSize]
    omega

/-! ### Loading one record -/

/-- Every allocation is granted a buffer of one capacity. -/
def Env.Grants (env : Env) (capacity : UInt16) : Prop :=
  ∀ id, env.answers.grant id = some capacity

theorem Env.Grants.allocMbuf {capacity : UInt16} (grants : env.Grants capacity) (ops : Ops) :
    ∃ mbuf ops', allocMbuf env ops = (some mbuf, ops') ∧
      (ops'.pool.mbufs mbuf).tailroom = capacity := by
  cases result : TrafficGenerator.allocMbuf env ops with
  | mk mbuf ops' =>
    cases mbuf with
    | none =>
      rcases allocMbuf_cases env ops with ⟨_, -, other⟩ | ⟨refused, -⟩
      · exact absurd (Prod.mk.inj (result.symm.trans other)).1 (by simp)
      · exact absurd ((grants _).symm.trans refused) (by simp)
    | some mbuf =>
      obtain ⟨tailroom, grant, granted, -⟩ := allocMbuf_granted result
      obtain rfl := Option.some.inj ((grants _).symm.trans grant)
      exact ⟨mbuf, ops', rfl, by rw [granted]⟩

/-- The loop ends well when all its bytes are in the file: each round reads at least one. -/
theorem loadSegments_succeeds {capacity : UInt16} (grants : env.Grants capacity)
    (positive : 0 < capacity.toNat) {head : MbufId} {fuel left : ℕ} {prev : Option MbufId}
    {file : File} (room : prev = none → (ops.pool.mbufs head).tailroom = capacity)
    (within : left ≤ file.data.length) :
    ∃ ops' file', loadSegments env head fuel left prev ops file = (none, ops', file') := by
  induction fuel generalizing left prev ops file with
  | zero => exact ⟨ops, file, rfl⟩
  | succ fuel inductionHypothesis =>
    rw [loadSegments]
    by_cases done : left = 0
    · rw [if_pos done]
      exact ⟨ops, file, rfl⟩
    · have read : fread (min left capacity.toNat) file =
          (some (file.data.take (min left capacity.toNat)),
            { file with data := file.data.drop (min left capacity.toNat) }) :=
        fread_ok.mpr ⟨by omega, by omega, rfl, rfl⟩
      have more : left - min left capacity.toNat ≤
          (file.data.drop (min left capacity.toNat)).length := by
        rw [List.length_drop]
        omega
      rw [if_neg done]
      cases prev with
      | none =>
        dsimp only
        rw [room rfl, read]
        exact inductionHypothesis (fun none => absurd none (by simp)) more
      | some prev =>
        obtain ⟨curr, middle, granted, tailroom⟩ := grants.allocMbuf ops
        dsimp only
        rw [granted]
        dsimp only
        rw [(linkSegment_mbufs head prev curr middle).tailroom, tailroom, read]
        exact inductionHypothesis (fun none => absurd none (by simp)) more

/-- The bytes of full segments. -/
theorem MbufPool.dataOf_length {pool : MbufPool} {segs : List MbufId} {size : ℕ}
    (full : ∀ id ∈ segs, (pool.mbufs id).data.length = size) :
    (pool.dataOf segs).length = segs.length * size := by
  induction segs with
  | nil => exact (Nat.zero_mul size).symm
  | cons id rest inductionHypothesis =>
    have rests := inductionHypothesis fun other member => full other (List.mem_cons_of_mem _ member)
    rw [dataOf, List.flatMap_cons, ← dataOf, List.length_append, full id List.mem_cons_self, rests,
      List.length_cons, Nat.succ_mul, Nat.add_comm]

/-- The packet that a record is loaded into, for buffers of a capacity: the time stamp, the bytes of
its chain, its length, which is also the sum of the segments' lengths, and the number of the
segments, all full but the last one. -/
structure RecordLoaded (capacity : UInt16) (record : Record) (pkt : TcapPkt) (pool : MbufPool) :
    Prop where
  tstamp : pkt.tstamp = record.sec.toNat * 10 ^ 6 + record.usec.toNat
  noOverflow : pkt.tstamp < 2 ^ 63
  bytes : pool.bytes pkt.mbuf = record.payload
  pktLen : (pool.mbufs pkt.mbuf).pktLen.toNat = record.payload.length
  dataLens : ((pool.chain pkt.mbuf).map fun id => (pool.mbufs id).data.length).sum =
    record.payload.length
  nbSegs : (pool.mbufs pkt.mbuf).nbSegs.toNat = (pool.chain pkt.mbuf).length
  full : ∀ id ∈ (pool.chain pkt.mbuf).dropLast, (pool.mbufs id).data.length = capacity.toNat

/-- A packet of at most 65535 full buffers has as many segments as its head can count. -/
theorem MbufPool.Holds.count_lt {pool : MbufPool} {capacity : UInt16}
    (grants : env.Grants capacity) {head : MbufId} {segs : List MbufId} {bytes : List UInt8}
    (holds : pool.Holds env.answers head segs bytes)
    (fits : bytes.length ≤ 65535 * capacity.toNat) : segs.length < 2 ^ 16 := by
  obtain ⟨front, last, rfl⟩ : ∃ front last, segs = front ++ [last] :=
    ⟨_, _, (List.dropLast_append_getLast (List.ne_nil_of_mem holds.packet.head_mem)).symm⟩
  have rooms : ∀ id ∈ front, (pool.mbufs id).data.length = capacity.toNat := by
    intro id member
    have grant := holds.room id (List.mem_append_left _ member)
    have full : pool.Full id := holds.full id (by rwa [List.dropLast_concat])
    rw [Option.some.inj ((grants id).symm.trans grant)]
    exact full
  have total : bytes.length = front.length * capacity.toNat + (pool.mbufs last).data.length := by
    rw [← holds.data, dataOf, List.flatMap_append, ← dataOf, List.length_append,
      dataOf_length rooms, List.flatMap_singleton]
  rw [List.length_append, List.length_singleton]
  cases front with
  | nil => decide
  | cons first more =>
    have some : 0 < (pool.mbufs last).data.length :=
      List.length_pos_iff.mpr (holds.nonempty last (by simp))
    have less : (first :: more).length * capacity.toNat < 65535 * capacity.toNat := by omega
    have below := Nat.lt_of_mul_lt_mul_right less
    omega

/-- A loaded packet keeps what the loop says about it. -/
theorem PktLoaded.recordLoaded {capacity : UInt16} (grants : env.Grants capacity) {record : Record}
    {rest : List UInt8} {pkt : TcapPkt} {file file' : File}
    (loaded : PktLoaded env pkt ops ops' file file') (ahead : RecordAhead record rest file.data)
    (fits : record.payload.length ≤ 65535 * capacity.toNat) :
    RecordLoaded capacity record pkt ops'.pool := by
  obtain ⟨segs, holds⟩ := loaded.holds
  have sec := record.sec.toNat_lt
  have usec := record.usec.toNat_lt
  have narrow := capacity.toNat_lt
  rw [ahead.payload, ahead.caplen, List.take_left' rfl] at holds
  have chain := holds.packet.chain_eq
  have count := holds.count_lt grants fits
  have tstamp := loaded.tstamp
  rw [ahead.sec, ahead.usec] at tstamp
  refine ⟨tstamp, by omega, ?_, ?_, ?_, ?_, fun id member => ?_⟩
  · rw [MbufPool.bytes, chain]
    exact holds.data
  · rw [holds.pktLen]
    exact UInt32.toNat_ofNat_of_lt' (show record.payload.length < 2 ^ 32 by omega)
  · rw [chain, ← List.length_flatMap]
    exact congrArg List.length holds.data
  · rw [holds.nbSegs, chain]
    exact UInt16.toNat_ofNat_of_lt' count
  · rw [chain] at member
    have grant := holds.room id (List.dropLast_subset _ member)
    have full : ops'.pool.Full id := holds.full id member
    rw [Option.some.inj ((grants id).symm.trans grant)]
    exact full

/-- The next record of a file is loaded, however long it is. -/
theorem loadPkt_runs {capacity : UInt16} (grants : env.Grants capacity)
    (positive : 0 < capacity.toNat) (ops : Ops) {record : Record} {rest : List UInt8} {file : File}
    (contents : file.data = record.bytes ++ rest) (fits : record.payload.length < 2 ^ 32) :
    ∃ pkt ops', loadPkt env ops file = (.ok pkt, ops', { file with data := rest }) := by
  have ahead : RecordAhead record rest file.data := by
    rw [contents]
    exact record.ahead rest fits
  have enough := ahead.length
  have header : fread pcapPktHdrSize file = (some (file.data.take pcapPktHdrSize),
      { file with data := file.data.drop pcapPktHdrSize }) :=
    fread_ok.mpr ⟨by decide, by omega, rfl, rfl⟩
  obtain ⟨head, middle, granted, tailroom⟩ := grants.allocMbuf ops
  have within : record.payload.length ≤ (file.data.drop pcapPktHdrSize).length := by
    rw [List.length_drop]
    omega
  obtain ⟨last, left, segments⟩ : ∃ ops' file', loadSegments env head record.payload.length
      record.payload.length none middle { file with data := file.data.drop pcapPktHdrSize } =
        (none, ops', file') := loadSegments_succeeds grants positive (fun _ => tailroom) within
  have run : loadPkt env ops file = (.ok {
      tstamp := record.sec.toNat * 1000000 + record.usec.toNat, mbuf := head }, last, left) := by
    rw [loadPkt, header]
    dsimp only
    rw [hostNumAt_take (by decide), hostNumAt_take (by decide), hostNumAt_take (by decide),
      hostNumAt_take (by decide), ahead.sec, ahead.usec, ahead.caplen, ahead.len,
      if_neg (not_not_intro rfl), granted]
    dsimp only
    rw [segments]
  have place := (loadPkt_holds run).rest
  rw [ahead.caplen, ← List.drop_drop, ahead.payload, List.drop_left' rfl] at place
  rw [place] at run
  exact ⟨_, last, run⟩

/-- The packet holds the record when its length leaves room to count the segments. -/
theorem loadPkt_record {capacity : UInt16} (grants : env.Grants capacity)
    (positive : 0 < capacity.toNat) {record : Record} {rest : List UInt8} {file : File}
    (contents : file.data = record.bytes ++ rest)
    (fits : record.payload.length ≤ 65535 * capacity.toNat) :
    ∃ pkt ops', loadPkt env ops file = (.ok pkt, ops', { file with data := rest }) ∧
      RecordLoaded capacity record pkt ops'.pool ∧
      ∀ id < ops.pool.attempts, ops'.pool.mbufs id = ops.pool.mbufs id := by
  have narrow := capacity.toNat_lt
  obtain ⟨pkt, ops', run⟩ := loadPkt_runs grants positive ops contents (by omega)
  have ahead : RecordAhead record rest file.data := by
    rw [contents]
    exact record.ahead rest (by omega)
  exact ⟨pkt, ops', run, (loadPkt_holds run).recordLoaded grants ahead fits,
    (loadPkt_writes run).mbufs⟩

/-- At the end of the file. -/
theorem loadPkt_atEnd {file : File} (empty : file.data = []) (noFailure : file.failure = none) :
    loadPkt env ops file = (.error file.errno, ops, { file with data := [], eof := true }) := by
  have short : ¬ pcapPktHdrSize ≤ file.data.length := by
    rw [empty]
    decide
  rw [loadPkt, fread, if_neg (by decide), if_neg short, noFailure]

/-! ### Loading the whole file -/

/-- The calls of `load_pkt` return the packets of the records one after the other, each beside the
packets of the calls before it, and then fail at the end of the file. -/
def LoadsRecords (env : Env) (capacity : UInt16) : List Record → Ops → File → Prop
  | [], ops, file => ∃ code ops' file', loadPkt env ops file = (.error code, ops', file') ∧
      file'.eof = true
  | record :: rest, ops, file => ∃ pkt ops' file',
      loadPkt env ops file = (.ok pkt, ops', file') ∧
      RecordLoaded capacity record pkt ops'.pool ∧
      (∀ id < ops.pool.attempts, ops'.pool.mbufs id = ops.pool.mbufs id) ∧
      LoadsRecords env capacity rest ops' file'

theorem loadsRecords {capacity : UInt16} (grants : env.Grants capacity)
    (positive : 0 < capacity.toNat) {records : List Record} {file : File}
    (contents : file.data = records.flatMap Record.bytes) (noFailure : file.failure = none)
    (fits : ∀ record ∈ records, record.payload.length ≤ 65535 * capacity.toNat) :
    LoadsRecords env capacity records ops file := by
  induction records generalizing ops file with
  | nil => exact ⟨_, _, _, loadPkt_atEnd contents noFailure, rfl⟩
  | cons record rest inductionHypothesis =>
    obtain ⟨pkt, ops', run, loaded, older⟩ := loadPkt_record grants positive contents
      (fits record List.mem_cons_self)
    exact ⟨pkt, ops', _, run, loaded, older, inductionHypothesis rfl noFailure
      fun other member => fits other (List.mem_cons_of_mem _ member)⟩

/-- Loading a well-formed capture returns exactly its records, whatever was allocated before. -/
theorem tcap_returns_records (env : Env) (path : String) (hdr : PcapHdr) (records : List Record)
    (capacity : UInt16) (ops : Ops) {file : File} (opens : env.fopen path = .ok file)
    (contents : file.data = hdr.bytes ++ records.flatMap Record.bytes)
    (noFailure : file.failure = none) (positive : 1 ≤ capacity.toNat)
    (grants : env.Grants capacity)
    (fits : ∀ record ∈ records, record.payload.length ≤ 65535 * capacity.toNat) :
    ∃ file', openTcap env path = .ok file' ∧ LoadsRecords env capacity records ops file' :=
  ⟨_, openTcap_ok opens contents, loadsRecords grants positive rfl noFailure fits⟩

/-- The sample environment where every path names one file. -/
def envOpening (file : File) : Env := { sampleEnv samplePool with fopen := fun _ => .ok file }

/-- A file with some records. -/
def captureFile (records : List Record) : File where
  data := PcapHdr.bytes ⟨0, 0, 65536, 1⟩ ++ (records.flatMap Record.bytes ++ [])

/-- Three records, over buffers of twenty bytes: one that takes two of them, an empty one, and one
that fills its only one. -/
theorem tcap_returns_records_sample :
    let records : List Record := [⟨0, 0, samplePacket⟩, ⟨1, 500000, []⟩,
      ⟨2, 0, samplePacket.take 20⟩]
    let env : Env := { envOpening (captureFile records) with
      answers := { samplePool with grant := fun _ => some 20 } }
    ∃ file', openTcap env "sample.pcap" = .ok file' ∧ LoadsRecords env 20 records {} file' :=
  tcap_returns_records _ "sample.pcap" ⟨0, 0, 65536, 1⟩ _ 20 {} rfl
    (congrArg (PcapHdr.bytes _ ++ ·) (List.append_nil _)) rfl (by decide) (fun _ => rfl) (by decide)

end TrafficGenerator
