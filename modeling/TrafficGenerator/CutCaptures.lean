/-
This file is about captures that end in the middle of a record. Whatever the
loader accepts is a file header, complete records, and what is left when the
first read runs into the end of the file. The loader tells the end of the
capture by the end-of-file indicator alone, and a read that is cut short sets it
too: what is left need not be nothing.
-/

import TrafficGenerator.TcapRecords
import TrafficGenerator.StoredPackets
import TrafficGenerator.Replay

namespace TrafficGenerator

variable {env : Env} {ops ops' : Ops}

/-! ### Bytes as the numbers they hold -/

theorem hostBytes_hostNum (bytes : List UInt8) :
    hostBytes bytes.length (hostNum bytes) = bytes := by
  induction bytes with
  | nil => rfl
  | cons byte rest inductionHypothesis =>
    have small := byte.toNat_lt
    have low : UInt8.ofNat (byte.toNat + 256 * hostNum rest) = byte := by
      rw [← UInt8.toNat_inj, UInt8.toNat_ofNat']
      omega
    have high : (byte.toNat + 256 * hostNum rest) / 256 = hostNum rest := by omega
    rw [List.length_cons, hostNum, hostBytes, low, high, inductionHypothesis]

theorem hostNumAt_lt (bytes : List UInt8) (off size : ℕ) :
    hostNumAt bytes off size < 256 ^ size := by
  refine Nat.lt_of_lt_of_le (hostNum_lt _) (Nat.pow_le_pow_right (by decide) ?_)
  exact List.length_take_le _ _

/-- A field of a structure in a file is the bytes of its number. -/
theorem take_drop_eq_hostBytes {bytes : List UInt8} {off size : ℕ}
    (within : off + size ≤ bytes.length) :
    (bytes.drop off).take size = hostBytes size (hostNumAt bytes off size) := by
  have length : ((bytes.drop off).take size).length = size := by
    rw [List.length_take, List.length_drop]
    omega
  have whole := hostBytes_hostNum ((bytes.drop off).take size)
  rw [length] at whole
  exact whole.symm

/-- What is left from an offset on is the number there and what is left behind it. -/
theorem drop_eq_hostBytes {bytes : List UInt8} (off size : ℕ)
    (within : off + size ≤ bytes.length) :
    bytes.drop off = hostBytes size (hostNumAt bytes off size) ++ bytes.drop (off + size) := by
  rw [← take_drop_eq_hostBytes within, ← List.drop_drop, List.take_append_drop]

/-- A header that passes the check is one of version 2.4. -/
theorem validPcapHdr_bytes {data : List UInt8} (enough : pcapFileHdrSize ≤ data.length)
    (valid : validPcapHdr (data.take pcapFileHdrSize) = true) :
    ∃ hdr : PcapHdr, data = hdr.bytes ++ data.drop pcapFileHdrSize := by
  have size : pcapFileHdrSize = 24 := rfl
  rw [size] at enough valid
  rw [validPcapHdr, hostNumAt_take (by decide), hostNumAt_take (by decide),
    hostNumAt_take (by decide)] at valid
  simp only [Bool.and_eq_true, decide_eq_true_eq] at valid
  obtain ⟨⟨magic, major⟩, minor⟩ := valid
  have number : ∀ off, (UInt32.ofNat (hostNumAt data off 4)).toNat = hostNumAt data off 4 :=
    fun off => UInt32.toNat_ofNat_of_lt' (hostNumAt_lt data off 4)
  refine ⟨⟨.ofNat (hostNumAt data 8 4), .ofNat (hostNumAt data 12 4),
    .ofNat (hostNumAt data 16 4), .ofNat (hostNumAt data 20 4)⟩, ?_⟩
  rw [PcapHdr.bytes, number, number, number, number, ← magic, ← major, ← minor, size]
  simp only [List.append_assoc]
  rw [← drop_eq_hostBytes _ 4 (by omega), ← drop_eq_hostBytes _ 4 (by omega),
    ← drop_eq_hostBytes _ 4 (by omega), ← drop_eq_hostBytes _ 4 (by omega),
    ← drop_eq_hostBytes _ 2 (by omega), ← drop_eq_hostBytes _ 2 (by omega)]
  exact drop_eq_hostBytes 0 4 (by omega)

/-- `Record::tstamp`, in microseconds. -/
def Record.tstamp (record : Record) : ℕ := record.sec.toNat * 1000000 + record.usec.toNat

/-- Its length is a number of 32 bits. -/
def Record.Fits (record : Record) : Prop := record.payload.length < 2 ^ 32

/-- What a successful call has read is a complete record. -/
theorem PktLoaded.record {pkt : TcapPkt} {file file' : File}
    (loaded : PktLoaded env pkt ops ops' file file') :
    ∃ record : Record, record.Fits ∧ pkt.tstamp = record.tstamp ∧
      file.data = record.bytes ++ file'.data := by
  have size : pcapPktHdrSize = 16 := rfl
  have within := loaded.within
  have payload : ((file.data.drop 16).take (hostNumAt file.data 8 4)).length =
      hostNumAt file.data 8 4 := by
    rw [List.length_take, List.length_drop]
    omega
  have number : ∀ off, (UInt32.ofNat (hostNumAt file.data off 4)).toNat =
      hostNumAt file.data off 4 :=
    fun off => UInt32.toNat_ofNat_of_lt' (hostNumAt_lt file.data off 4)
  refine ⟨⟨.ofNat (hostNumAt file.data 0 4), .ofNat (hostNumAt file.data 4 4),
    (file.data.drop 16).take (hostNumAt file.data 8 4)⟩, ?_, ?_, ?_⟩
  · rw [Record.Fits, payload]
    exact hostNumAt_lt file.data 8 4
  · rw [Record.tstamp, number, number]
    exact loaded.tstamp
  · have caplen : hostBytes 4 (hostNumAt file.data 8 4) =
        hostBytes 4 (hostNumAt file.data 12 4) := by rw [loaded.lengths]
    have rest : (file.data.drop 16).take (hostNumAt file.data 8 4) ++ file'.data =
        file.data.drop 16 := by
      rw [loaded.rest, size, ← List.drop_drop, List.take_append_drop]
    rw [Record.bytes, number, number, payload]
    simp only [List.append_assoc]
    rw [rest]
    nth_rewrite 2 [caplen]
    rw [← drop_eq_hostBytes _ 4 (by omega), ← drop_eq_hostBytes _ 4 (by omega),
      ← drop_eq_hostBytes _ 4 (by omega)]
    exact drop_eq_hostBytes 0 4 (by omega)

/-! ### Parts of a record -/

/-- Part of a record and nothing behind it: not even its header, or a header that promises more
than there is. -/
def IncompleteRecord (data : List UInt8) : Prop :=
  data ≠ [] ∧ (data.length < pcapPktHdrSize ∨ hostNumAt data 8 4 = hostNumAt data 12 4 ∧
    data.length < pcapPktHdrSize + hostNumAt data 8 4)

theorem Record.bytes_length (record : Record) :
    record.bytes.length = pcapPktHdrSize + record.payload.length := by
  simp only [bytes, List.length_append, hostBytes_length, pcapPktHdrSize]
  omega

/-- A complete record is not a part of one. -/
theorem IncompleteRecord.ne_record {record : Record} {data rest : List UInt8}
    (incomplete : IncompleteRecord data) (fits : record.Fits) : data ≠ record.bytes ++ rest := by
  rintro rfl
  have ahead := record.ahead rest fits
  have enough := ahead.length
  obtain ⟨-, header | ⟨-, payload⟩⟩ := incomplete
  · omega
  · rw [ahead.caplen] at payload
    omega

/-- Bytes have at most one complete record at their beginning. -/
theorem Record.bytes_inj {first second : Record} {rest rest' : List UInt8}
    (firstFits : first.Fits) (secondFits : second.Fits)
    (same : first.bytes ++ rest = second.bytes ++ rest') :
    first.bytes = second.bytes ∧ rest = rest' := by
  have lengths : first.payload.length = second.payload.length := by
    rw [← (first.ahead rest firstFits).caplen, same, (second.ahead rest' secondFits).caplen]
  refine List.append_inj same ?_
  rw [first.bytes_length, second.bytes_length, lengths]

theorem Record.bytes_ne_nil (record : Record) (rest : List UInt8) : record.bytes ++ rest ≠ [] := by
  intro none
  have length := congrArg List.length none
  rw [List.length_append, record.bytes_length, pcapPktHdrSize] at length
  exact absurd length (by simp)

/-- Nothing, or part of a record, does not begin with a complete one. -/
theorem ne_record_of_ends {record : Record} {tail rest : List UInt8} (fits : record.Fits)
    (ends : tail = [] ∨ IncompleteRecord tail) : tail ≠ record.bytes ++ rest := by
  rcases ends with rfl | incomplete
  · exact (record.bytes_ne_nil rest).symm
  · exact incomplete.ne_record fits

/-- Bytes are complete records and a rest that is not one in at most one way. -/
theorem records_inj {records others : List Record} {tail otherTail : List UInt8}
    (fits : ∀ record ∈ records, record.Fits) (othersFit : ∀ record ∈ others, record.Fits)
    (ends : tail = [] ∨ IncompleteRecord tail) (otherEnds : otherTail = [] ∨
      IncompleteRecord otherTail)
    (same : records.flatMap Record.bytes ++ tail = others.flatMap Record.bytes ++ otherTail) :
    records.map Record.bytes = others.map Record.bytes ∧ tail = otherTail := by
  induction records generalizing others with
  | nil =>
    cases others with
    | nil => exact ⟨rfl, same⟩
    | cons other more =>
      rw [List.flatMap_cons, List.append_assoc] at same
      exact absurd same (ne_record_of_ends (othersFit other List.mem_cons_self) ends)
  | cons record rest inductionHypothesis =>
    rw [List.flatMap_cons, List.append_assoc] at same
    cases others with
    | nil =>
      exact absurd same.symm (ne_record_of_ends (fits record List.mem_cons_self) otherEnds)
    | cons other more =>
      rw [List.flatMap_cons, List.append_assoc] at same
      obtain ⟨first, later⟩ := Record.bytes_inj (fits record List.mem_cons_self)
        (othersFit other List.mem_cons_self) same
      obtain ⟨rests, tails⟩ := inductionHypothesis
        (fun other member => fits other (List.mem_cons_of_mem _ member))
        (fun record member => othersFit record (List.mem_cons_of_mem _ member)) later
      exact ⟨by rw [List.map_cons, List.map_cons, first, rests], tails⟩

/-! ### How a read reaches the end of the file -/

/-- What a call that sets the end-of-file indicator has found: fewer bytes than it needs, and no
other failure. -/
def RunsOut (needed : ℕ) (file : File) : Prop := file.failure = none ∧ file.data.length < needed

theorem fread_some_eof {size : ℕ} {file file' : File} {bytes : List UInt8}
    (read : fread size file = (some bytes, file')) :
    file'.eof = file.eof ∧ file'.failure = file.failure ∧
      file.data.length = size + file'.data.length := by
  obtain ⟨-, within, -, rfl⟩ := fread_ok.mp read
  refine ⟨rfl, rfl, ?_⟩
  rw [List.length_drop]
  omega

theorem fread_none_eof {size : ℕ} {file file' : File} (clear : file.eof = false)
    (read : fread size file = (none, file')) (atEnd : file'.eof = true) : RunsOut size file := by
  rw [fread] at read
  split at read
  · obtain rfl := (Prod.mk.inj read).2
    exact absurd (clear.symm.trans atEnd) Bool.false_ne_true
  · split at read
    · exact absurd (Prod.mk.inj read).1 (by simp)
    · next short =>
      split at read
      · next ends => exact ⟨ends, Nat.lt_of_not_le short⟩
      · obtain rfl := (Prod.mk.inj read).2
        exact absurd (clear.symm.trans atEnd) Bool.false_ne_true

/-- A read of a part of what is needed. -/
theorem RunsOut.of_part {needed len : ℕ} {file : File} (part : len ≤ needed)
    (runsOut : RunsOut len file) : RunsOut needed file :=
  ⟨runsOut.1, Nat.lt_of_lt_of_le runsOut.2 part⟩

theorem RunsOut.after_read {needed len : ℕ} {file file' : File} {bytes : List UInt8}
    (part : len ≤ needed) (read : fread len file = (some bytes, file'))
    (runsOut : RunsOut (needed - len) file') : RunsOut needed file := by
  obtain ⟨-, failure, length⟩ := fread_some_eof read
  have left := runsOut.2
  exact ⟨failure.symm.trans runsOut.1, by omega⟩

/-- The loop of `load_pkt` ends at the end of the file in one of its reads only. -/
theorem loadSegments_eof {head : MbufId} {fuel left : ℕ} {prev : Option MbufId}
    {file file' : File} {code : Errno} (clear : file.eof = false)
    (run : loadSegments env head fuel left prev ops file = (some code, ops', file'))
    (atEnd : file'.eof = true) : RunsOut left file := by
  induction fuel generalizing left prev ops file with
  | zero => exact absurd (Prod.mk.inj run).1 (by simp)
  | succ fuel inductionHypothesis =>
    rw [loadSegments] at run
    split at run
    · exact absurd (Prod.mk.inj run).1 (by simp)
    · cases prev with
      | none =>
        dsimp only at run
        split at run
        · next read =>
          obtain ⟨-, -, rfl⟩ := run
          exact (fread_none_eof clear read atEnd).of_part (Nat.min_le_left _ _)
        · next read =>
          exact (inductionHypothesis ((fread_some_eof read).1.trans clear) run).after_read
            (Nat.min_le_left _ _) read
      | some prev =>
        dsimp only at run
        split at run
        · obtain ⟨-, -, rfl⟩ := run
          exact absurd (clear.symm.trans atEnd) Bool.false_ne_true
        · split at run
          · next read =>
            obtain ⟨-, -, rfl⟩ := run
            exact (fread_none_eof clear read atEnd).of_part (Nat.min_le_left _ _)
          · next read =>
            exact (inductionHypothesis ((fread_some_eof read).1.trans clear) run).after_read
              (Nat.min_le_left _ _) read

/-- A call that fails at the end of the file has found nothing, or part of a record. -/
theorem loadPkt_eof {file file' : File} {code : Errno} (clear : file.eof = false)
    (run : loadPkt env ops file = (.error code, ops', file')) (atEnd : file'.eof = true) :
    file.failure = none ∧ (file.data = [] ∨ IncompleteRecord file.data) := by
  have part : ∀ {needed : ℕ}, RunsOut needed file → (file.data ≠ [] →
      file.data.length < pcapPktHdrSize ∨ hostNumAt file.data 8 4 = hostNumAt file.data 12 4 ∧
        file.data.length < pcapPktHdrSize + hostNumAt file.data 8 4) →
      file.failure = none ∧ (file.data = [] ∨ IncompleteRecord file.data) :=
    fun runsOut short => ⟨runsOut.1, (eq_or_ne file.data []).imp_right
      fun some => ⟨some, short some⟩⟩
  rw [loadPkt] at run
  split at run
  · next read =>
    obtain ⟨-, -, rfl⟩ := run
    have runsOut := fread_none_eof clear read atEnd
    exact part runsOut fun _ => Or.inl runsOut.2
  · next hdr rest read =>
    have after := fread_some_eof read
    have clearRest := after.1.trans clear
    obtain ⟨-, within, rfl, rfl⟩ := fread_ok.mp read
    dsimp only at run
    rw [hostNumAt_take (by decide), hostNumAt_take (by decide)] at run
    split at run
    · obtain ⟨-, -, rfl⟩ := run
      exact absurd (clearRest.symm.trans atEnd) Bool.false_ne_true
    · next lengths =>
      split at run
      · obtain ⟨-, -, rfl⟩ := run
        exact absurd (clearRest.symm.trans atEnd) Bool.false_ne_true
      · split at run
        · next segments =>
          obtain ⟨-, -, rfl⟩ := run
          have runsOut := loadSegments_eof clearRest segments atEnd
          have total : RunsOut (pcapPktHdrSize + hostNumAt file.data 8 4) file :=
            RunsOut.after_read (Nat.le_add_right _ _) read
              (by rwa [Nat.add_sub_cancel_left])
          exact part total fun _ => Or.inr ⟨not_not.mp lengths, total.2⟩
        · exact absurd (Prod.mk.inj run).1 (by simp)

/-! ### What the loop accepts -/

/-- A capture: a file header, complete records, and nothing or part of a record behind them. -/
structure CaptureOf (data : List UInt8) (hdr : PcapHdr) (records : List Record)
    (tail : List UInt8) : Prop where
  contents : data = hdr.bytes ++ (records.flatMap Record.bytes ++ tail)
  fits : ∀ record ∈ records, record.Fits
  ends : tail = [] ∨ IncompleteRecord tail

/-- A capture has one list of records. -/
theorem CaptureOf.inj {data tail otherTail : List UInt8} {hdr other : PcapHdr}
    {records others : List Record} (capture : CaptureOf data hdr records tail)
    (again : CaptureOf data other others otherTail) :
    records.map Record.bytes = others.map Record.bytes ∧ tail = otherTail := by
  have same := capture.contents.symm.trans again.contents
  have rest := (List.append_inj same (by rw [hdr.bytes_length, other.bytes_length])).2
  exact records_inj capture.fits again.fits capture.ends again.ends rest

/-- The time stamp is in the bytes of the record. -/
theorem Record.tstamp_of_bytes {first second : Record} (firstFits : first.Fits)
    (secondFits : second.Fits) (same : first.bytes = second.bytes) :
    first.tstamp = second.tstamp := by
  have ahead := first.ahead [] firstFits
  have other := second.ahead [] secondFits
  rw [← same] at other
  rw [Record.tstamp, Record.tstamp, ← ahead.sec, ← ahead.usec, other.sec, other.usec]

/-- And one list of time stamps. -/
theorem CaptureOf.tstamps_unique {data tail otherTail : List UInt8} {hdr other : PcapHdr}
    {records others : List Record} (capture : CaptureOf data hdr records tail)
    (again : CaptureOf data other others otherTail) :
    records.map Record.tstamp = others.map Record.tstamp := by
  have same := (capture.inj again).1
  have lengths : records.length = others.length := by
    rw [← List.length_map (f := Record.bytes), same, List.length_map]
  refine List.ext_getElem (by rw [List.length_map, List.length_map, lengths]) fun pos low high => ?_
  rw [List.length_map] at low high
  rw [List.getElem_map, List.getElem_map]
  refine Record.tstamp_of_bytes (capture.fits _ (List.getElem_mem low))
    (again.fits _ (List.getElem_mem high)) ?_
  have bytes := List.getElem_of_eq same (by rwa [List.length_map])
  rwa [List.getElem_map, List.getElem_map] at bytes

/-- The loop that ends without an error has loaded the complete records in front of that. -/
theorem loadLoop_accepts {cfg : FlowsGeneratorConfig} {fuel : ℕ} {load load' : LoadState}
    {file : File} {ops : Ops} (clear : file.eof = false) (enough : file.data.length < fuel)
    (run : loadLoop env cfg fuel load ops file = (load', none, ops')) :
    ∃ (records : List Record) (tail : List UInt8), (∀ record ∈ records, record.Fits) ∧
      (tail = [] ∨ IncompleteRecord tail) ∧ file.data = records.flatMap Record.bytes ++ tail ∧
      ∃ pkts : List TcapPkt, pkts.map TcapPkt.tstamp = records.map Record.tstamp ∧
        load' = pkts.foldl (fun load pk => addPkt env.hz cfg.interPktsGap pk load) load := by
  induction fuel generalizing load ops file with
  | zero => exact absurd enough (Nat.not_lt_zero _)
  | succ fuel inductionHypothesis =>
    rw [loadLoop] at run
    split at run
    · next failed =>
      split at run
      · next atEnd =>
        obtain ⟨rfl, -, -⟩ := run
        exact ⟨[], file.data, fun _ member => absurd member List.not_mem_nil,
          (loadPkt_eof clear failed atEnd).2, rfl, [], rfl, rfl⟩
      · exact absurd (Prod.mk.inj (Prod.mk.inj run).2).1 (by simp)
    · next pk middle rest loaded =>
      have held := loadPkt_holds loaded
      obtain ⟨record, recordFits, tstamp, data⟩ := held.record
      have clearRest : rest.eof = false := by rw [held.rest, clear]
      have shorter := congrArg List.length data
      rw [List.length_append, record.bytes_length, pcapPktHdrSize] at shorter
      obtain ⟨records, tail, fits, ends, contents, pkts, tstamps, folded⟩ :=
        inductionHypothesis clearRest (by omega) run
      refine ⟨record :: records, tail, ?_, ends, ?_, pk :: pkts, ?_, folded⟩
      · intro other member
        rcases List.mem_cons.mp member with rfl | among
        · exact recordFits
        · exact fits other among
      · rw [data, contents, List.flatMap_cons, List.append_assoc]
      · rw [List.map_cons, List.map_cons, tstamp, tstamps]

/-- The locals of `load_pkts` before the loop. -/
def LoadState.start (cfg : FlowsGeneratorConfig) : LoadState where
  ret := []
  ipgTstamp := cfg.interPktsGap.map fun _ => 0
  prevTstamp := none

/-- The packet loading loop of `load_pkts` ends without an error. -/
def LoadsAll (env : Env) (cfg : FlowsGeneratorConfig) (ops : Ops) (load : LoadState) : Prop :=
  ∃ file ops', openTcap env cfg.capFpath = .ok file ∧
    loadLoop env cfg (file.data.length + 1) (.start cfg) ops file = (load, none, ops')

theorem openTcap_eq_ok {path : String} {file rest : File} (opens : env.fopen path = .ok file)
    (opened : openTcap env path = .ok rest) :
    rest.eof = file.eof ∧ ∃ hdr : PcapHdr, file.data = hdr.bytes ++ rest.data := by
  rw [openTcap, opens] at opened
  dsimp only at opened
  split at opened
  · exact absurd opened (by simp)
  · next read =>
    have after := fread_some_eof read
    obtain ⟨-, enough, rfl, rfl⟩ := fread_ok.mp read
    split at opened
    · next valid =>
      obtain rfl := Except.ok.inj opened
      exact ⟨after.1, validPcapHdr_bytes enough valid⟩
    · exact absurd opened (by simp)

/-- What the loop accepts is a capture, and one packet is loaded for every record. -/
theorem LoadsAll.capture {cfg : FlowsGeneratorConfig} {file : File} {load : LoadState}
    (opens : env.fopen cfg.capFpath = .ok file) (clear : file.eof = false)
    (loads : LoadsAll env cfg ops load) :
    ∃ hdr records tail, CaptureOf file.data hdr records tail ∧
      ∃ pkts : List TcapPkt, pkts.map TcapPkt.tstamp = records.map Record.tstamp ∧
        load = pkts.foldl (fun load pk => addPkt env.hz cfg.interPktsGap pk load)
          (.start cfg) := by
  obtain ⟨rest, ops', opened, run⟩ := loads
  obtain ⟨clearRest, hdr, header⟩ := openTcap_eq_ok opens opened
  obtain ⟨records, tail, fits, ends, contents, loaded⟩ :=
    loadLoop_accepts (clearRest.trans clear) (Nat.lt_succ_self _) run
  exact ⟨hdr, records, tail, ⟨by rw [header, contents], fits, ends⟩, loaded⟩

/-! ### With buffers for everything the end of the file is always reached -/

theorem fread_short {size : ℕ} {file : File} (runsOut : RunsOut size file) :
    fread size file = (none, { file with data := [], eof := true }) := by
  have some := Nat.zero_lt_of_lt runsOut.2
  rw [fread, if_neg (Nat.ne_of_gt some), if_neg (Nat.not_le_of_lt runsOut.2), runsOut.1]

theorem loadSegments_cut {capacity : UInt16} (grants : env.Grants capacity)
    (positive : 0 < capacity.toNat) {head : MbufId} {fuel left : ℕ} (prev : Option MbufId)
    {file : File} (room : prev = none → (ops.pool.mbufs head).tailroom = capacity)
    (enough : left ≤ fuel) (runsOut : RunsOut left file) :
    ∃ code ops' file', loadSegments env head fuel left prev ops file =
      (some code, ops', file') ∧ file'.eof = true := by
  induction fuel generalizing left prev ops file with
  | zero => exact absurd runsOut.2 (by omega)
  | succ fuel inductionHypothesis =>
    obtain ⟨noFailure, short⟩ := runsOut
    rw [loadSegments, if_neg (Nat.ne_of_gt (Nat.zero_lt_of_lt short))]
    -- The round reads what its buffer has room for, or runs into the end of the file.
    have reads : (∃ bytes, fread (min left capacity.toNat) file =
          (some bytes, { file with data := file.data.drop (min left capacity.toNat) }) ∧
          RunsOut (left - min left capacity.toNat)
            { file with data := file.data.drop (min left capacity.toNat) }) ∨
        ∃ file', fread (min left capacity.toNat) file = (none, file') ∧ file'.eof = true := by
      by_cases fits : min left capacity.toNat ≤ file.data.length
      · refine Or.inl ⟨_, fread_ok.mpr ⟨by omega, fits, rfl, rfl⟩, noFailure, ?_⟩
        rw [List.length_drop]
        omega
      · exact Or.inr ⟨_, fread_short ⟨noFailure, Nat.lt_of_not_le fits⟩, rfl⟩
    have next (curr : MbufId) (after : Ops) {file : File}
        (rest : RunsOut (left - min left capacity.toNat) file) :
        ∃ code ops' file', loadSegments env head fuel (left - min left capacity.toNat) (some curr)
          after file = (some code, ops', file') ∧ file'.eof = true :=
      inductionHypothesis _ (fun none => absurd none (Option.some_ne_none curr)) (by omega) rest
    cases prev with
    | none =>
      dsimp only
      rw [room rfl]
      rcases reads with ⟨bytes, read, rest⟩ | ⟨file', read, eof⟩
      · rw [read]
        exact next _ _ rest
      · rw [read]
        exact ⟨_, _, _, rfl, eof⟩
    | some prev =>
      obtain ⟨curr, middle, granted, tailroom⟩ := grants.allocMbuf ops
      dsimp only
      rw [granted]
      dsimp only
      rw [(linkSegment_mbufs head prev curr middle).tailroom, tailroom]
      rcases reads with ⟨bytes, read, rest⟩ | ⟨file', read, eof⟩
      · rw [read]
        exact next _ _ rest
      · rw [read]
        exact ⟨_, _, _, rfl, eof⟩

/-- A part of a record is taken for the end of the capture. -/
theorem loadPkt_incomplete {capacity : UInt16} (grants : env.Grants capacity)
    (positive : 0 < capacity.toNat) {file : File} (noFailure : file.failure = none)
    (incomplete : IncompleteRecord file.data) :
    ∃ code ops' file', loadPkt env ops file = (.error code, ops', file') ∧ file'.eof = true := by
  rw [loadPkt]
  by_cases header : pcapPktHdrSize ≤ file.data.length
  · obtain ⟨-, short | ⟨lengths, short⟩⟩ := incomplete
    · exact absurd header (Nat.not_le_of_lt short)
    · have read : fread pcapPktHdrSize file = (some (file.data.take pcapPktHdrSize),
          { file with data := file.data.drop pcapPktHdrSize }) :=
        fread_ok.mpr ⟨by decide, header, rfl, rfl⟩
      obtain ⟨head, middle, granted, tailroom⟩ := grants.allocMbuf ops
      have runsOut : RunsOut (hostNumAt file.data 8 4)
          { file with data := file.data.drop pcapPktHdrSize } := by
        refine ⟨noFailure, ?_⟩
        rw [List.length_drop]
        omega
      obtain ⟨code, ops', file', segments, atEnd⟩ := loadSegments_cut grants positive
        none (fun _ => tailroom) (Nat.le_refl _) runsOut
      rw [read]
      dsimp only
      rw [hostNumAt_take (by decide), hostNumAt_take (by decide), if_neg (not_not_intro lengths),
        granted]
      dsimp only
      rw [segments]
      exact ⟨code, _, _, rfl, atEnd⟩
  · rw [fread_short ⟨noFailure, Nat.lt_of_not_le header⟩]
    exact ⟨_, _, _, rfl, rfl⟩

/-- The loop ends without an error, whatever is behind the complete records. -/
theorem loadLoop_ends (cfg : FlowsGeneratorConfig) {capacity : UInt16}
    (grants : env.Grants capacity) (positive : 0 < capacity.toNat) {records : List Record}
    {tail : List UInt8} {fuel : ℕ} (load : LoadState) (ops : Ops) {file : File}
    (contents : file.data = records.flatMap Record.bytes ++ tail)
    (fits : ∀ record ∈ records, record.Fits) (ends : tail = [] ∨ IncompleteRecord tail)
    (noFailure : file.failure = none) (enough : file.data.length < fuel) :
    ∃ load' ops', loadLoop env cfg fuel load ops file = (load', none, ops') := by
  induction records generalizing fuel load ops file with
  | nil =>
    obtain ⟨fuel, rfl⟩ := Nat.exists_eq_succ_of_ne_zero (Nat.ne_zero_of_lt enough)
    obtain ⟨code, ops', file', run, atEnd⟩ :
        ∃ code ops' file', loadPkt env ops file = (.error code, ops', file') ∧
          file'.eof = true := by
      rw [List.flatMap_nil, List.nil_append] at contents
      rcases ends with rfl | incomplete
      · exact ⟨_, _, _, loadPkt_atEnd contents noFailure, rfl⟩
      · exact loadPkt_incomplete grants positive noFailure (contents ▸ incomplete)
    rw [loadLoop, run]
    dsimp only
    rw [if_pos atEnd]
    exact ⟨_, _, rfl⟩
  | cons record rest inductionHypothesis =>
    obtain ⟨fuel, rfl⟩ := Nat.exists_eq_succ_of_ne_zero (Nat.ne_zero_of_lt enough)
    rw [List.flatMap_cons, List.append_assoc] at contents
    obtain ⟨pkt, middle, run⟩ := loadPkt_runs grants positive ops contents
      (fits record List.mem_cons_self)
    rw [loadLoop, run]
    refine inductionHypothesis _ _ rfl
      (fun other member => fits other (List.mem_cons_of_mem _ member))
      noFailure ?_
    have length := congrArg List.length contents
    rw [List.length_append, record.bytes_length, pcapPktHdrSize] at length
    show (rest.flatMap Record.bytes ++ tail).length < fuel
    omega

/-! ### Damaged captures -/

/-- A file header and complete records. -/
def WholeCapture (data : List UInt8) : Prop := ∃ hdr records, CaptureOf data hdr records []

/-- A file header, complete records, and part of one more. -/
def CutCapture (data : List UInt8) : Prop :=
  ∃ hdr records tail, CaptureOf data hdr records tail ∧ IncompleteRecord tail

theorem CutCapture.not_whole {data : List UInt8} (cut : CutCapture data) : ¬ WholeCapture data := by
  obtain ⟨hdr, records, tail, capture, incomplete⟩ := cut
  rintro ⟨other, others, whole⟩
  exact incomplete.1 (capture.inj whole).2

/-- Damaged files are refused: the loop ends without an error on complete records only, and a file
that is cut inside a record makes `load_pkts` throw. -/
def RefusesDamaged (data : List UInt8) : Prop :=
  ∀ (env : Env) (cfg : FlowsGeneratorConfig) (ops : Ops) (file : File),
    env.fopen cfg.capFpath = .ok file → file.data = data → file.eof = false →
      ((∃ load, LoadsAll env cfg ops load) → WholeCapture data) ∧
        (CutCapture data → ∃ thrown ops', loadPkts env cfg ops = (.error thrown, ops'))

/-- Every byte string is, except those that are cut inside a record. -/
theorem refusesDamaged_iff (data : List UInt8) : RefusesDamaged data ↔ ¬ CutCapture data := by
  constructor
  · intro refuses cut
    obtain ⟨hdr, records, tail, capture, incomplete⟩ := id cut
    have grants : (envOpening { data }).Grants 2048 := fun _ => rfl
    obtain ⟨load, ops', run⟩ := loadLoop_ends sampleGenCfg grants (by decide)
      (.start sampleGenCfg) {}
      (show File.data { data := records.flatMap Record.bytes ++ tail } = _ from rfl) capture.fits
      capture.ends rfl (Nat.lt_succ_self _)
    have loads : LoadsAll (envOpening { data }) sampleGenCfg {} load :=
      ⟨_, ops', openTcap_ok rfl capture.contents, run⟩
    obtain ⟨whole, -⟩ := refuses (envOpening { data }) sampleGenCfg {} _ rfl rfl rfl
    exact cut.not_whole (whole ⟨load, loads⟩)
  · rintro whole env cfg ops file opens rfl clear
    refine ⟨fun ⟨load, loads⟩ => ?_, fun cut => absurd cut whole⟩
    obtain ⟨hdr, records, tail, capture, -⟩ := loads.capture opens clear
    rcases capture.ends with rfl | incomplete
    · exact ⟨hdr, records, capture⟩
    · exact absurd ⟨hdr, records, tail, capture, incomplete⟩ whole

/-- The sample capture twice, cut inside the payload of the second record. -/
def cutFile : File where
  data := sampleFile.data ++ (Record.bytes ⟨1, 0, samplePacket⟩).take 40

/-- It has one complete record. -/
theorem cutFile_capture : CaptureOf cutFile.data ⟨0, 0, 65536, 1⟩ [⟨0, 0, samplePacket⟩]
    ((Record.bytes ⟨1, 0, samplePacket⟩).take 40) where
  contents := by decide
  fits := by
    intro record member
    rw [List.mem_singleton.mp member]
    exact (by decide : samplePacket.length < 2 ^ 32)
  ends := Or.inr ⟨by decide, Or.inr (by decide)⟩

/-- The packets before the cut are replayed. -/
theorem cutFile_accepted : CutCapture cutFile.data ∧
    (∃ pkts ops', loadPkts (envOpening cutFile) sampleGenCfg {} = (.ok pkts, ops') ∧
      pkts.length = 1) ∧
    ¬ RefusesDamaged cutFile.data := by
  have cut : CutCapture cutFile.data :=
    ⟨_, _, _, cutFile_capture, ⟨by decide, Or.inr (by decide)⟩⟩
  have one : (loadPkts (envOpening cutFile) sampleGenCfg {}).1.toOption.map List.length =
      some 1 := by
    decide +kernel
  cases run : loadPkts (envOpening cutFile) sampleGenCfg {} with
  | mk res ops' =>
    rw [run] at one
    cases res with
    | error thrown => exact absurd one (by simp [Except.toOption])
    | ok pkts =>
      refine ⟨cut, ⟨pkts, ops', rfl, Option.some.inj one⟩, fun refuses => ?_⟩
      obtain ⟨-, throws⟩ := refuses (envOpening cutFile) sampleGenCfg {} _ rfl rfl rfl
      obtain ⟨thrown, ops'', throws⟩ := throws cut
      exact absurd (Prod.mk.inj (run.symm.trans throws)).1 (by simp)

end TrafficGenerator
