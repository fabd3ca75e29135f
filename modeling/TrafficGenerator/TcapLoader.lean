/-
This file models `gen/priv/tcap_loader.cpp`: opening a capture and loading its
packets one by one, each into a chain of buffers.
-/

import TrafficGenerator.GenerationOps

namespace TrafficGenerator

variable (env : Env)

/-! ### The texts of `put/throw.h` -/

/-- What an exception of the generator says. -/
inductive Thrown where
  | runtimeError (text : String)
  | systemError (code : Errno) (text : String)
deriving DecidableEq

/-- `what()`. -/
def Thrown.what (thrown : Thrown) : String :=
  match thrown with
  | .runtimeError text => text
  | .systemError code text => env.texts.systemError code text

/-! ### Opening -/

/-- `sizeof(pcap_file_header)`. -/
def pcapFileHdrSize : ℕ := 24

/-- `pcap_magic`. -/
def pcapMagic : ℕ := 0xA1B2C3D4

/-- `PCAP_VERSION_MAJOR`. -/
def pcapVersionMajor : ℕ := 2

/-- `PCAP_VERSION_MINOR`. -/
def pcapVersionMinor : ℕ := 4

/-- The check of the file header: `magic`, `version_major` and `version_minor`. -/
def validPcapHdr (hdr : List UInt8) : Bool :=
  hostNumAt hdr 0 4 = pcapMagic && hostNumAt hdr 4 2 = pcapVersionMajor &&
    hostNumAt hdr 6 2 = pcapVersionMinor

/-- The constructor of `tcap_loader`. -/
def openTcap (path : String) : Except Thrown File :=
  match env.fopen path with
  | .error code =>
    .error (.systemError code s!"Failed to open PCAP file: {env.texts.path path}")
  | .ok file =>
    match fread pcapFileHdrSize file with
    | (none, file) => .error (.systemError file.errno
        s!"Failed to read PCAP file header from: {env.texts.path path}")
    | (some hdr, file) =>
      if validPcapHdr hdr then .ok file
      else .error (.runtimeError
        s!"Read invalid PCAP file header from: {env.texts.path path}")

/-! ### Loading one packet -/

/-- `tcap_loader::pkt`; the time stamp is in microseconds. -/
structure TcapPkt where
  tstamp : ℕ
  mbuf : MbufId

/-- The size of the record header: four 32-bit numbers. -/
def pcapPktHdrSize : ℕ := 16

/-- `prev->next = curr; head->nb_segs++`. -/
def linkSegment (head prev curr : MbufId) (ops : Ops) : Ops :=
  let pool := ops.pool.modify prev fun mbuf => { mbuf with next := some curr }
  { ops with pool := pool.modify head fun mbuf => { mbuf with nbSegs := mbuf.nbSegs + 1 } }

/-- The bytes arrive in `curr`; `curr->data_len = len; head->pkt_len += len`. -/
def fillSegment (head curr : MbufId) (bytes : List UInt8) (ops : Ops) : Ops :=
  let pool := ops.pool.modify curr fun mbuf => { mbuf with data := bytes }
  { ops with pool := pool.modify head fun mbuf =>
      { mbuf with pktLen := mbuf.pktLen + UInt32.ofNat bytes.length } }

/-- The loop of `load_pkt`, with `left = hdr.caplen - rdlen`. Every round reads at least one
byte, so `fuel = hdr.caplen` rounds are enough. -/
def loadSegments (head : MbufId) :
    (fuel left : ℕ) → (prev : Option MbufId) → Ops → File → Option Errno × Ops × File
  | 0, _, _, ops, file => (none, ops, file)
  | fuel + 1, left, prev, ops, file =>
    if left = 0 then (none, ops, file)
    else
      let read (curr : MbufId) (ops : Ops) : Option Errno × Ops × File :=
        let len := min left (ops.pool.mbufs curr).tailroom.toNat
        match fread len file with
        | (none, file) => (some file.errno, ops, file)
        | (some bytes, file) =>
          loadSegments head fuel (left - len) (some curr) (fillSegment head curr bytes ops) file
      match prev with
      | none => read head ops
      | some prev =>
        match allocMbuf env ops with
        | (none, ops) => (some enomem, ops, file)
        | (some curr, ops) => read curr (linkSegment head prev curr ops)

/-- `tcap_loader::load_pkt`: on a failure in the middle of a packet the exit guard frees the
part that was loaded. -/
def loadPkt (ops : Ops) (file : File) : Except Errno TcapPkt × Ops × File :=
  match fread pcapPktHdrSize file with
  | (none, file) => (.error file.errno, ops, file)
  | (some hdr, file) =>
    let caplen := hostNumAt hdr 8 4
    if caplen ≠ hostNumAt hdr 12 4 then (.error einval, ops, file)
    else
      match allocMbuf env ops with
      | (none, ops) => (.error enomem, ops, file)
      | (some head, ops) =>
        match loadSegments env head caplen caplen none ops file with
        | (some code, ops, file) => (.error code, freePkt head ops, file)
        | (none, ops, file) =>
          (.ok { tstamp := hostNumAt hdr 0 4 * 1000000 + hostNumAt hdr 4 4, mbuf := head },
            ops, file)

end TrafficGenerator
