/-
This file says exactly what the second half of `load_pkts` does to the packets
of a capture: which ones it accepts, in which direction it takes each of them to
go, and what it writes to their headers. The loop overwrites the address the
direction is read from, so what is said of a packet is said of it as it was
loaded.

The client port is written to the place the low four bits of the first byte of
the IPv4 header lead to. Nothing checks these bits, nor whether the packet is a
later fragment.
-/

import TrafficGenerator.StoredPackets
import TrafficGenerator.CutCaptures
import TrafficGenerator.StoredDelays

namespace TrafficGenerator

variable {env : Env} {ops ops' : Ops} {cfg : FlowsGeneratorConfig}

/-! ### Bytes of a segment -/

theorem Mbuf.writeAt_outside {mbuf : Mbuf} {off place : ℕ} {bytes : List UInt8}
    (within : off + bytes.length ≤ mbuf.data.length)
    (outside : place < off ∨ off + bytes.length ≤ place) :
    (mbuf.writeAt off bytes).byteAt place = mbuf.byteAt place := by
  have front : (mbuf.data.take off).length = off := by
    rw [List.length_take]
    omega
  unfold Mbuf.byteAt Mbuf.writeAt
  rw [List.getD_eq_getElem?_getD, List.getD_eq_getElem?_getD]
  rcases outside with before | behind
  · rw [List.append_assoc, List.getElem?_append_left (by omega), List.getElem?_take_of_lt before]
  · rw [List.getElem?_append_right (by rw [List.length_append, front]; exact behind),
      List.length_append, front, List.getElem?_drop]
    congr 2
    omega

theorem Mbuf.writeAt_inside {mbuf : Mbuf} {off place : ℕ} {bytes : List UInt8}
    (within : off + bytes.length ≤ mbuf.data.length) (inside : place < bytes.length) :
    (mbuf.writeAt off bytes).byteAt (off + place) = bytes.getD place 0 := by
  have front : (mbuf.data.take off).length = off := by
    rw [List.length_take]
    omega
  unfold Mbuf.byteAt Mbuf.writeAt
  rw [List.getD_eq_getElem?_getD, List.getD_eq_getElem?_getD, List.append_assoc,
    List.getElem?_append_right (by omega), front, Nat.add_sub_cancel_left,
    List.getElem?_append_left inside]

/-- The bytes of a segment from an offset on. -/
def Mbuf.bytesAt (mbuf : Mbuf) (off size : ℕ) : List UInt8 := (mbuf.data.drop off).take size

theorem Mbuf.bytesAt_getD (mbuf : Mbuf) (off : ℕ) {size place : ℕ} (inside : place < size) :
    (mbuf.bytesAt off size).getD place 0 = mbuf.byteAt (off + place) := by
  rw [bytesAt, byteAt, List.getD_eq_getElem?_getD, List.getD_eq_getElem?_getD,
    List.getElem?_take_of_lt inside, List.getElem?_drop]

/-- Bytes of a segment are known one by one. -/
theorem Mbuf.bytesAt_eq_iff {mbuf : Mbuf} {off : ℕ} {bytes : List UInt8}
    (within : off + bytes.length ≤ mbuf.data.length) :
    mbuf.bytesAt off bytes.length = bytes ↔
      ∀ place < bytes.length, mbuf.byteAt (off + place) = bytes.getD place 0 := by
  have length : (mbuf.bytesAt off bytes.length).length = bytes.length := by
    rw [bytesAt, List.length_take, List.length_drop]
    omega
  constructor
  · intro same place inside
    rw [← bytesAt_getD mbuf off inside, same]
  · intro each
    refine List.ext_getElem length fun place here there => ?_
    have one := each place there
    rw [← bytesAt_getD mbuf off there, List.getD_eq_getElem?_getD, List.getD_eq_getElem?_getD,
      List.getElem?_eq_getElem here, List.getElem?_eq_getElem there] at one
    exact one

theorem Mbuf.bytesAt_congr {first second : Mbuf} {off size : ℕ}
    (length : first.data.length = second.data.length)
    (same : ∀ place, off ≤ place → place < off + size →
      first.byteAt place = second.byteAt place) :
    first.bytesAt off size = second.bytesAt off size := by
  have lengths : (first.bytesAt off size).length = (second.bytesAt off size).length := by
    rw [bytesAt, bytesAt, List.length_take, List.length_take, List.length_drop, List.length_drop,
      length]
  refine List.ext_getElem lengths fun place here there => ?_
  have inside : place < size ∧ off + place < first.data.length := by
    rw [bytesAt, List.length_take, List.length_drop] at here
    omega
  have byte := same (off + place) (Nat.le_add_right _ _) (by omega)
  have second' : off + place < second.data.length := length ▸ inside.2
  rw [byteAt, byteAt, List.getD_eq_getElem?_getD, List.getD_eq_getElem?_getD,
    List.getElem?_eq_getElem inside.2, List.getElem?_eq_getElem second'] at byte
  simp only [bytesAt, List.getElem_take, List.getElem_drop]
  exact byte

/-- What was written is there. -/
theorem Mbuf.writeAt_bytesAt {mbuf : Mbuf} {off : ℕ} {bytes : List UInt8}
    (within : off + bytes.length ≤ mbuf.data.length) :
    (mbuf.writeAt off bytes).bytesAt off bytes.length = bytes := by
  obtain ⟨data, same, length⟩ := HeadersWritten.writeAt within
  refine (bytesAt_eq_iff ?_).mpr fun place inside => writeAt_inside within inside
  rw [same, length]
  exact within

/-! ### The fields of the headers -/

/-- The source address of the Ethernet header. -/
def Mbuf.srcEther (mbuf : Mbuf) : List UInt8 := mbuf.bytesAt 6 6

/-- The protocol the IPv4 header names. -/
def Mbuf.nextProto (mbuf : Mbuf) : ℕ := (mbuf.byteAt 23).toNat

/-- The length the IPv4 header gives itself, in words. -/
def Mbuf.ihl (mbuf : Mbuf) : ℕ := (mbuf.byteAt 14).toNat % 16

/-- Where it says that the next header is. -/
def Mbuf.l4Off (mbuf : Mbuf) : ℕ := 14 + 4 * mbuf.ihl

/-- The fragment offset: the low thirteen bits of its field. -/
def Mbuf.fragOff (mbuf : Mbuf) : ℕ := mbuf.bigAt16 20 % 2 ^ 13

/-- The size of the header of a protocol with ports. -/
def l4HdrSize (proto : ℕ) : Option ℕ :=
  if proto = 6 then some 20 else if proto = 17 then some 8 else none

/-- Where the port of the client is, in either direction. -/
def Mbuf.portOff (fromCln : Bool) (mbuf : Mbuf) : ℕ := mbuf.l4Off + if fromCln then 0 else 2

theorem ipv4HdrLen_eq (mbuf : Mbuf) : 14 + mbuf.ipv4HdrLen 14 = mbuf.l4Off := by
  have low : (mbuf.byteAt 14 &&& 0x0F).toNat = mbuf.ihl := by
    rw [UInt8.toNat_and]
    exact Nat.and_two_pow_sub_one_eq_mod _ 4
  rw [Mbuf.ipv4HdrLen, low, Mbuf.l4Off, Nat.mul_comm]

/-- A field that is written behind the addresses is not affected by them. -/
theorem setEtherAddrs_byteAt (cfg : FlowsGeneratorConfig) (fromCln : Bool) {mbuf : Mbuf}
    (ether : etherHdrLen ≤ mbuf.data.length) {place : ℕ} (behind : 12 ≤ place) :
    (setEtherAddrs cfg fromCln 0 mbuf).byteAt place = mbuf.byteAt place := by
  have room : 14 ≤ mbuf.data.length := ether
  have cln := cfg.clnEtherAddr.six
  have srv := cfg.srvEtherAddr.six
  unfold setEtherAddrs
  refine Mbuf.writeAt_outside ?_ (Or.inr ?_)
  · split <;> rw [List.length_append, cln, srv] <;> omega
  · split <;> rw [List.length_append, cln, srv] <;> omega

/-! ### One packet -/

/-- What the second loop of `load_pkts` asks of a packet. -/
structure Preparable (cfg : FlowsGeneratorConfig) (mbuf : Mbuf) : Prop where
  headers : 34 ≤ mbuf.data.length
  ipv4 : mbuf.bigAt16 12 = 0x0800
  ports : cfg.clnPort.isSome → ∀ size ∈ l4HdrSize mbuf.nextProto,
    mbuf.l4Off + size ≤ mbuf.data.length

/-- The port of the client where the protocol has ports. -/
def setPort (cfg : FlowsGeneratorConfig) (fromCln : Bool) (mbuf : Mbuf) : Mbuf :=
  match cfg.clnPort, l4HdrSize mbuf.nextProto with
  | some port, some _ => mbuf.writeAt (mbuf.portOff fromCln) (netBytes16 port)
  | _, _ => mbuf

/-- What becomes of a packet. -/
def rewriteHdrs (cfg : FlowsGeneratorConfig) (fromCln : Bool) (mbuf : Mbuf) : Mbuf :=
  setPort cfg fromCln (setEtherAddrs cfg fromCln 0 mbuf)

theorem setCport_eq (fromCln : Bool) (port : UInt16) (mbuf : Mbuf) :
    setCport fromCln port mbuf.l4Off mbuf =
      mbuf.writeAt (mbuf.portOff fromCln) (netBytes16 port) := by
  unfold setCport Mbuf.portOff
  cases fromCln <;> rfl

/-- The fields that the port depends on are behind the addresses. -/
theorem setEtherAddrs_fields (cfg : FlowsGeneratorConfig) (fromCln : Bool) {mbuf : Mbuf}
    (ether : etherHdrLen ≤ mbuf.data.length) :
    (setEtherAddrs cfg fromCln 0 mbuf).nextProto = mbuf.nextProto ∧
      (setEtherAddrs cfg fromCln 0 mbuf).l4Off = mbuf.l4Off ∧
      (setEtherAddrs cfg fromCln 0 mbuf).data.length = mbuf.data.length := by
  obtain ⟨data, same, length⟩ := setEtherAddrs_written cfg fromCln ether
  have proto := setEtherAddrs_byteAt cfg fromCln ether (show 12 ≤ 23 by decide)
  have ihl := setEtherAddrs_byteAt cfg fromCln ether (show 12 ≤ 14 by decide)
  refine ⟨?_, ?_, ?_⟩
  · rw [Mbuf.nextProto, proto, ← Mbuf.nextProto]
  · rw [Mbuf.l4Off, Mbuf.ihl, ihl, ← Mbuf.ihl, ← Mbuf.l4Off]
  · rw [same, length]

theorem nextProto_eq_iff {mbuf : Mbuf} {proto : UInt8} :
    mbuf.nextProto = proto.toNat ↔ mbuf.byteAt 23 = proto := UInt8.toNat_inj

theorem readHdr_fits {size off : ℕ} {mbuf : Mbuf} (fits : off + size ≤ mbuf.data.length) :
    readHdr size mbuf off = some off := readHdr_eq_some.mpr ⟨rfl, fits⟩

/-- The loop accepts no other packet. -/
theorem preparePkt_checked {clnEtherAddr : Option (List UInt8)} {mbuf : Mbuf}
    {res : List UInt8 × Bool × Mbuf} (run : preparePkt env cfg clnEtherAddr mbuf = .ok res) :
    Preparable cfg mbuf := by
  have ether : etherHdrLen ≤ mbuf.data.length := by
    obtain ⟨addr, fromCln, mbuf'⟩ := res
    exact Nat.le_trans (by decide) (preparePkt_written run).2
  unfold preparePkt at run
  split at run
  · exact absurd run (by simp)
  · next eh found =>
    obtain ⟨rfl, -⟩ := readHdr_eq_some.mp found
    dsimp only at run
    split at run
    · exact absurd run (by simp)
    · next ipv4 =>
      split at run
      · exact absurd run (by simp)
      · next ih found =>
        obtain ⟨rfl, headers⟩ := readHdr_eq_some.mp found
        refine ⟨headers, not_not.mp ipv4, fun set size asked => ?_⟩
        obtain ⟨port, set⟩ := Option.isSome_iff_exists.mp set
        rw [set] at run
        dsimp only at run
        have fields := setEtherAddrs_fields cfg
          (decide (clnEtherAddr.getD ((mbuf.data.drop (0 + 6)).take 6) =
            (mbuf.data.drop (0 + 6)).take 6)) ether
        generalize setEtherAddrs cfg _ 0 mbuf = addressed at run fields ⊢
        obtain ⟨proto, off, length⟩ := fields
        have place : 0 + etherHdrLen + addressed.ipv4HdrLen (0 + etherHdrLen) = mbuf.l4Off := by
          rw [← off]
          exact ipv4HdrLen_eq addressed
        rw [← length]
        rw [place] at run
        rw [← proto] at asked
        split at run
        · next tcp =>
          have tcpProto : addressed.nextProto = 6 := nextProto_eq_iff.mpr tcp
          rw [tcpProto] at asked
          obtain rfl : tcpHdrSize = size := Option.some.inj asked
          split at run
          · exact absurd run (by simp)
          · next th found => exact (readHdr_eq_some.mp found).2
        · next notTcp =>
          split at run
          · next udp =>
            have udpProto : addressed.nextProto = 17 := nextProto_eq_iff.mpr udp
            rw [udpProto] at asked
            obtain rfl : udpHdrSize = size := Option.some.inj asked
            split at run
            · exact absurd run (by simp)
            · next uh found => exact (readHdr_eq_some.mp found).2
          · next notUdp =>
            have otherTcp : addressed.nextProto ≠ 6 := fun same =>
              notTcp (nextProto_eq_iff.mp same)
            have otherUdp : addressed.nextProto ≠ 17 := fun same =>
              notUdp (nextProto_eq_iff.mp same)
            rw [l4HdrSize, if_neg otherTcp, if_neg otherUdp] at asked
            exact absurd asked (by simp)

/-- What it makes of those it accepts. -/
theorem preparePkt_ok (env : Env) {mbuf : Mbuf} (preparable : Preparable cfg mbuf)
    (clnEtherAddr : Option (List UInt8)) :
    preparePkt env cfg clnEtherAddr mbuf =
      .ok (clnEtherAddr.getD mbuf.srcEther,
        decide (clnEtherAddr.getD mbuf.srcEther = mbuf.srcEther),
        rewriteHdrs cfg (decide (clnEtherAddr.getD mbuf.srcEther = mbuf.srcEther)) mbuf) := by
  have ether : 0 + etherHdrLen ≤ mbuf.data.length :=
    Nat.le_trans (by decide) preparable.headers
  have src : (mbuf.data.drop (0 + 6)).take 6 = mbuf.srcEther := rfl
  have ipv4 : ¬ mbuf.bigAt16 (0 + 12) ≠ etherTypeIpv4 := not_not.mpr preparable.ipv4
  unfold preparePkt
  rw [readHdr_fits ether]
  dsimp only
  rw [if_neg ipv4, readHdr_fits (by exact preparable.headers), src]
  dsimp only
  generalize clnEtherAddr.getD mbuf.srcEther = addr
  generalize decide (addr = mbuf.srcEther) = fromCln
  unfold rewriteHdrs setPort
  obtain ⟨proto, off, length⟩ := setEtherAddrs_fields cfg fromCln (by rwa [Nat.zero_add] at ether)
  have fits := preparable.ports
  rw [← proto, ← off, ← length] at fits
  generalize setEtherAddrs cfg fromCln 0 mbuf = addressed at fits ⊢
  cases set : cfg.clnPort with
  | none => rfl
  | some port =>
    have place : 0 + etherHdrLen + addressed.ipv4HdrLen (0 + etherHdrLen) = addressed.l4Off :=
      ipv4HdrLen_eq addressed
    have field : 0 + etherHdrLen + 9 = 23 := rfl
    have fits := fits (by rw [set]; rfl)
    dsimp only
    rw [place, field]
    by_cases tcp : addressed.nextProto = 6
    · rw [tcp] at fits ⊢
      rw [if_pos (nextProto_eq_iff.mp tcp), readHdr_fits (fits tcpHdrSize rfl)]
      show Except.ok (addr, fromCln, setCport fromCln port addressed.l4Off addressed) = _
      rw [setCport_eq]
      rfl
    · rw [if_neg fun same => tcp (nextProto_eq_iff.mpr (show _ = ipprotoTcp from same))]
      by_cases udp : addressed.nextProto = 17
      · rw [udp] at fits ⊢
        rw [if_pos (nextProto_eq_iff.mp udp), readHdr_fits (fits udpHdrSize rfl)]
        show Except.ok (addr, fromCln, setCport fromCln port addressed.l4Off addressed) = _
        rw [setCport_eq]
        rfl
      · rw [if_neg fun same => udp (nextProto_eq_iff.mpr (show _ = ipprotoUdp from same)),
          l4HdrSize, if_neg tcp, if_neg udp]

/-- The protocols whose headers have ports. -/
def Mbuf.HasPorts (mbuf : Mbuf) : Prop := mbuf.nextProto = 6 ∨ mbuf.nextProto = 17

theorem l4HdrSize_eq_none {proto : ℕ} : l4HdrSize proto = none ↔ ¬ (proto = 6 ∨ proto = 17) := by
  unfold l4HdrSize
  split
  · next tcp => simp [tcp]
  · next notTcp =>
    split
    · next udp => simp [udp]
    · next notUdp => simp [notTcp, notUdp]

/-- What becomes of the first segment of a packet: the addresses are those of the configuration in
the direction of the packet, the port of the client is where the header with ports is said to be,
and everything else is as before. -/
structure Rewritten (cfg : FlowsGeneratorConfig) (fromCln : Bool) (before after : Mbuf) : Prop where
  fields : HeadersWritten before after
  dst : after.bytesAt 0 6 = (if fromCln then cfg.srvEtherAddr else cfg.clnEtherAddr).addrBytes
  src : after.srcEther = (if fromCln then cfg.clnEtherAddr else cfg.srvEtherAddr).addrBytes
  port : ∀ port ∈ cfg.clnPort, before.HasPorts →
    after.bytesAt (before.portOff fromCln) 2 = netBytes16 port
  rest : ∀ place, 12 ≤ place →
    ¬ (cfg.clnPort.isSome ∧ before.HasPorts ∧
      before.portOff fromCln ≤ place ∧ place < before.portOff fromCln + 2) →
    after.byteAt place = before.byteAt place

/-- The addresses alone. -/
theorem setEtherAddrs_addrs (cfg : FlowsGeneratorConfig) (fromCln : Bool) (mbuf : Mbuf) :
    (setEtherAddrs cfg fromCln 0 mbuf).bytesAt 0 6 =
        (if fromCln then cfg.srvEtherAddr else cfg.clnEtherAddr).addrBytes ∧
      (setEtherAddrs cfg fromCln 0 mbuf).srcEther =
        (if fromCln then cfg.clnEtherAddr else cfg.srvEtherAddr).addrBytes := by
  have written : ∀ dst src : EtherAddr,
      (mbuf.writeAt 0 (dst.addrBytes ++ src.addrBytes)).bytesAt 0 6 = dst.addrBytes ∧
        (mbuf.writeAt 0 (dst.addrBytes ++ src.addrBytes)).srcEther = src.addrBytes := by
    intro dst src
    have front : (mbuf.writeAt 0 (dst.addrBytes ++ src.addrBytes)).data =
        dst.addrBytes ++ (src.addrBytes ++ mbuf.data.drop 12) := by
      unfold Mbuf.writeAt
      rw [List.take_zero, List.nil_append, List.append_assoc, List.length_append, dst.six, src.six]
    unfold Mbuf.srcEther Mbuf.bytesAt
    rw [front, List.drop_zero, List.take_left' dst.six, List.drop_left' dst.six,
      List.take_left' src.six]
    exact ⟨rfl, rfl⟩
  unfold setEtherAddrs
  cases fromCln with
  | false => exact written cfg.clnEtherAddr cfg.srvEtherAddr
  | true => exact written cfg.srvEtherAddr cfg.clnEtherAddr

theorem rewriteHdrs_rewritten (fromCln : Bool) {mbuf : Mbuf} (preparable : Preparable cfg mbuf) :
    Rewritten cfg fromCln mbuf (rewriteHdrs cfg fromCln mbuf) := by
  have ether : etherHdrLen ≤ mbuf.data.length := Nat.le_trans (by decide) preparable.headers
  obtain ⟨dst, src⟩ := setEtherAddrs_addrs cfg fromCln mbuf
  obtain ⟨proto, off, length⟩ := setEtherAddrs_fields cfg fromCln ether
  have behind : ∀ place, 12 ≤ place →
      (setEtherAddrs cfg fromCln 0 mbuf).byteAt place = mbuf.byteAt place :=
    fun _ late => setEtherAddrs_byteAt cfg fromCln ether late
  have written := setEtherAddrs_written cfg fromCln ether
  have portOff : (setEtherAddrs cfg fromCln 0 mbuf).portOff fromCln = mbuf.portOff fromCln := by
    rw [Mbuf.portOff, off, Mbuf.portOff]
  have high : 14 ≤ mbuf.portOff fromCln := by
    rw [Mbuf.portOff, Mbuf.l4Off]
    omega
  unfold rewriteHdrs setPort
  rw [proto]
  generalize setEtherAddrs cfg fromCln 0 mbuf = addressed at *
  split
  · next port size set found =>
    have fits := preparable.ports (by rw [set]; rfl) size found
    have ports : mbuf.HasPorts := by
      by_contra other
      rw [l4HdrSize_eq_none.mpr other] at found
      exact absurd found (by simp)
    have enough : 8 ≤ size := by
      unfold l4HdrSize at found
      split at found
      · exact Nat.le_trans (by decide) (Option.some.inj found).le
      · split at found
        · exact (Option.some.inj found).le
        · exact absurd found (by simp)
    have two : (netBytes16 port).length = 2 := rfl
    have within : addressed.portOff fromCln + (netBytes16 port).length ≤ addressed.data.length := by
      rw [portOff, length, two, Mbuf.portOff]
      split <;> omega
    have portWritten := HeadersWritten.writeAt within
    have sameLength :
        (addressed.writeAt (addressed.portOff fromCln) (netBytes16 port)).data.length =
          addressed.data.length := by
      obtain ⟨data, same, lengths⟩ := portWritten
      rw [same, lengths]
    -- the addresses are in front of the port
    have front : ∀ place < 12,
        (addressed.writeAt (addressed.portOff fromCln) (netBytes16 port)).byteAt place =
          addressed.byteAt place := fun place before =>
      Mbuf.writeAt_outside within (Or.inl (by omega))
    refine ⟨written.trans portWritten, ?_, ?_, ?_, ?_⟩
    · rw [← dst]
      exact Mbuf.bytesAt_congr sameLength fun place _ before => front place (by omega)
    · rw [← src]
      exact Mbuf.bytesAt_congr sameLength fun place _ before => front place (by omega)
    · intro other same _
      obtain rfl := Option.some.inj (set.symm.trans same)
      rw [← portOff]
      exact Mbuf.writeAt_bytesAt within
    · intro place late outside
      rw [← behind place late]
      refine Mbuf.writeAt_outside within ?_
      rw [portOff, two]
      by_contra inside
      exact outside ⟨by rw [set]; rfl, ports, by omega, by omega⟩
  · next none =>
    refine ⟨written, dst, src, fun port set ports => ?_, fun place late _ => behind place late⟩
    cases found : l4HdrSize mbuf.nextProto with
    | none => exact absurd ports (l4HdrSize_eq_none.mp found)
    | some size => exact absurd found (none port size set)

/-! ### The loop -/

/-- The source address of the first packet: the client's. -/
def clientAddr (pool : MbufPool) (pkts : List Pkt) : List UInt8 :=
  (pool.mbufs (pkts.headD default).mbuf).srcEther

/-- The packets with their directions. -/
def marked (pool : MbufPool) (clnEtherAddr : List UInt8) (pkts : List Pkt) : List Pkt :=
  pkts.map fun pkt => { pkt with
    fromCln := decide (clnEtherAddr = (pool.mbufs pkt.mbuf).srcEther) }

theorem marked_congr {pool pool' : MbufPool} {clnEtherAddr : List UInt8} {pkts : List Pkt}
    (same : ∀ pkt ∈ pkts, pool'.mbufs pkt.mbuf = pool.mbufs pkt.mbuf) :
    marked pool' clnEtherAddr pkts = marked pool clnEtherAddr pkts := by
  unfold marked
  refine List.map_congr_left fun pkt member => ?_
  rw [same pkt member]

/-- Writing to the first buffer changes none of the others. -/
theorem modify_first (pool : MbufPool) {pkt : Pkt} {rest : List Pkt}
    (distinct : (mbufsOf (pkt :: rest)).Nodup) (write : Mbuf → Mbuf) :
    ∀ other ∈ rest, (pool.modify pkt.mbuf write).mbufs other.mbuf = pool.mbufs other.mbuf := by
  intro other member
  refine pool.modify_of_ne (fun same => ?_) write
  have apart : pkt.mbuf ∉ mbufsOf rest := (List.nodup_cons.mp distinct).1
  exact apart (same ▸ List.mem_map_of_mem member)

/-- The second loop of `load_pkts` goes through when it can prepare every packet. -/
theorem prepareLoop_ok (env : Env) {pkts : List Pkt} (ops : Ops)
    (distinct : (mbufsOf pkts).Nodup) (clnEtherAddr : Option (List UInt8))
    (preparable : ∀ pkt ∈ pkts, Preparable cfg (ops.pool.mbufs pkt.mbuf)) :
    ∃ ops', prepareLoop env cfg clnEtherAddr pkts ops =
        (.ok (marked ops.pool (clnEtherAddr.getD (clientAddr ops.pool pkts)) pkts), ops') ∧
      (∀ pkt ∈ marked ops.pool (clnEtherAddr.getD (clientAddr ops.pool pkts)) pkts,
        ops'.pool.mbufs pkt.mbuf = rewriteHdrs cfg pkt.fromCln (ops.pool.mbufs pkt.mbuf)) ∧
      ∀ id ∉ mbufsOf pkts, ops'.pool.mbufs id = ops.pool.mbufs id := by
  induction pkts generalizing clnEtherAddr ops with
  | nil => exact ⟨ops, rfl, fun pkt member => absurd member List.not_mem_nil, fun _ _ => rfl⟩
  | cons pkt rest inductionHypothesis =>
    have first := preparePkt_ok env (preparable pkt List.mem_cons_self) clnEtherAddr
    have addr : clientAddr ops.pool (pkt :: rest) = (ops.pool.mbufs pkt.mbuf).srcEther := rfl
    rw [addr]
    generalize clnEtherAddr.getD (ops.pool.mbufs pkt.mbuf).srcEther = cln at first ⊢
    have others := modify_first ops.pool distinct fun _ =>
      rewriteHdrs cfg (decide (cln = (ops.pool.mbufs pkt.mbuf).srcEther)) (ops.pool.mbufs pkt.mbuf)
    have self := ops.pool.modify_self pkt.mbuf fun _ =>
      rewriteHdrs cfg (decide (cln = (ops.pool.mbufs pkt.mbuf).srcEther)) (ops.pool.mbufs pkt.mbuf)
    have elsewhere : ∀ id ≠ pkt.mbuf, (ops.pool.modify pkt.mbuf fun _ => rewriteHdrs cfg
        (decide (cln = (ops.pool.mbufs pkt.mbuf).srcEther))
        (ops.pool.mbufs pkt.mbuf)).mbufs id = ops.pool.mbufs id :=
      fun _ ne => ops.pool.modify_of_ne ne _
    generalize written : ops.pool.modify pkt.mbuf (fun _ => rewriteHdrs cfg
      (decide (cln = (ops.pool.mbufs pkt.mbuf).srcEther)) (ops.pool.mbufs pkt.mbuf)) = pool
      at others self elsewhere
    obtain ⟨ops', run, rewritten, same⟩ := inductionHypothesis { ops with pool := pool }
      (List.nodup_cons.mp distinct).2 (some cln) fun other member => by
        rw [others other member]
        exact preparable other (List.mem_cons_of_mem _ member)
    rw [Option.getD_some, marked_congr others] at run rewritten
    have apart : pkt.mbuf ∉ mbufsOf rest := (List.nodup_cons.mp distinct).1
    refine ⟨ops', ?_, fun other member => ?_, fun id out => ?_⟩
    · unfold prepareLoop
      rw [first]
      dsimp only
      rw [written, run]
      rfl
    · rcases List.mem_cons.mp member with rfl | among
      · exact (same pkt.mbuf apart).trans self
      · obtain ⟨origin, inRest, mark⟩ := List.mem_map.mp among
        rw [rewritten other among, ← mark]
        exact congrArg (rewriteHdrs cfg _) (others origin inRest)
    · have notFirst : id ≠ pkt.mbuf := List.ne_of_not_mem_cons out
      exact (same id (List.not_mem_of_not_mem_cons out)).trans (elsewhere id notFirst)

/-- It goes through only then. -/
theorem prepareLoop_checked {pkts prepared : List Pkt} {ops : Ops}
    (distinct : (mbufsOf pkts).Nodup) {clnEtherAddr : Option (List UInt8)}
    (run : prepareLoop env cfg clnEtherAddr pkts ops = (.ok prepared, ops')) :
    ∀ pkt ∈ pkts, Preparable cfg (ops.pool.mbufs pkt.mbuf) := by
  induction pkts generalizing clnEtherAddr ops prepared with
  | nil => exact fun pkt member => absurd member List.not_mem_nil
  | cons pkt rest inductionHypothesis =>
    rw [prepareLoop] at run
    split at run
    · exact absurd (Prod.mk.inj run).1 (by simp)
    · next addr fromCln mbuf first =>
      dsimp only at run
      split at run
      · exact absurd (Prod.mk.inj run).1 (by simp)
      · next done =>
        obtain ⟨-, rfl⟩ := Prod.mk.inj run
        have others := modify_first ops.pool distinct fun _ => mbuf
        have checked := inductionHypothesis (List.nodup_cons.mp distinct).2 done
        intro other member
        rcases List.mem_cons.mp member with rfl | among
        · exact preparePkt_checked first
        · have there := checked other among
          rw [show ({ ops with pool := ops.pool.modify pkt.mbuf fun _ => mbuf } : Ops).pool.mbufs
            other.mbuf = ops.pool.mbufs other.mbuf from others other among] at there
          exact there

/-! ### Packets in buffers of their own -/

/-- The packets that hold what was granted do not share buffers, so the head of one is not a
segment of another. -/
theorem MbufPool.Books.heads_apart {answers : PoolAnswers} {pool pool' : MbufPool}
    {heads : List MbufId} (books : pool.Books answers pool' heads) :
    heads.Nodup ∧ ∀ head ∈ heads, ∀ id ∈ (pool'.chain head).tail, id ∉ heads := by
  obtain ⟨chains, returned, chained, -, perm⟩ := books.settled
  have packets := packets_of_chains chained
  have once : (heads.flatMap pool'.chain).Nodup := by
    have all := perm.nodup_iff.mpr (granted_nodup _ _)
    rw [chains_eq chained]
    exact (List.nodup_append.mp all).2.1
  obtain ⟨each, apart⟩ := List.nodup_flatMap.mp once
  have headMem := fun head member => (packets head member).head_mem
  refine ⟨apart.imp_of_mem ?_, fun head member id later among => ?_⟩
  · rintro first second firstIn secondIn disjoint rfl
    exact disjoint (headMem first firstIn) (headMem first secondIn)
  · have inChain := List.mem_of_mem_tail later
    by_cases same : id = head
    · obtain ⟨rest, chain⟩ := (packets head member).cons
      have nodup := each head member
      rw [chain] at later nodup
      exact (List.nodup_cons.mp nodup).1 (same ▸ later)
    · have symmetric : Std.Symm (Function.onFun List.Disjoint pool'.chain) :=
        ⟨fun _ _ disjoint _ here there => disjoint there here⟩
      exact apart.forall among member same (headMem id among) inChain

/-! ### The packets of a capture -/

/-- The packets that the first loop of `load_pkts` leaves to the second: each one in its own
buffers. -/
def LoadedPkts (env : Env) (cfg : FlowsGeneratorConfig) (ops middle : Ops)
    (loaded : List Pkt) : Prop :=
  ∃ file load, openTcap env cfg.capFpath = .ok file ∧ load.ret = loaded ∧
    loadLoop env cfg (file.data.length + 1) (.start cfg) ops file = (load, none, middle)

theorem LoadedPkts.heads_apart {middle : Ops} {loaded : List Pkt}
    (read : LoadedPkts env cfg ops middle loaded) : (mbufsOf loaded).Nodup ∧
      ∀ pkt ∈ loaded, ∀ id ∈ (middle.pool.chain pkt.mbuf).tail, id ∉ mbufsOf loaded := by
  obtain ⟨file, load, -, rfl, run⟩ := read
  obtain ⟨-, books⟩ := loadLoop_spec (MbufPool.Books.refl ops.pool) run
  obtain ⟨nodup, apart⟩ := books.heads_apart
  exact ⟨nodup, fun pkt member => apart pkt.mbuf (List.mem_map_of_mem member)⟩

/-- What is left of `load_pkts` then. -/
theorem LoadedPkts.loadPkts_eq {middle : Ops} {loaded pkts : List Pkt}
    (read : LoadedPkts env cfg ops middle loaded) :
    loadPkts env cfg ops = (.ok pkts, ops') ↔
      pkts ≠ [] ∧ prepareLoop env cfg none loaded middle = (.ok pkts, ops') := by
  obtain ⟨file, load, opened, rfl, run⟩ := read
  unfold LoadState.start at run
  unfold loadPkts
  rw [opened]
  dsimp only
  rw [run]
  dsimp only
  cases result : prepareLoop env cfg none load.ret middle with
  | mk res after =>
    cases res with
    | error thrown => simp
    | ok prepared =>
      dsimp only
      split
      · next empty =>
        refine ⟨fun same => absurd (Prod.mk.inj same).1 (by simp), fun ⟨nonempty, same⟩ => ?_⟩
        exact absurd ((Except.ok.inj (Prod.mk.inj same).1).symm.trans empty) nonempty
      · next nonempty =>
        refine ⟨fun same => ⟨?_, same⟩, fun same => same.2⟩
        exact Except.ok.inj (Prod.mk.inj same).1 ▸ nonempty

/-- The packets of a successful call were loaded by the first loop. -/
theorem loadPkts_read {pkts : List Pkt} (run : loadPkts env cfg ops = (.ok pkts, ops')) :
    ∃ middle loaded, LoadedPkts env cfg ops middle loaded := by
  unfold loadPkts at run
  split at run
  · exact absurd (Prod.mk.inj run).1 (by simp)
  · next file opened =>
    split at run
    · exact absurd (Prod.mk.inj run).1 (by simp)
    · next load middle loaded => exact ⟨middle, load.ret, file, load, opened, rfl, loaded⟩

/-- The packets of a successful call, as they are and as they were. -/
theorem LoadedPkts.rewritten {middle : Ops} {loaded pkts : List Pkt}
    (read : LoadedPkts env cfg ops middle loaded)
    (run : loadPkts env cfg ops = (.ok pkts, ops')) :
    pkts = marked middle.pool (clientAddr middle.pool loaded) loaded ∧
      (∀ pkt ∈ loaded, Preparable cfg (middle.pool.mbufs pkt.mbuf)) ∧
      (∀ pkt ∈ pkts, Rewritten cfg pkt.fromCln (middle.pool.mbufs pkt.mbuf)
        (ops'.pool.mbufs pkt.mbuf)) ∧
      (∀ pkt ∈ loaded, ∀ id ∈ (middle.pool.chain pkt.mbuf).tail,
        ops'.pool.mbufs id = middle.pool.mbufs id) ∧
      ∀ id ∉ mbufsOf loaded, ops'.pool.mbufs id = middle.pool.mbufs id := by
  obtain ⟨distinct, apart⟩ := read.heads_apart
  obtain ⟨-, prepared⟩ := read.loadPkts_eq.mp run
  have preparable := prepareLoop_checked distinct prepared
  obtain ⟨after, done, rewritten, others⟩ := prepareLoop_ok env middle distinct none preparable
  obtain ⟨result, rfl⟩ := Prod.mk.inj (prepared.symm.trans done)
  obtain rfl := Except.ok.inj result
  rw [Option.getD_none] at rewritten ⊢
  refine ⟨rfl, preparable, fun pkt member => ?_, fun pkt member id later => ?_, others⟩
  · rw [rewritten pkt member]
    obtain ⟨origin, inLoaded, mark⟩ := List.mem_map.mp member
    refine rewriteHdrs_rewritten pkt.fromCln ?_
    rw [← mark]
    exact preparable origin inLoaded
  · exact others id (apart pkt member id later)

/-- One of them. -/
theorem LoadedPkts.rewritten_of_mem {middle : Ops} {loaded pkts : List Pkt}
    (read : LoadedPkts env cfg ops middle loaded)
    (run : loadPkts env cfg ops = (.ok pkts, ops')) {pkt : Pkt} (member : pkt ∈ loaded) :
    Preparable cfg (middle.pool.mbufs pkt.mbuf) ∧
      Rewritten cfg (decide (clientAddr middle.pool loaded =
        (middle.pool.mbufs pkt.mbuf).srcEther)) (middle.pool.mbufs pkt.mbuf)
        (ops'.pool.mbufs pkt.mbuf) ∧
      ∀ id ∈ (middle.pool.chain pkt.mbuf).tail, ops'.pool.mbufs id = middle.pool.mbufs id := by
  obtain ⟨same, preparable, rewritten, later, -⟩ := read.rewritten run
  have among : { pkt with fromCln := decide (clientAddr middle.pool loaded =
      (middle.pool.mbufs pkt.mbuf).srcEther) } ∈ pkts := by
    rw [same]
    exact List.mem_map_of_mem member
  exact ⟨preparable pkt member, rewritten _ among, later pkt member⟩

/-- The second half of `load_pkts`, exactly. Whatever packets were loaded from a capture: it
succeeds when there are some and they all pass its checks, and only then. The packets stay in
their order and with their delays; the ones from the client are those with the source address of
the first; every first segment is rewritten as its direction and its protocol ask for, and no
other buffer is written to. -/
theorem loadPkts_rewrites (env : Env) (cfg : FlowsGeneratorConfig) {ops middle : Ops}
    {loaded : List Pkt} (read : LoadedPkts env cfg ops middle loaded) :
    ((∃ pkts ops', loadPkts env cfg ops = (.ok pkts, ops')) ↔
      loaded ≠ [] ∧ ∀ pkt ∈ loaded, Preparable cfg (middle.pool.mbufs pkt.mbuf)) ∧
    ∀ pkts ops', loadPkts env cfg ops = (.ok pkts, ops') →
      pkts = marked middle.pool (clientAddr middle.pool loaded) loaded ∧
      (∃ first ∈ pkts.head?, first.fromCln = true) ∧
      (∀ pkt ∈ pkts, Rewritten cfg pkt.fromCln (middle.pool.mbufs pkt.mbuf)
        (ops'.pool.mbufs pkt.mbuf)) ∧
      (∀ pkt ∈ loaded, ∀ id ∈ (middle.pool.chain pkt.mbuf).tail,
        ops'.pool.mbufs id = middle.pool.mbufs id) ∧
      ∀ id ∉ mbufsOf loaded, ops'.pool.mbufs id = middle.pool.mbufs id := by
  have distinct := read.heads_apart.1
  refine ⟨⟨fun ⟨pkts, ops', run⟩ => ?_, fun ⟨nonempty, preparable⟩ => ?_⟩, fun pkts ops' run => ?_⟩
  · obtain ⟨nonempty, prepared⟩ := read.loadPkts_eq.mp run
    refine ⟨?_, prepareLoop_checked distinct prepared⟩
    rintro rfl
    exact nonempty (Except.ok.inj (Prod.mk.inj prepared).1).symm
  · obtain ⟨ops', prepared, -, -⟩ := prepareLoop_ok env middle distinct none preparable
    refine ⟨_, ops', read.loadPkts_eq.mpr ⟨?_, prepared⟩⟩
    exact fun empty => nonempty (List.map_eq_nil_iff.mp empty)
  · obtain ⟨same, -, rewritten, tails, others⟩ := read.rewritten run
    have nonempty := (read.loadPkts_eq.mp run).1
    refine ⟨same, ?_, rewritten, tails, others⟩
    cases loaded with
    | nil => exact absurd same nonempty
    | cons first rest =>
      rw [same]
      exact ⟨_, rfl, decide_eq_true rfl⟩

/-- A UDP packet without payload, as its source and the bytes of its IPv4 header that matter. -/
def udpPacket (src : UInt8) (versionIhl fragment : UInt8) : List UInt8 :=
  [2, 0, 0, 0, 0, 9, 2, 0, 0, 0, 0, src, 8, 0,
    versionIhl, 0, 0, 28, 0, 0, 0, fragment, 64, 17, 0, 0, 10, 0, 0, 1, 10, 0, 0, 2,
    0, 1, 0, 2, 0, 8, 0, 0]

/-- The configuration of a generator that sets the client port. -/
def portCfg : FlowsGeneratorConfig := { sampleGenCfg with clnPort := some 5000 }

/-- Loading a capture of some packets. -/
def loadedFrom (packets : List (List UInt8)) : Except Thrown (List Pkt) × Ops :=
  loadPkts (envOpening (captureFile (packets.map fun payload => ⟨0, 0, payload⟩))) portCfg {}

/-- A request and its answer: the port is the source of the one and the destination of the
other. -/
theorem loadPkts_rewrites_both : ∃ middle loaded pkts ops',
    LoadedPkts (envOpening (captureFile ([udpPacket 1 0x45 0, udpPacket 2 0x45 0].map fun payload =>
      ⟨0, 0, payload⟩))) portCfg {} middle loaded ∧
    loadedFrom [udpPacket 1 0x45 0, udpPacket 2 0x45 0] = (.ok pkts, ops') ∧
    pkts.map Pkt.fromCln = [true, false] ∧
    ∀ pkt ∈ pkts, Rewritten portCfg pkt.fromCln (middle.pool.mbufs pkt.mbuf)
      (ops'.pool.mbufs pkt.mbuf) := by
  have directions : (loadedFrom [udpPacket 1 0x45 0, udpPacket 2 0x45 0]).1.toOption.map
      (List.map Pkt.fromCln) = some [true, false] := by
    decide +kernel
  cases run : loadedFrom [udpPacket 1 0x45 0, udpPacket 2 0x45 0] with
  | mk res ops' =>
    rw [run] at directions
    cases res with
    | error thrown => exact absurd directions (by simp [Except.toOption])
    | ok pkts =>
      obtain ⟨middle, loaded, read⟩ := loadPkts_read run
      exact ⟨middle, loaded, pkts, ops', read, rfl, Option.some.inj directions,
        ((loadPkts_rewrites _ _ read).2 pkts ops' run).2.2.1⟩

/-! ### Where the port is written -/

/-- The packet has a complete TCP or UDP header behind a complete IPv4 header, and is not a later
fragment of a datagram. -/
structure Mbuf.L4Hdr (mbuf : Mbuf) : Prop where
  ihl : 5 ≤ mbuf.ihl
  fragOff : mbuf.fragOff = 0
  hdr : ∃ size ∈ l4HdrSize mbuf.nextProto, mbuf.l4Off + size ≤ mbuf.data.length

/-- The source or the destination port of that header. -/
def Mbuf.InPort (mbuf : Mbuf) (place : ℕ) : Prop :=
  mbuf.l4Off ≤ place ∧ place < mbuf.l4Off + 4

/-- Behind the Ethernet addresses only the ports of an actual header have changed. -/
structure PortsOnly (before after : MbufPool) (head : MbufId) : Prop where
  first : ∀ place, 12 ≤ place →
    (after.mbufs head).byteAt place ≠ (before.mbufs head).byteAt place →
      (before.mbufs head).L4Hdr ∧ (before.mbufs head).InPort place
  later : ∀ id ∈ (before.chain head).tail, after.mbufs id = before.mbufs id

/-- Where this can go wrong: the length of the IPv4 header and the fragment offset are those of a
packet with ports, or the port was there already. -/
def PortPlaced (port : UInt16) (fromCln : Bool) (mbuf : Mbuf) : Prop :=
  mbuf.HasPorts → (5 ≤ mbuf.ihl ∧ mbuf.fragOff = 0) ∨
    mbuf.bytesAt (mbuf.portOff fromCln) 2 = netBytes16 port

/-- Only the two bytes of the port can have changed behind the addresses. -/
theorem Rewritten.changed {fromCln : Bool} {before after : Mbuf}
    (rewritten : Rewritten cfg fromCln before after) {place : ℕ} (late : 12 ≤ place)
    (changed : after.byteAt place ≠ before.byteAt place) : before.HasPorts ∧
      before.portOff fromCln ≤ place ∧ place < before.portOff fromCln + 2 := by
  by_contra outside
  exact changed (rewritten.rest place late fun inside => outside inside.2)

/-- The port is written to an actual header when the packet has one where it seems to be. -/
theorem portsOnly_iff {before after : MbufPool} {head : MbufId} {fromCln : Bool} {port : UInt16}
    (set : cfg.clnPort = some port) (preparable : Preparable cfg (before.mbufs head))
    (rewritten : Rewritten cfg fromCln (before.mbufs head) (after.mbufs head))
    (later : ∀ id ∈ (before.chain head).tail, after.mbufs id = before.mbufs id) :
    PortsOnly before after head ↔ PortPlaced port fromCln (before.mbufs head) := by
  have range : ∀ place, (before.mbufs head).portOff fromCln ≤ place →
      place < (before.mbufs head).portOff fromCln + 2 →
        12 ≤ place ∧ (before.mbufs head).InPort place := by
    intro place low high
    have two : (if fromCln then 0 else 2) ≤ 2 := by split <;> decide
    unfold Mbuf.portOff at low high
    unfold Mbuf.InPort Mbuf.l4Off at *
    omega
  have length : (before.mbufs head).data.length = (after.mbufs head).data.length := by
    obtain ⟨data, same, lengths⟩ := rewritten.fields
    rw [same, lengths]
  constructor
  · intro portsOnly ports
    by_cases there : (before.mbufs head).bytesAt ((before.mbufs head).portOff fromCln) 2 =
        netBytes16 port
    · exact Or.inr there
    · -- one of the two bytes changes, so there is an actual header
      refine Or.inl ?_
      by_contra noHdr
      refine there ((Mbuf.bytesAt_congr length fun place low high => ?_).trans
        (rewritten.port port set ports))
      by_contra changed
      have hdr := (portsOnly.first place (range place low high).1 (Ne.symm changed)).1
      exact noHdr ⟨hdr.ihl, hdr.fragOff⟩
  · intro placed
    refine ⟨fun place late changed => ?_, later⟩
    obtain ⟨ports, low, high⟩ := rewritten.changed late changed
    rcases placed ports with ⟨ihl, fragOff⟩ | there
    · obtain ⟨size, found⟩ : ∃ size, l4HdrSize (before.mbufs head).nextProto = some size := by
        refine Option.ne_none_iff_exists'.mp fun none => ?_
        exact l4HdrSize_eq_none.mp none ports
      exact ⟨⟨ihl, fragOff, size, found, preparable.ports (by rw [set]; rfl) size found⟩,
        (range place low high).2⟩
    · have same := (rewritten.port port set ports).trans there.symm
      have inside : place - (before.mbufs head).portOff fromCln < 2 := by omega
      have byte := congrArg (fun bytes : List UInt8 =>
        bytes.getD (place - (before.mbufs head).portOff fromCln) 0) same
      rw [Mbuf.bytesAt_getD _ _ inside, Mbuf.bytesAt_getD _ _ inside,
        Nat.add_sub_cancel' low] at byte
      exact absurd byte changed

/-- Setting the client port, exactly: of a packet that `load_pkts` accepts it changes nothing but
the port of an actual TCP or UDP header if and only if the packet says that its IPv4 header has at
least five words and that it is not a later fragment, unless it has no ports or has the port where
it is written already. -/
theorem loadPkts_portsOnly_iff {middle : Ops} {loaded pkts : List Pkt} {port : UInt16}
    (set : cfg.clnPort = some port) (read : LoadedPkts env cfg ops middle loaded)
    (run : loadPkts env cfg ops = (.ok pkts, ops')) {pkt : Pkt} (member : pkt ∈ loaded) :
    PortsOnly middle.pool ops'.pool pkt.mbuf ↔
      PortPlaced port (decide (clientAddr middle.pool loaded =
        (middle.pool.mbufs pkt.mbuf).srcEther)) (middle.pool.mbufs pkt.mbuf) := by
  obtain ⟨preparable, rewritten, later⟩ := read.rewritten_of_mem run member
  exact portsOnly_iff set preparable rewritten later

instance (port : UInt16) (fromCln : Bool) (mbuf : Mbuf) :
    Decidable (PortPlaced port fromCln mbuf) := by
  unfold PortPlaced Mbuf.HasPorts
  infer_instance

/-- The first segments of the packets the first loop loads. -/
def loadedSegs (env : Env) (cfg : FlowsGeneratorConfig) (ops : Ops) : List Mbuf :=
  match openTcap env cfg.capFpath with
  | .error _ => []
  | .ok file =>
    match loadLoop env cfg (file.data.length + 1) (.start cfg) ops file with
    | (load, _, middle) => load.ret.map fun pkt => middle.pool.mbufs pkt.mbuf

theorem LoadedPkts.segs {middle : Ops} {loaded : List Pkt}
    (read : LoadedPkts env cfg ops middle loaded) :
    loadedSegs env cfg ops = loaded.map fun pkt => middle.pool.mbufs pkt.mbuf := by
  obtain ⟨file, load, opened, rfl, run⟩ := read
  unfold loadedSegs
  rw [opened]
  dsimp only
  rw [run]

/-- A packet with a header of five words that is no fragment. -/
theorem loadPkts_portsOnly_whole : ∃ middle loaded pkts ops',
    LoadedPkts (envOpening (captureFile ([udpPacket 1 0x45 0].map fun payload =>
      ⟨0, 0, payload⟩))) portCfg {} middle loaded ∧
    loadedFrom [udpPacket 1 0x45 0] = (.ok pkts, ops') ∧ loaded ≠ [] ∧
    ∀ pkt ∈ loaded, PortsOnly middle.pool ops'.pool pkt.mbuf := by
  have succeeds : (loadedFrom [udpPacket 1 0x45 0]).1.toOption.isSome = true ∧
      loadedSegs (envOpening (captureFile ([udpPacket 1 0x45 0].map fun payload =>
        ⟨0, 0, payload⟩))) portCfg {} ≠ [] ∧
      ∀ mbuf ∈ loadedSegs (envOpening (captureFile ([udpPacket 1 0x45 0].map fun payload =>
        ⟨0, 0, payload⟩))) portCfg {}, ∀ fromCln, PortPlaced 5000 fromCln mbuf := by
    decide +kernel
  obtain ⟨ok, nonempty, placed⟩ := succeeds
  cases run : loadedFrom [udpPacket 1 0x45 0] with
  | mk res ops' =>
    rw [run] at ok
    cases res with
    | error thrown => exact absurd ok (by simp [Except.toOption])
    | ok pkts =>
      obtain ⟨middle, loaded, read⟩ := loadPkts_read run
      rw [read.segs] at placed nonempty
      refine ⟨middle, loaded, pkts, ops', read, rfl, fun none => nonempty (by rw [none]; rfl),
        fun pkt member => ?_⟩
      exact (loadPkts_portsOnly_iff rfl read run member).mpr
        (placed _ (List.mem_map_of_mem member) _)

/-- A header that says it has no words, and a later fragment: the port is written to the IPv4
header of the one and to the payload of the other. -/
theorem loadPkts_corrupts : ∃ middle loaded pkts ops',
    LoadedPkts (envOpening (captureFile ([udpPacket 1 0x40 0, udpPacket 1 0x45 1].map fun payload =>
      ⟨0, 0, payload⟩))) portCfg {} middle loaded ∧
    loadedFrom [udpPacket 1 0x40 0, udpPacket 1 0x45 1] = (.ok pkts, ops') ∧ loaded.length = 2 ∧
    ∀ pkt ∈ loaded, ¬ PortsOnly middle.pool ops'.pool pkt.mbuf := by
  have succeeds : (loadedFrom [udpPacket 1 0x40 0, udpPacket 1 0x45 1]).1.toOption.isSome = true ∧
      (loadedSegs (envOpening (captureFile ([udpPacket 1 0x40 0, udpPacket 1 0x45 1].map
        fun payload => ⟨0, 0, payload⟩))) portCfg {}).length = 2 ∧
      ∀ mbuf ∈ loadedSegs (envOpening (captureFile ([udpPacket 1 0x40 0, udpPacket 1 0x45 1].map
        fun payload => ⟨0, 0, payload⟩))) portCfg {},
          ∀ fromCln, ¬ PortPlaced 5000 fromCln mbuf := by
    decide +kernel
  obtain ⟨ok, two, placed⟩ := succeeds
  cases run : loadedFrom [udpPacket 1 0x40 0, udpPacket 1 0x45 1] with
  | mk res ops' =>
    rw [run] at ok
    cases res with
    | error thrown => exact absurd ok (by simp [Except.toOption])
    | ok pkts =>
      obtain ⟨middle, loaded, read⟩ := loadPkts_read run
      rw [read.segs] at placed two
      rw [List.length_map] at two
      refine ⟨middle, loaded, pkts, ops', read, rfl, two, fun pkt member only => ?_⟩
      obtain ⟨preparable, rewritten, later⟩ := read.rewritten_of_mem run member
      exact placed _ (List.mem_map_of_mem member) _
        ((portsOnly_iff rfl preparable rewritten later).mp only)

end TrafficGenerator
