/-
This file settles what a call of `load_pkt` leaves behind. Its loop has no bound
of its own: a round reads at least one byte of the packet or is the last one,
because a read of no bytes does not return one. Whatever the loop is left with,
the segments it was granted are the chain behind the head, so the guard that
frees the head frees them all, and each of them once.
-/

import TrafficGenerator.PacketContents
import TrafficGenerator.Rounds

namespace TrafficGenerator

open LinkedChain

variable {env : Env} {ops ops' : Ops}

/-! ### The loop without fuel -/

/-- The state of the loop: what is left to read, the last segment read into, and the rest. -/
structure SegmentLoop where
  left : ℕ
  prev : Option MbufId
  ops : Ops
  file : File

/-- Reading into a segment ends the loop or takes it to the next round. -/
def readRound (head curr : MbufId) (left : ℕ) (ops : Ops) (file : File) :
    (Option Errno × Ops × File) ⊕ SegmentLoop :=
  let len := min left (ops.pool.mbufs curr).tailroom.toNat
  match fread len file with
  | (none, file) => .inl (some file.errno, ops, file)
  | (some bytes, file) => .inr ⟨left - len, some curr, fillSegment head curr bytes ops, file⟩

/-- One round of the loop of `load_pkt`, its condition first. -/
def segmentRound (env : Env) (head : MbufId) (loop : SegmentLoop) :
    (Option Errno × Ops × File) ⊕ SegmentLoop :=
  if loop.left = 0 then .inl (none, loop.ops, loop.file)
  else
    match loop.prev with
    | none => readRound head head loop.left loop.ops loop.file
    | some prev =>
      match allocMbuf env loop.ops with
      | (none, ops) => .inl (some enomem, ops, loop.file)
      | (some curr, ops) =>
        readRound head curr loop.left (linkSegment head prev curr ops) loop.file

/-- A round that reads takes bytes from what is left. -/
theorem readRound_smaller {head curr : MbufId} {left : ℕ} {ops : Ops} {file : File}
    {next : SegmentLoop} (round : readRound head curr left ops file = .inr next) :
    next.left < left := by
  unfold readRound at round
  dsimp only at round
  split at round
  · exact absurd round (by simp)
  · next bytes rest read =>
    obtain rfl := Sum.inr.inj round
    -- a read of no bytes fails
    have some : min left (ops.pool.mbufs curr).tailroom.toNat ≠ 0 := by
      intro none
      rw [none, fread, if_pos rfl] at read
      exact absurd (Prod.mk.inj read).1 (by simp)
    dsimp only
    omega

theorem segmentRound_smaller {head : MbufId} (loop next : SegmentLoop)
    (round : segmentRound env head loop = .inr next) : next.left < loop.left := by
  unfold segmentRound at round
  split at round
  · exact absurd round (by simp)
  · split at round
    · exact readRound_smaller round
    · split at round
      · exact absurd round (by simp)
      · exact readRound_smaller round

/-- The loop as it was embedded, on the state of the loop. -/
def runSegments (env : Env) (head : MbufId) (fuel : ℕ) (loop : SegmentLoop) :
    Option Errno × Ops × File :=
  loadSegments env head fuel loop.left loop.prev loop.ops loop.file

theorem runSegments_unrolls (env : Env) (head : MbufId) (fuel : ℕ) (loop : SegmentLoop) :
    runSegments env head (fuel + 1) loop =
      Sum.elim id (runSegments env head fuel) (segmentRound env head loop) := by
  obtain ⟨left, prev, ops, file⟩ := loop
  unfold runSegments segmentRound
  rw [loadSegments]
  dsimp only
  split
  · rfl
  · cases prev with
    | none =>
      dsimp only
      unfold readRound
      dsimp only
      cases fread (min left (ops.pool.mbufs head).tailroom.toNat) file with
      | mk bytes rest => cases bytes <;> rfl
    | some prev =>
      dsimp only
      cases allocMbuf env ops with
      | mk curr middle =>
        cases curr with
        | none => rfl
        | some curr =>
          dsimp only
          unfold readRound
          dsimp only
          generalize linkSegment head prev curr middle = linked
          cases fread (min left (linked.pool.mbufs curr).tailroom.toNat) file with
          | mk bytes rest => cases bytes <;> rfl

/-- The loop ends after no more rounds than the packet has bytes. -/
theorem loadSegments_ends (env : Env) (head : MbufId) (caplen : ℕ) (ops : Ops) (file : File) :
    ∃ rounds ≤ caplen, Rounds.Ends (segmentRound env head) rounds ⟨caplen, none, ops, file⟩
      (loadSegments env head caplen caplen none ops file) := by
  refine Rounds.ends_of_measure SegmentLoop.left (runSegments env head) segmentRound_smaller
    (runSegments_unrolls env head) (fun loop none => ?_) ⟨caplen, none, ops, file⟩
    (Nat.le_refl caplen)
  unfold segmentRound
  rw [if_pos none]
  rfl

/-- The state of the first loop of `load_pkts`. -/
structure CaptureLoop where
  load : LoadState
  ops : Ops
  file : File

/-- One round of it. -/
def captureRound (env : Env) (cfg : FlowsGeneratorConfig) (loop : CaptureLoop) :
    (LoadState × Option Thrown × Ops) ⊕ CaptureLoop :=
  match loadPkt env loop.ops loop.file with
  | (.error code, ops, file) =>
    .inl (if file.eof then (loop.load, none, ops)
      else (loop.load, some (.systemError code
        s!"Failed to load packet from {env.texts.path cfg.capFpath}"), ops))
  | (.ok pk, ops, file) => .inr ⟨addPkt env.hz cfg.interPktsGap pk loop.load, ops, file⟩

/-- A packet takes its header from the file, so that loop ends too. -/
theorem captureLoop_ends (env : Env) (cfg : FlowsGeneratorConfig) (load : LoadState) (ops : Ops)
    (file : File) : ∃ rounds ≤ file.data.length + 1,
      Rounds.Ends (captureRound env cfg) rounds ⟨load, ops, file⟩
        (loadLoop env cfg (file.data.length + 1) load ops file) := by
  refine Rounds.ends_of_measure (fun loop : CaptureLoop => loop.file.data.length + 1)
    (fun fuel (loop : CaptureLoop) => loadLoop env cfg fuel loop.load loop.ops loop.file)
    (fun loop next round => ?_) (fun fuel loop => ?_)
    (fun loop none => absurd none (Nat.succ_ne_zero _)) ⟨load, ops, file⟩ (Nat.le_refl _)
  · unfold captureRound at round
    split at round
    · exact absurd round (by simp)
    · next pk middle rest loaded =>
      obtain rfl := Sum.inr.inj round
      have pktLoaded := loadPkt_holds loaded
      have some : 0 < pcapPktHdrSize := by decide
      have within := pktLoaded.within
      rw [pktLoaded.rest]
      dsimp only
      rw [List.length_drop]
      omega
  · unfold captureRound
    rw [loadLoop]
    cases loadPkt env loop.ops loop.file with
    | mk res after =>
      cases res with
      | error code => rfl
      | ok pk => rfl

/-! ### The call -/

/-- What a call of `load_pkt` ends with, its loop run until it is left. -/
inductive LoadPktEnds (env : Env) (ops : Ops) (file : File) :
    Except Errno TcapPkt → Ops → File → Prop
  | noHdr {rest : File} (read : fread pcapPktHdrSize file = (none, rest)) :
      LoadPktEnds env ops file (.error rest.errno) ops rest
  | cut {hdr : List UInt8} {rest : File} (read : fread pcapPktHdrSize file = (some hdr, rest))
      (lens : hostNumAt hdr 8 4 ≠ hostNumAt hdr 12 4) :
      LoadPktEnds env ops file (.error einval) ops rest
  | noMbuf {hdr : List UInt8} {rest : File} {ops' : Ops}
      (read : fread pcapPktHdrSize file = (some hdr, rest))
      (lens : hostNumAt hdr 8 4 = hostNumAt hdr 12 4)
      (refused : allocMbuf env ops = (none, ops')) :
      LoadPktEnds env ops file (.error enomem) ops' rest
  | failed {hdr : List UInt8} {rest file' : File} {head : MbufId} {middle ops' : Ops}
      {rounds : ℕ} {code : Errno} (read : fread pcapPktHdrSize file = (some hdr, rest))
      (lens : hostNumAt hdr 8 4 = hostNumAt hdr 12 4)
      (allocated : allocMbuf env ops = (some head, middle))
      (ends : Rounds.Ends (segmentRound env head) rounds ⟨hostNumAt hdr 8 4, none, middle, rest⟩
        (some code, ops', file')) :
      LoadPktEnds env ops file (.error code) (freePkt head ops') file'
  | loaded {hdr : List UInt8} {rest file' : File} {head : MbufId} {middle ops' : Ops}
      {rounds : ℕ} (read : fread pcapPktHdrSize file = (some hdr, rest))
      (lens : hostNumAt hdr 8 4 = hostNumAt hdr 12 4)
      (allocated : allocMbuf env ops = (some head, middle))
      (ends : Rounds.Ends (segmentRound env head) rounds ⟨hostNumAt hdr 8 4, none, middle, rest⟩
        (none, ops', file')) :
      LoadPktEnds env ops file
        (.ok { tstamp := hostNumAt hdr 0 4 * 1000000 + hostNumAt hdr 4 4, mbuf := head }) ops' file'

/-- What the loop ends with is what was computed with fuel. -/
theorem loadSegments_eq {head : MbufId} {caplen rounds : ℕ} {file file' : File}
    {code : Option Errno} (ends : Rounds.Ends (segmentRound env head) rounds
      ⟨caplen, none, ops, file⟩ (code, ops', file')) :
    loadSegments env head caplen caplen none ops file = (code, ops', file') := by
  obtain ⟨rounds', -, computed⟩ := loadSegments_ends env head caplen ops file
  exact (computed.unique ends).2

/-- So every call ends, and with one result. -/
theorem loadPktEnds_iff {file file' : File} {res : Except Errno TcapPkt} :
    LoadPktEnds env ops file res ops' file' ↔ loadPkt env ops file = (res, ops', file') := by
  constructor
  · intro ends
    cases ends with
    | noHdr read => rw [loadPkt, read]
    | cut read lens =>
      rw [loadPkt, read]
      exact if_pos lens
    | noMbuf read lens refused =>
      rw [loadPkt, read]
      dsimp only
      rw [if_neg (not_not.mpr lens), refused]
    | failed read lens allocated ends =>
      rw [loadPkt, read]
      dsimp only
      rw [if_neg (not_not.mpr lens), allocated]
      dsimp only
      rw [loadSegments_eq ends]
    | loaded read lens allocated ends =>
      rw [loadPkt, read]
      dsimp only
      rw [if_neg (not_not.mpr lens), allocated]
      dsimp only
      rw [loadSegments_eq ends]
  · intro run
    rw [loadPkt] at run
    split at run
    · next read =>
      obtain ⟨rfl, rfl, rfl⟩ := run
      exact .noHdr read
    · next hdr rest read =>
      dsimp only at run
      split at run
      · next lens =>
        obtain ⟨rfl, rfl, rfl⟩ := run
        exact .cut read lens
      · next lens =>
        split at run
        · next refused =>
          obtain ⟨rfl, rfl, rfl⟩ := run
          exact .noMbuf read (not_not.mp lens) refused
        · next head middle allocated =>
          obtain ⟨rounds, -, ends⟩ :=
            loadSegments_ends env head (hostNumAt hdr 8 4) middle rest
          split at run
          · next segments =>
            obtain ⟨rfl, rfl, rfl⟩ := run
            exact .failed read (not_not.mp lens) allocated (segments ▸ ends)
          · next segments =>
            obtain ⟨rfl, rfl, rfl⟩ := run
            exact .loaded read (not_not.mp lens) allocated (segments ▸ ends)

/-- A call of `load_pkt` neither leaks nor frees twice. Whatever is left of the file and whatever
the pool answers: the call ends, and with one result. When it fails, the buffers it obtained have
been freed, each of them once, and nothing else was. When it succeeds, nothing was freed, and the
links lead from the head through the buffers it obtained, each of them once. -/
theorem loadPkt_never_leaks (env : Env) (ops : Ops) (file : File) :
    ∃ res ops' file', (∀ res' ops'' file'', LoadPktEnds env ops file res' ops'' file'' ↔
        res' = res ∧ ops'' = ops' ∧ file'' = file') ∧
      let obtained := granted env.answers ops.pool.attempts ops'.pool.attempts
      obtained.Nodup ∧
      (∀ code, res = .error code → ∃ returned,
        ops'.pool.freed = ops.pool.freed ++ returned ∧ returned.Perm obtained) ∧
      ∀ pkt, res = .ok pkt → ops'.pool.freed = ops.pool.freed ∧
        Chain ops'.pool.links (some pkt.mbuf) obtained := by
  obtain ⟨res, ops', file', run⟩ : ∃ res ops' file', loadPkt env ops file = (res, ops', file') :=
    ⟨_, _, _, rfl⟩
  obtain ⟨-, books⟩ := loadPkt_spec run
  refine ⟨res, ops', file', fun res' ops'' file'' => ?_, granted_nodup _ _, ?_, ?_⟩
  · rw [loadPktEnds_iff, run]
    exact ⟨fun same => by obtain ⟨rfl, rfl, rfl⟩ := same; exact ⟨rfl, rfl, rfl⟩,
      fun ⟨sameRes, sameOps, sameFile⟩ => by rw [sameRes, sameOps, sameFile]⟩
  · rintro code rfl
    exact MbufPool.Books.freed_perm books
  · rintro pkt rfl
    cases loadPktEnds_iff.mpr run with
    | loaded read lens allocated ends =>
      obtain ⟨packet, freed⟩ := (loadSegments_spec (allocMbuf_packet allocated) (by exact rfl)
        (loadSegments_eq ends)).whole allocated
      exact ⟨freed, packet.linked⟩

end TrafficGenerator
