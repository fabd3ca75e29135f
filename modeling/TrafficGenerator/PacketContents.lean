/-
This file is about what the buffers of a loaded packet hold. The loop of
`load_pkt` keeps the head, the last segment and two lengths consistent from
round to round: the segments so far hold the bytes read so far, all of them but
the last are full, and the last one is too when more bytes follow.
-/

import TrafficGenerator.LoadLedger

namespace TrafficGenerator

variable {env : Env} {ops ops' : Ops} {pool : MbufPool}

/-! ### Writes -/

theorem MbufPool.modify_self (pool : MbufPool) (id : MbufId) (write : Mbuf → Mbuf) :
    (pool.modify id write).mbufs id = write (pool.mbufs id) := Function.update_self _ _ _

theorem MbufPool.modify_of_ne (pool : MbufPool) {id other : MbufId} (ne : other ≠ id)
    (write : Mbuf → Mbuf) : (pool.modify id write).mbufs other = pool.mbufs other :=
  Function.update_of_ne ne _ _

/-- A write that keeps a field keeps it in all buffers. -/
theorem MbufPool.modify_keeps {Field : Type} (field : Mbuf → Field) (pool : MbufPool)
    (id : MbufId) {write : Mbuf → Mbuf} (keeps : ∀ mbuf, field (write mbuf) = field mbuf)
    (other : MbufId) : field ((pool.modify id write).mbufs other) = field (pool.mbufs other) := by
  by_cases same : other = id
  · rw [same, modify_self, keeps]
  · rw [modify_of_ne _ same]

/-- Only buffers from a number on are written to, and no attempt is taken back. -/
structure MbufPool.WritesFrom (bound : ℕ) (before after : MbufPool) : Prop where
  attempts : before.attempts ≤ after.attempts
  mbufs : ∀ id < bound, after.mbufs id = before.mbufs id

/-- Only buffers are written to that have been allocated since. -/
abbrev MbufPool.Preserves (before after : MbufPool) : Prop :=
  before.WritesFrom before.attempts after

theorem MbufPool.WritesFrom.refl (bound : ℕ) (pool : MbufPool) : pool.WritesFrom bound pool :=
  ⟨Nat.le_refl _, fun _ _ => rfl⟩

theorem MbufPool.WritesFrom.trans {bound : ℕ} {middle after : MbufPool}
    (first : pool.WritesFrom bound middle) (second : middle.WritesFrom bound after) :
    pool.WritesFrom bound after where
  attempts := Nat.le_trans first.attempts second.attempts
  mbufs id below := (second.mbufs id below).trans (first.mbufs id below)

theorem MbufPool.WritesFrom.weaken {bound bound' : ℕ} {after : MbufPool}
    (writes : pool.WritesFrom bound after) (less : bound' ≤ bound) :
    pool.WritesFrom bound' after where
  attempts := writes.attempts
  mbufs id below := writes.mbufs id (Nat.lt_of_lt_of_le below less)

theorem MbufPool.Preserves.trans {middle after : MbufPool} (first : pool.Preserves middle)
    (second : middle.Preserves after) : pool.Preserves after :=
  WritesFrom.trans first (second.weaken first.attempts)

theorem MbufPool.writesFrom_modify (pool : MbufPool) {bound : ℕ} {id : MbufId}
    (new : bound ≤ id) (write : Mbuf → Mbuf) : pool.WritesFrom bound (pool.modify id write) where
  attempts := Nat.le_refl _
  mbufs _ below := pool.modify_of_ne (Nat.ne_of_lt (Nat.lt_of_lt_of_le below new)) write

theorem MbufPool.preserves_freeBulk (pool : MbufPool) (heads : List MbufId) :
    pool.Preserves (pool.freeBulk heads) := by
  rw [freeBulk_eq]
  exact ⟨Nat.le_refl _, fun _ _ => rfl⟩

/-- An allocation writes to a fresh buffer only. -/
theorem allocMbuf_writes {mbuf : Option MbufId} (run : allocMbuf env ops = (mbuf, ops')) :
    ops.pool.Preserves ops'.pool ∧ ∀ fresh ∈ mbuf, ops.pool.attempts ≤ fresh := by
  rcases allocMbuf_cases env ops with ⟨tailroom, -, result⟩ | ⟨-, result⟩
  · obtain ⟨rfl, rfl⟩ := Prod.mk.inj (run.symm.trans result)
    refine ⟨⟨Nat.le_succ _, fun id below => Function.update_of_ne (Nat.ne_of_lt below) _ _⟩, ?_⟩
    rintro fresh ⟨⟩
    exact Nat.le_refl _
  · obtain ⟨rfl, rfl⟩ := Prod.mk.inj (run.symm.trans result)
    exact ⟨⟨Nat.le_succ _, fun _ _ => rfl⟩, fun fresh member => absurd member (by simp)⟩

/-- The buffer of a granted allocation. -/
theorem allocMbuf_granted {mbuf : MbufId} (run : allocMbuf env ops = (some mbuf, ops')) :
    ∃ tailroom, env.answers.grant ops.pool.attempts = some tailroom ∧
      ops'.pool.mbufs mbuf = { tailroom } ∧
      ∀ id ≠ mbuf, ops'.pool.mbufs id = ops.pool.mbufs id := by
  rcases allocMbuf_cases env ops with ⟨tailroom, grant, result⟩ | ⟨-, result⟩
  · obtain ⟨same, rfl⟩ := Prod.mk.inj (run.symm.trans result)
    obtain rfl := Option.some.inj same
    exact ⟨tailroom, grant, Function.update_self _ _ _,
      fun id other => Function.update_of_ne other _ _⟩
  · exact absurd (Prod.mk.inj (run.symm.trans result)).1 (by simp)

/-- Linking a segment writes the link of the one before it and the number of segments. -/
structure Linked (head prev : MbufId) (before after : MbufPool) : Prop where
  data : ∀ id, (after.mbufs id).data = (before.mbufs id).data
  tailroom : ∀ id, (after.mbufs id).tailroom = (before.mbufs id).tailroom
  pktLen : (after.mbufs head).pktLen = (before.mbufs head).pktLen
  nbSegs : (after.mbufs head).nbSegs = (before.mbufs head).nbSegs + 1

theorem linkSegment_mbufs (head prev curr : MbufId) (ops : Ops) :
    Linked head prev ops.pool (linkSegment head prev curr ops).pool := by
  unfold linkSegment
  dsimp only
  refine ⟨fun id => ?_, fun id => ?_, ?_, ?_⟩
  · rw [MbufPool.modify_keeps Mbuf.data, MbufPool.modify_keeps Mbuf.data] <;> exact fun _ => rfl
  · rw [MbufPool.modify_keeps Mbuf.tailroom, MbufPool.modify_keeps Mbuf.tailroom] <;>
      exact fun _ => rfl
  · rw [MbufPool.modify_keeps Mbuf.pktLen, MbufPool.modify_keeps Mbuf.pktLen] <;>
      exact fun _ => rfl
  · rw [MbufPool.modify_self, MbufPool.modify_keeps Mbuf.nbSegs]
    exact fun _ => rfl

theorem linkSegment_writes {bound : ℕ} {head prev : MbufId} (curr : MbufId) (ops : Ops)
    (headNew : bound ≤ head) (prevNew : bound ≤ prev) :
    ops.pool.WritesFrom bound (linkSegment head prev curr ops).pool := by
  unfold linkSegment
  dsimp only
  exact (ops.pool.writesFrom_modify prevNew _).trans (MbufPool.writesFrom_modify _ headNew _)

/-- Reading into a segment writes its data and the length of the packet. -/
structure Filled (head curr : MbufId) (bytes : List UInt8) (before after : MbufPool) : Prop where
  self : (after.mbufs curr).data = bytes
  data : ∀ id ≠ curr, (after.mbufs id).data = (before.mbufs id).data
  tailroom : ∀ id, (after.mbufs id).tailroom = (before.mbufs id).tailroom
  pktLen : (after.mbufs head).pktLen = (before.mbufs head).pktLen + UInt32.ofNat bytes.length
  nbSegs : (after.mbufs head).nbSegs = (before.mbufs head).nbSegs

theorem fillSegment_mbufs (head curr : MbufId) (bytes : List UInt8) (ops : Ops) :
    Filled head curr bytes ops.pool (fillSegment head curr bytes ops).pool := by
  unfold fillSegment
  dsimp only
  refine ⟨?_, fun id other => ?_, fun id => ?_, ?_, ?_⟩
  · rw [MbufPool.modify_keeps Mbuf.data _ head (by exact fun _ => rfl), MbufPool.modify_self]
  · rw [MbufPool.modify_keeps Mbuf.data _ head (by exact fun _ => rfl),
      MbufPool.modify_of_ne _ other]
  · rw [MbufPool.modify_keeps Mbuf.tailroom, MbufPool.modify_keeps Mbuf.tailroom] <;>
      exact fun _ => rfl
  · rw [MbufPool.modify_self, MbufPool.modify_keeps Mbuf.pktLen]
    exact fun _ => rfl
  · rw [MbufPool.modify_keeps Mbuf.nbSegs, MbufPool.modify_keeps Mbuf.nbSegs] <;>
      exact fun _ => rfl

theorem fillSegment_writes {bound : ℕ} {head curr : MbufId} (bytes : List UInt8) (ops : Ops)
    (headNew : bound ≤ head) (currNew : bound ≤ curr) :
    ops.pool.WritesFrom bound (fillSegment head curr bytes ops).pool := by
  unfold fillSegment
  dsimp only
  exact (ops.pool.writesFrom_modify currNew _).trans (MbufPool.writesFrom_modify _ headNew _)

/-! ### What a packet holds -/

/-- The bytes of some segments, in order. -/
def MbufPool.dataOf (pool : MbufPool) (segs : List MbufId) : List UInt8 :=
  segs.flatMap fun id => (pool.mbufs id).data

/-- A segment without room left. -/
def MbufPool.Full (pool : MbufPool) (id : MbufId) : Prop :=
  (pool.mbufs id).data.length = (pool.mbufs id).tailroom.toNat

/-- The packet at `head` consists of the segments, each with the room it was granted, and holds the
bytes: its length and number of segments are right, every segment but the last is full, and only
the first may be empty. -/
structure MbufPool.Holds (answers : PoolAnswers) (pool : MbufPool) (head : MbufId)
    (segs : List MbufId) (bytes : List UInt8) : Prop where
  packet : pool.Packet head segs
  room : ∀ id ∈ segs, answers.grant id = some (pool.mbufs id).tailroom
  data : pool.dataOf segs = bytes
  pktLen : (pool.mbufs head).pktLen = UInt32.ofNat bytes.length
  nbSegs : (pool.mbufs head).nbSegs = UInt16.ofNat segs.length
  full : ∀ id ∈ segs.dropLast, pool.Full id
  nonempty : ∀ id ∈ segs.tail, (pool.mbufs id).data ≠ []

theorem MbufPool.dataOf_congr {pool' : MbufPool} {segs : List MbufId}
    (same : ∀ id ∈ segs, (pool'.mbufs id).data = (pool.mbufs id).data) :
    pool'.dataOf segs = pool.dataOf segs := by
  rw [dataOf, dataOf, List.flatMap_def, List.flatMap_def, List.map_congr_left same]

theorem MbufPool.Full.congr {pool' : MbufPool} {id : MbufId} (full : pool.Full id)
    (data : (pool'.mbufs id).data = (pool.mbufs id).data)
    (tailroom : (pool'.mbufs id).tailroom = (pool.mbufs id).tailroom) : pool'.Full id := by
  rw [Full, data, tailroom]
  exact full

/-- A fresh buffer is a packet without bytes. -/
theorem MbufPool.Holds.fresh {head : MbufId} (run : allocMbuf env ops = (some head, ops')) :
    ops'.pool.Holds env.answers head [head] [] := by
  obtain ⟨tailroom, grant, mbuf, -⟩ := allocMbuf_granted run
  obtain ⟨-, -, -, -, -, fresh⟩ := allocMbuf_spec run
  refine ⟨allocMbuf_packet run, fun id member => ?_, ?_, ?_, ?_, by simp, by simp⟩
  · rw [List.mem_singleton.mp member, mbuf, (fresh head rfl).1]
    exact grant
  · rw [dataOf, List.flatMap_singleton, mbuf]
  · rw [mbuf]
    rfl
  · rw [mbuf]
    rfl

/-- The first read. -/
theorem MbufPool.Holds.fillHead {head : MbufId} {bytes : List UInt8}
    (holds : ops.pool.Holds env.answers head [head] []) :
    (fillSegment head head bytes ops).pool.Holds env.answers head [head] bytes := by
  have filled := fillSegment_mbufs head head bytes ops
  refine ⟨?_, fun id member => ?_, ?_, ?_, ?_, by simp, by simp⟩
  · exact holds.packet.keep
      ⟨Nat.le_refl _, fun id _ => congrFun (fillSegment_links head head bytes ops) id⟩
  · rw [filled.tailroom]
    exact holds.room id member
  · rw [dataOf, List.flatMap_singleton, filled.self]
  · rw [filled.pktLen, holds.pktLen]
    exact UInt32.zero_add _
  · rw [filled.nbSegs, holds.nbSegs]

/-- A further segment is linked and read into. -/
theorem MbufPool.Holds.extend {head prev curr : MbufId} {front : List MbufId}
    {bytes chunk : List UInt8} {middle : Ops}
    (holds : ops.pool.Holds env.answers head (front ++ [prev]) bytes)
    (full : ops.pool.Full prev) (run : allocMbuf env ops = (some curr, middle))
    (more : chunk ≠ []) :
    (fillSegment head curr chunk (linkSegment head prev curr middle)).pool.Holds env.answers head
      (front ++ [prev] ++ [curr]) (bytes ++ chunk) := by
  obtain ⟨-, -, attempts, one, -, fresh⟩ := allocMbuf_spec run
  obtain ⟨tailroom, grant, mbuf, kept⟩ := allocMbuf_granted run
  have new : curr = ops.pool.attempts := (fresh curr rfl).1
  have linked := linkSegment_mbufs head prev curr middle
  have filled := fillSegment_mbufs head curr chunk (linkSegment head prev curr middle)
  have older : ∀ id ∈ front ++ [prev], id ≠ curr := fun id member =>
    Nat.ne_of_lt (new ▸ holds.packet.allocated id member)
  have headOld := older head holds.packet.head_mem
  have data : ∀ id ∈ front ++ [prev], ((fillSegment head curr chunk
      (linkSegment head prev curr middle)).pool.mbufs id).data = (ops.pool.mbufs id).data := by
    intro id member
    rw [filled.data id (older id member), linked.data, kept id (older id member)]
  have sameRoom : ∀ id ∈ front ++ [prev], ((fillSegment head curr chunk
      (linkSegment head prev curr middle)).pool.mbufs id).tailroom =
        (ops.pool.mbufs id).tailroom := by
    intro id member
    rw [filled.tailroom, linked.tailroom, kept id (older id member)]
  have packet := (SegmentsLoaded.link holds.packet run).packet
  rw [show (linkSegment head prev curr middle).pool.attempts = middle.pool.attempts from rfl, one]
    at packet
  refine ⟨?_, fun id member => ?_, ?_, ?_, ?_, fun id member => ?_, fun id member => ?_⟩
  · exact packet.keep ⟨Nat.le_refl _, fun id _ => congrFun (fillSegment_links head curr chunk _) id⟩
  · rcases List.mem_append.mp member with before | last
    · rw [sameRoom id before]
      exact holds.room id before
    · rw [List.mem_singleton.mp last, filled.tailroom, linked.tailroom, mbuf, new]
      exact grant
  · have last : (fillSegment head curr chunk (linkSegment head prev curr middle)).pool.dataOf
        [curr] = chunk := by
      rw [dataOf, List.flatMap_singleton, filled.self]
    rw [dataOf, List.flatMap_append, ← dataOf, ← dataOf, dataOf_congr data, holds.data, last]
  · rw [filled.pktLen, linked.pktLen, kept head headOld, holds.pktLen, List.length_append,
      UInt32.ofNat_add]
  · have count : (front ++ [prev] ++ [curr]).length = (front ++ [prev]).length + 1 :=
      List.length_append
    rw [filled.nbSegs, linked.nbSegs, kept head headOld, holds.nbSegs, count, UInt16.ofNat_add]
    rfl
  · rw [List.dropLast_concat] at member
    refine MbufPool.Full.congr ?_ (data id member) (sameRoom id member)
    rcases List.mem_append.mp member with before | last
    · exact holds.full id (by rwa [List.dropLast_concat])
    · rwa [List.mem_singleton.mp last]
  · rw [List.tail_append_of_ne_nil (by simp)] at member
    rcases List.mem_append.mp member with before | last
    · rw [data id (List.mem_of_mem_tail before)]
      exact holds.nonempty id before
    · rw [List.mem_singleton.mp last, filled.self]
      exact more

/-! ### The loop of `load_pkt` -/

/-- A read that succeeds returns the next bytes. -/
theorem fread_ok {size : ℕ} {file file' : File} {bytes : List UInt8} :
    fread size file = (some bytes, file') ↔ 0 < size ∧ size ≤ file.data.length ∧
      bytes = file.data.take size ∧ file' = { file with data := file.data.drop size } := by
  rw [fread]
  constructor
  · intro run
    split at run
    · exact absurd (Prod.mk.inj run).1 (by simp)
    · next some =>
      split at run
      · next enough =>
        obtain ⟨same, rfl⟩ := Prod.mk.inj run
        exact ⟨Nat.pos_of_ne_zero some, enough, (Option.some.inj same).symm, rfl⟩
      · split at run <;> exact absurd (Prod.mk.inj run).1 (by simp)
  · rintro ⟨positive, enough, rfl, rfl⟩
    rw [if_neg (Nat.ne_of_gt positive), if_pos enough]

/-- Where the loop is: nothing is read before the first round, and more bytes follow a full
segment only. -/
def MbufPool.Ready (pool : MbufPool) (left : ℕ) (bytes : List UInt8) : Option MbufId → Prop
  | none => bytes = []
  | some prev => 0 < left → pool.Full prev

/-- What the loop does when it ends well: the packet holds the bytes that were left, and the file
is after them. -/
structure BytesLoaded (env : Env) (head : MbufId) (bytes : List UInt8) (left : ℕ) (after : Ops)
    (file file' : File) : Prop where
  within : left ≤ file.data.length
  rest : file' = { file with data := file.data.drop left }
  holds : ∃ segs, after.pool.Holds env.answers head segs (bytes ++ file.data.take left)

/-- Nothing is left. -/
theorem BytesLoaded.done {head : MbufId} {segs : List MbufId} {bytes : List UInt8} {file : File}
    (holds : ops.pool.Holds env.answers head segs bytes) :
    BytesLoaded env head bytes 0 ops file file where
  within := Nat.zero_le _
  rest := rfl
  holds := ⟨segs, by rwa [List.take_zero, List.append_nil]⟩

/-- One read, and what follows it. -/
theorem BytesLoaded.read {head : MbufId} {bytes : List UInt8} {left len : ℕ} {after : Ops}
    {file file' : File} (part : len ≤ left) (within : len ≤ file.data.length)
    (later : BytesLoaded env head (bytes ++ file.data.take len) (left - len) after
      { file with data := file.data.drop len } file') :
    BytesLoaded env head bytes left after file file' where
  within := by
    have rest := later.within
    rw [List.length_drop] at rest
    omega
  rest := by
    rw [later.rest, List.drop_drop, Nat.add_sub_cancel' part]
  holds := by
    obtain ⟨segs, holds⟩ := later.holds
    rw [List.append_assoc, ← List.take_add, Nat.add_sub_cancel' part] at holds
    exact ⟨segs, holds⟩

/-- A segment is ready for the next one when the read into it was as long as its room allows. -/
theorem Filled.ready {head curr : MbufId} {file : File} {left len : ℕ} {before after : MbufPool}
    {bytes : List UInt8} (filled : Filled head curr (file.data.take len) before after)
    (size : min left (before.mbufs curr).tailroom.toNat = len) (within : len ≤ file.data.length) :
    after.Ready (left - len) bytes (some curr) := by
  intro follows
  rw [MbufPool.Full, filled.self, filled.tailroom, List.length_take]
  omega

theorem loadSegments_holds {head : MbufId} {fuel left : ℕ} {prev : Option MbufId}
    {file file' : File} {segs : List MbufId} {bytes : List UInt8}
    (holds : ops.pool.Holds env.answers head segs bytes) (place : LoadedUpTo head prev segs)
    (ready : ops.pool.Ready left bytes prev) (enough : left ≤ fuel)
    (run : loadSegments env head fuel left prev ops file = (none, ops', file')) :
    BytesLoaded env head bytes left ops' file file' := by
  induction fuel generalizing left prev ops file segs bytes with
  | zero =>
    obtain rfl := Nat.le_zero.mp enough
    obtain ⟨-, rfl, rfl⟩ := run
    exact BytesLoaded.done holds
  | succ fuel inductionHypothesis =>
    rw [loadSegments] at run
    split at run
    · next done =>
      obtain ⟨-, rfl, rfl⟩ := run
      rw [done]
      exact BytesLoaded.done holds
    · next more =>
      cases prev with
      | none =>
        obtain rfl : segs = [head] := place
        obtain rfl : bytes = [] := ready
        dsimp only at run
        generalize size : min left (ops.pool.mbufs head).tailroom.toNat = len at run
        split at run
        · exact absurd (Prod.mk.inj run).1 (by simp)
        · next chunk rest read =>
          obtain ⟨positive, within, rfl, rfl⟩ := fread_ok.mp read
          have filled := fillSegment_mbufs head head (file.data.take len) ops
          exact BytesLoaded.read (by omega) within (inductionHypothesis holds.fillHead
            (show LoadedUpTo head (some head) [head] from ⟨[], rfl⟩) (filled.ready size within)
            (by omega) run)
      | some prev =>
        obtain ⟨front, rfl⟩ := place
        dsimp only at run
        split at run
        · exact absurd (Prod.mk.inj run).1 (by simp)
        · next curr middle granted =>
          generalize size : min left
            ((linkSegment head prev curr middle).pool.mbufs curr).tailroom.toNat = len at run
          split at run
          · exact absurd (Prod.mk.inj run).1 (by simp)
          · next chunk rest read =>
            obtain ⟨positive, within, rfl, rfl⟩ := fread_ok.mp read
            have filled := fillSegment_mbufs head curr (file.data.take len)
              (linkSegment head prev curr middle)
            have chunkSome : file.data.take len ≠ [] := by
              rw [← List.length_pos_iff, List.length_take]
              omega
            exact BytesLoaded.read (by omega) within (inductionHypothesis
              (holds.extend (ready (Nat.pos_of_ne_zero more)) granted chunkSome)
              (show LoadedUpTo head (some curr) (front ++ [prev] ++ [curr]) from ⟨_, rfl⟩)
              (filled.ready size within) (by omega) run)

/-- However the loop ends, it writes to the buffers of its packet and to fresh ones. -/
theorem loadSegments_writes {bound : ℕ} {head : MbufId} {fuel left : ℕ} {prev : Option MbufId}
    {file file' : File} {code : Option Errno} (headNew : bound ≤ head)
    (prevNew : ∀ id ∈ prev, bound ≤ id) (older : bound ≤ ops.pool.attempts)
    (run : loadSegments env head fuel left prev ops file = (code, ops', file')) :
    ops.pool.WritesFrom bound ops'.pool := by
  induction fuel generalizing left prev ops file with
  | zero =>
    obtain ⟨-, rfl, -⟩ := run
    exact MbufPool.WritesFrom.refl _ _
  | succ fuel inductionHypothesis =>
    rw [loadSegments] at run
    split at run
    · obtain ⟨-, rfl, -⟩ := run
      exact MbufPool.WritesFrom.refl _ _
    · cases prev with
      | none =>
        dsimp only at run
        split at run
        · obtain ⟨-, rfl, -⟩ := run
          exact MbufPool.WritesFrom.refl _ _
        · refine (fillSegment_writes _ ops headNew headNew).trans
            (inductionHypothesis (fun id member => ?_) older run)
          rwa [← Option.some.inj member]
      | some prev =>
        dsimp only at run
        split at run
        · next refused =>
          obtain ⟨-, rfl, -⟩ := run
          exact (allocMbuf_writes refused).1.weaken older
        · next curr middle granted =>
          obtain ⟨writes, fresh⟩ := allocMbuf_writes granted
          have currNew : bound ≤ curr := Nat.le_trans older (fresh curr rfl)
          have linked := (writes.weaken older).trans
            (linkSegment_writes curr middle headNew (prevNew prev rfl))
          split at run
          · obtain ⟨-, rfl, -⟩ := run
            exact linked
          · refine (linked.trans (fillSegment_writes _ _ headNew currNew)).trans
              (inductionHypothesis (fun id member => ?_)
                (Nat.le_trans older writes.attempts) run)
            rwa [← Option.some.inj member]

/-- However `load_pkt` ends, the buffers allocated before it are as they were. -/
theorem loadPkt_writes {file file' : File} {res : Except Errno TcapPkt}
    (run : loadPkt env ops file = (res, ops', file')) : ops.pool.Preserves ops'.pool := by
  rw [loadPkt] at run
  split at run
  · obtain ⟨-, rfl, -⟩ := run
    exact MbufPool.WritesFrom.refl _ _
  · dsimp only at run
    split at run
    · obtain ⟨-, rfl, -⟩ := run
      exact MbufPool.WritesFrom.refl _ _
    · split at run
      · next refused =>
        obtain ⟨-, rfl, -⟩ := run
        exact (allocMbuf_writes refused).1
      · next head middle granted =>
        obtain ⟨writes, fresh⟩ := allocMbuf_writes granted
        have segments : ∀ {fuel left last rest code}, loadSegments env head fuel fuel none middle
            left = (code, last, rest) → ops.pool.Preserves last.pool := fun loaded =>
          MbufPool.WritesFrom.trans writes
            (loadSegments_writes (fresh head rfl) (by simp) writes.attempts loaded)
        split at run
        · next failed =>
          obtain ⟨-, rfl, -⟩ := run
          exact (segments failed).trans (MbufPool.preserves_freeBulk _ [head])
        · next loaded =>
          obtain ⟨-, rfl, -⟩ := run
          exact segments loaded

/-- `load_pkt`, when it succeeds: it has read a record header with equal lengths and as many bytes,
which a new packet holds. -/
structure PktLoaded (env : Env) (pkt : TcapPkt) (before after : Ops) (file file' : File) :
    Prop where
  header : pcapPktHdrSize ≤ file.data.length
  lengths : hostNumAt file.data 8 4 = hostNumAt file.data 12 4
  tstamp : pkt.tstamp = hostNumAt file.data 0 4 * 1000000 + hostNumAt file.data 4 4
  within : pcapPktHdrSize + hostNumAt file.data 8 4 ≤ file.data.length
  rest : file' = { file with
    data := file.data.drop (pcapPktHdrSize + hostNumAt file.data 8 4) }
  holds : ∃ segs, after.pool.Holds env.answers pkt.mbuf segs
    ((file.data.drop pcapPktHdrSize).take (hostNumAt file.data 8 4))
  fresh : before.pool.attempts ≤ pkt.mbuf

/-- A field of the record header. -/
theorem hostNumAt_take {bytes : List UInt8} {off size total : ℕ} (inside : off + size ≤ total) :
    hostNumAt (bytes.take total) off size = hostNumAt bytes off size := by
  rw [hostNumAt, hostNumAt, List.drop_take, List.take_take, Nat.min_eq_left (by omega)]

theorem loadPkt_holds {pkt : TcapPkt} {file file' : File}
    (run : loadPkt env ops file = (.ok pkt, ops', file')) :
    PktLoaded env pkt ops ops' file file' := by
  rw [loadPkt] at run
  split at run
  · exact absurd (Prod.mk.inj run).1 (by simp)
  · next hdr rest read =>
    obtain ⟨-, within, rfl, rfl⟩ := fread_ok.mp read
    dsimp only at run
    rw [hostNumAt_take (by decide), hostNumAt_take (by decide), hostNumAt_take (by decide),
      hostNumAt_take (by decide)] at run
    split at run
    · exact absurd (Prod.mk.inj run).1 (by simp)
    · next lengths =>
      split at run
      · exact absurd (Prod.mk.inj run).1 (by simp)
      · next head middle granted =>
        split at run
        · exact absurd (Prod.mk.inj run).1 (by simp)
        · next last left segments =>
          obtain ⟨same, rest⟩ := Prod.mk.inj run
          obtain ⟨rfl, rfl⟩ := Prod.mk.inj rest
          obtain rfl := Except.ok.inj same
          have loaded := loadSegments_holds (MbufPool.Holds.fresh granted)
            (show LoadedUpTo head none [head] from rfl) rfl (Nat.le_refl _) segments
          have enough := loaded.within
          rw [List.length_drop] at enough
          refine ⟨within, not_not.mp lengths, rfl, by omega, ?_, loaded.holds,
            (allocMbuf_writes granted).2 head rfl⟩
          rw [loaded.rest, List.drop_drop]

end TrafficGenerator
