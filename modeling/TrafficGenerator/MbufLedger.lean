/-
This file keeps the books of the packet buffers. A packet holds the segments
its links lead through. The books between two states are settled when every
buffer the pool granted in between was returned to it or is a segment of one of
the packets still held, each exactly once. What is said later about leaks and
double frees while a capture is loaded is said through the books: a step that
fails settles them alone, and freeing the packets held settles the rest.
-/

import TrafficGenerator.Mbuf
import Mathlib.Data.List.Forall2
import Mathlib.Data.List.Nodup

namespace TrafficGenerator

open LinkedChain

variable {answers : PoolAnswers} {pool pool' : MbufPool}

/-! ### Packets -/

/-- The packet at `head` consists of the segments, in the order of their allocation. -/
structure MbufPool.Packet (pool : MbufPool) (head : MbufId) (segs : List MbufId) : Prop where
  linked : Chain pool.links (some head) segs
  increasing : segs.Pairwise (· < ·)
  allocated : ∀ id ∈ segs, id < pool.attempts

/-- The links of the buffers allocated so far are the same, and no attempt is taken back. -/
structure MbufPool.Keeps (before after : MbufPool) : Prop where
  attempts : before.attempts ≤ after.attempts
  links : ∀ id < before.attempts, after.links id = before.links id

theorem MbufPool.Keeps.refl (pool : MbufPool) : pool.Keeps pool := ⟨Nat.le_refl _, fun _ _ => rfl⟩

theorem MbufPool.Keeps.trans {pool'' : MbufPool} (first : pool.Keeps pool')
    (second : pool'.Keeps pool'') : pool.Keeps pool'' where
  attempts := Nat.le_trans first.attempts second.attempts
  links id allocated :=
    (second.links id (Nat.lt_of_lt_of_le allocated first.attempts)).trans (first.links id allocated)

theorem MbufPool.Packet.chain_eq {head : MbufId} {segs : List MbufId}
    (packet : pool.Packet head segs) : pool.chain head = segs :=
  packet.linked.follow_eq (length_le_of_increasing packet.increasing packet.allocated)

theorem MbufPool.Packet.cons {head : MbufId} {segs : List MbufId}
    (packet : pool.Packet head segs) : ∃ rest, segs = head :: rest := by
  cases segs with
  | nil => exact absurd packet.linked (by simp [Chain])
  | cons first rest => exact ⟨rest, by rw [Option.some.inj packet.linked.1]⟩

theorem MbufPool.Packet.head_mem {head : MbufId} {segs : List MbufId}
    (packet : pool.Packet head segs) : head ∈ segs := by
  obtain ⟨rest, rfl⟩ := packet.cons
  exact List.mem_cons_self

theorem MbufPool.Packet.keep {head : MbufId} {segs : List MbufId}
    (packet : pool.Packet head segs) (keeps : pool.Keeps pool') : pool'.Packet head segs where
  linked := packet.linked.congr fun id member => keeps.links id (packet.allocated id member)
  increasing := packet.increasing
  allocated id member := Nat.lt_of_lt_of_le (packet.allocated id member) keeps.attempts

/-- A write that does not touch the link keeps all links. -/
theorem MbufPool.modify_links (pool : MbufPool) (id : MbufId) {write : Mbuf → Mbuf}
    (keeps : ∀ mbuf, (write mbuf).next = mbuf.next) :
    (pool.modify id write).links = pool.links := by
  funext other
  show (Function.update pool.mbufs id (write (pool.mbufs id)) other).next = _
  by_cases same : other = id
  · rw [same, Function.update_self, keeps]
    rfl
  · rw [Function.update_of_ne same]
    rfl

/-! ### Freeing -/

theorem MbufPool.freeBulk_eq (pool : MbufPool) (heads : List MbufId) :
    pool.freeBulk heads = { pool with freed := pool.freed ++ heads.flatMap pool.chain } := by
  induction heads generalizing pool with
  | nil => rw [List.flatMap_nil, List.append_nil]; rfl
  | cons head rest inductionHypothesis =>
    show (pool.free head).freeBulk rest = _
    rw [inductionHypothesis, List.flatMap_cons, ← List.append_assoc]
    rfl

theorem MbufPool.keeps_freeBulk (pool : MbufPool) (heads : List MbufId) :
    pool.Keeps (pool.freeBulk heads) := by
  rw [freeBulk_eq]
  exact ⟨Nat.le_refl _, fun _ _ => rfl⟩

/-! ### The granted attempts -/

/-- The attempts from `first` up to, not including, `last` for which the pool had a buffer. -/
def granted (answers : PoolAnswers) (first last : ℕ) : List MbufId :=
  (List.range' first (last - first)).filter fun id => (answers.grant id).isSome

theorem granted_self (first : ℕ) : granted answers first first = [] := by
  rw [granted, Nat.sub_self]
  rfl

theorem granted_append {first middle last : ℕ} (low : first ≤ middle) (high : middle ≤ last) :
    granted answers first middle ++ granted answers middle last = granted answers first last := by
  rw [granted, granted, granted, ← List.filter_append]
  congr 1
  have start : middle = first + 1 * (middle - first) := by omega
  rw [show last - first = middle - first + (last - middle) by omega, ← List.range'_append,
    ← start]

theorem granted_one {first : ℕ} :
    granted answers first (first + 1) = if (answers.grant first).isSome then [first] else [] := by
  rw [granted, Nat.add_sub_cancel_left, List.range'_one, List.filter_singleton,
    Bool.cond_eq_ite]

theorem mem_granted {first last id : ℕ} (member : id ∈ granted answers first last) :
    first ≤ id ∧ id < last := by
  have inRange := List.mem_range'_1.mp (List.mem_of_mem_filter member)
  omega

theorem granted_increasing (first last : ℕ) : (granted answers first last).Pairwise (· < ·) :=
  List.Pairwise.filter _ List.pairwise_lt_range'

theorem granted_nodup (first last : ℕ) : (granted answers first last).Nodup :=
  (granted_increasing first last).imp fun less => Nat.ne_of_lt less

/-! ### The books -/

theorem chains_eq {heads : List MbufId} {chains : List (List MbufId)}
    (packets : List.Forall₂ pool.Packet heads chains) :
    heads.flatMap pool.chain = chains.flatten := by
  induction packets with
  | nil => rfl
  | cons packet _ inductionHypothesis =>
    rw [List.flatMap_cons, List.flatten_cons, packet.chain_eq, inductionHypothesis]

/-- Between two states every buffer granted was either freed or is a segment of one of the
packets at `heads`, each once. -/
structure MbufPool.Books (answers : PoolAnswers) (before after : MbufPool)
    (heads : List MbufId) : Prop where
  keeps : before.Keeps after
  settled : ∃ chains returned, List.Forall₂ after.Packet heads chains ∧
    after.freed = before.freed ++ returned ∧
    (returned ++ chains.flatten).Perm (granted answers before.attempts after.attempts)

theorem MbufPool.Books.refl (pool : MbufPool) : pool.Books answers pool [] :=
  ⟨Keeps.refl pool, [], [], .nil, (List.append_nil _).symm, by rw [granted_self]; rfl⟩

/-- One packet that holds everything granted. -/
theorem MbufPool.Books.one {head : MbufId} (keeps : pool.Keeps pool')
    (packet : pool'.Packet head (granted answers pool.attempts pool'.attempts))
    (freed : pool'.freed = pool.freed) : pool.Books answers pool' [head] :=
  ⟨keeps, [_], [], .cons packet .nil, by rw [freed, List.append_nil], by
    rw [List.flatten_singleton]
    rfl⟩

theorem MbufPool.Books.trans {pool'' : MbufPool} {heads more : List MbufId}
    (first : pool.Books answers pool' heads) (second : pool'.Books answers pool'' more) :
    pool.Books answers pool'' (heads ++ more) := by
  obtain ⟨chains, returned, packets, freed, perm⟩ := first.settled
  obtain ⟨moreChains, moreReturned, morePackets, moreFreed, morePerm⟩ := second.settled
  refine ⟨first.keeps.trans second.keeps, chains ++ moreChains, returned ++ moreReturned,
    List.rel_append (packets.imp fun _ _ packet => packet.keep second.keeps) morePackets, ?_, ?_⟩
  · rw [moreFreed, freed, List.append_assoc]
  · rw [← granted_append first.keeps.attempts second.keeps.attempts, List.flatten_append]
    refine List.Perm.trans ?_ (perm.append morePerm)
    rw [List.append_assoc, List.append_assoc]
    refine List.Perm.append_left _ ?_
    rw [← List.append_assoc, ← List.append_assoc]
    exact List.perm_append_comm.append_right _

/-- Freeing the packets settles everything. -/
theorem MbufPool.Books.free {heads : List MbufId} (books : pool.Books answers pool' heads) :
    pool.Books answers (pool'.freeBulk heads) [] := by
  obtain ⟨chains, returned, packets, freed, perm⟩ := books.settled
  refine ⟨books.keeps.trans (pool'.keeps_freeBulk heads), [], returned ++ chains.flatten, .nil,
    ?_, ?_⟩
  · rw [freeBulk_eq, freed, chains_eq packets, List.append_assoc]
  · rw [freeBulk_eq, List.flatten_nil, List.append_nil]
    exact perm

/-- Writes that touch no link leave the books alone. -/
theorem MbufPool.Books.write {pool'' : MbufPool} {heads : List MbufId}
    (books : pool.Books answers pool' heads) (links : pool''.links = pool'.links)
    (attempts : pool''.attempts = pool'.attempts) (freed : pool''.freed = pool'.freed) :
    pool.Books answers pool'' heads := by
  obtain ⟨chains, returned, packets, settled, perm⟩ := books.settled
  have keeps : pool'.Keeps pool'' := ⟨attempts.ge, fun id _ => congrFun links id⟩
  exact ⟨books.keeps.trans keeps, chains, returned,
    packets.imp fun _ _ packet => packet.keep keeps, freed.trans settled, by rwa [attempts]⟩

/-- Without packets left, what was freed is what was granted. -/
theorem MbufPool.Books.freed_perm (books : pool.Books answers pool' []) :
    ∃ returned, pool'.freed = pool.freed ++ returned ∧
      returned.Perm (granted answers pool.attempts pool'.attempts) := by
  obtain ⟨chains, returned, packets, freed, perm⟩ := books.settled
  obtain rfl := List.forall₂_nil_left_iff.mp packets
  exact ⟨returned, freed, by rwa [List.flatten_nil, List.append_nil] at perm⟩

/-! ### The ledger of a whole run -/

/-- No buffer was freed twice, and none of the packets at `held` shares a buffer with another one
or with what was freed. -/
structure MbufPool.Ledger (pool : MbufPool) (held : List MbufId) : Prop where
  freed : ∀ id ∈ pool.freed, id < pool.attempts
  packets : ∀ head ∈ held, pool.Packet head (pool.chain head)
  once : (pool.freed ++ held.flatMap pool.chain).Nodup

/-- A packet is known by its chain. -/
theorem MbufPool.Packet.self {head : MbufId} {segs : List MbufId}
    (packet : pool.Packet head segs) : pool.Packet head (pool.chain head) := by
  rwa [packet.chain_eq]

/-- Later states do not see a packet's chain changed. -/
theorem MbufPool.Packet.chain_keep {head : MbufId} (packet : pool.Packet head (pool.chain head))
    (keeps : pool.Keeps pool') : pool'.chain head = pool.chain head := (packet.keep keeps).chain_eq

theorem flatMap_chain_keep {heads : List MbufId}
    (packets : ∀ head ∈ heads, pool.Packet head (pool.chain head)) (keeps : pool.Keeps pool') :
    heads.flatMap pool'.chain = heads.flatMap pool.chain :=
  List.flatMap_congr fun head member => (packets head member).chain_keep keeps

theorem packets_of_chains {heads : List MbufId} {chains : List (List MbufId)}
    (packets : List.Forall₂ pool.Packet heads chains) :
    ∀ head ∈ heads, pool.Packet head (pool.chain head) := by
  induction packets with
  | nil => exact fun _ member => absurd member List.not_mem_nil
  | cons packet _ inductionHypothesis =>
    intro head member
    rcases List.mem_cons.mp member with rfl | member
    · exact packet.self
    · exact inductionHypothesis head member

theorem MbufPool.Ledger.perm {held held' : List MbufId} (ledger : pool.Ledger held)
    (same : held.Perm held') : pool.Ledger held' where
  freed := ledger.freed
  packets head member := ledger.packets head (same.mem_iff.mpr member)
  once := ((same.flatMap_right pool.chain).append_left pool.freed).nodup_iff.mp ledger.once

/-- The ledger after more buffers were taken from the pool: some of them were freed already, the
others make up more packets. -/
theorem MbufPool.Ledger.grow {held fresh : List MbufId} (ledger : pool.Ledger held)
    (returned : List MbufId) (keeps : pool.Keeps pool')
    (freed : pool'.freed = pool.freed ++ returned)
    (packets : ∀ head ∈ fresh, pool'.Packet head (pool'.chain head))
    (once : (returned ++ fresh.flatMap pool'.chain).Nodup)
    (new : ∀ id ∈ returned ++ fresh.flatMap pool'.chain, pool.attempts ≤ id)
    (below : ∀ id ∈ returned, id < pool'.attempts) : pool'.Ledger (held ++ fresh) where
  freed id member := by
    rw [freed] at member
    rcases List.mem_append.mp member with before | after
    · exact Nat.lt_of_lt_of_le (ledger.freed id before) keeps.attempts
    · exact below id after
  packets head member := by
    rcases List.mem_append.mp member with before | after
    · exact ((ledger.packets head before).keep keeps).self
    · exact packets head after
  once := by
    rw [freed, List.flatMap_append, flatMap_chain_keep ledger.packets keeps]
    have apart : (pool.freed ++ held.flatMap pool.chain).Disjoint
        (returned ++ fresh.flatMap pool'.chain) := by
      intro id before after
      have old : id < pool.attempts := by
        rcases List.mem_append.mp before with freed | held
        · exact ledger.freed id freed
        · obtain ⟨head, member, among⟩ := List.mem_flatMap.mp held
          exact (ledger.packets head member).allocated id among
      exact Nat.not_le_of_lt old (new id after)
    refine (List.Perm.nodup_iff ?_).mp (List.nodup_append'.mpr ⟨ledger.once, once, apart⟩)
    rw [List.append_assoc, List.append_assoc]
    refine List.Perm.append_left _ ?_
    rw [← List.append_assoc, ← List.append_assoc]
    exact List.perm_append_comm.append_right _

/-- Freeing packets keeps the ledger of the others. -/
theorem MbufPool.Ledger.free {held heads : List MbufId} (ledger : pool.Ledger (held ++ heads)) :
    (pool.freeBulk heads).Ledger held := by
  rw [freeBulk_eq]
  refine {
    freed := fun id member => ?_
    packets := fun head member => ?_
    once := ?_ }
  · rcases List.mem_append.mp member with before | freed
    · exact ledger.freed id before
    · obtain ⟨head, among, segment⟩ := List.mem_flatMap.mp freed
      exact (ledger.packets head (List.mem_append_right _ among)).allocated id segment
  · obtain ⟨linked, increasing, allocated⟩ := ledger.packets head (List.mem_append_left _ member)
    exact ⟨linked, increasing, allocated⟩
  · have once := ledger.once
    rw [List.flatMap_append] at once
    refine (List.Perm.nodup_iff ?_).mp once
    show List.Perm _ (pool.freed ++ heads.flatMap pool.chain ++ held.flatMap pool.chain)
    rw [List.append_assoc]
    exact List.perm_append_comm.append_left _

/-- The ledger when packets were built as the books say. -/
theorem MbufPool.Ledger.books {held heads : List MbufId} (ledger : pool.Ledger held)
    (books : pool.Books answers pool' heads) : pool'.Ledger (held ++ heads) := by
  obtain ⟨chains, returned, packets, freed, perm⟩ := books.settled
  rw [← chains_eq packets] at perm
  refine ledger.grow returned books.keeps freed (packets_of_chains packets)
    (perm.nodup_iff.mpr (granted_nodup _ _)) (fun id member => ?_) fun id member => ?_
  · exact (mem_granted (perm.mem_iff.mp member)).1
  · exact (mem_granted (perm.mem_iff.mp (List.mem_append_left _ member))).2

/-- The ledger does not see writes that touch no link. -/
theorem MbufPool.Ledger.write {held : List MbufId} (ledger : pool.Ledger held)
    (links : pool'.links = pool.links) (attempts : pool'.attempts = pool.attempts)
    (freed : pool'.freed = pool.freed) : pool'.Ledger held := by
  have keeps : pool.Keeps pool' := ⟨attempts.ge, fun id _ => congrFun links id⟩
  have grown : pool'.Ledger (held ++ []) := ledger.grow [] keeps
    (freed.trans (List.append_nil _).symm) (by simp) (by simp) (by simp) (by simp)
  rwa [List.append_nil] at grown

/-! ### Copied and received packets -/

/-- What a copy does to the pool: a granted copy is a packet of new buffers that hold the
segments granted, and nothing else changes. -/
theorem MbufPool.copy_spec {src : MbufId} {mbuf : Option MbufId}
    (run : pool.copy answers src = (mbuf, pool')) :
    pool.Keeps pool' ∧ pool'.freed = pool.freed ∧
      ∀ fresh ∈ mbuf, fresh = pool.attempts ∧ ∃ segments,
        answers.copy pool.attempts (pool.bytes src) = some segments ∧
        pool'.mbufs = pool.placeCopy (pool.mbufs src) segments ∧
        pool'.Packet fresh (List.range' pool.attempts (segments.rest.length + 1)) := by
  rw [copy] at run
  split at run
  · obtain ⟨rfl, rfl⟩ := Prod.mk.inj run
    exact ⟨⟨Nat.le_succ _, fun _ _ => rfl⟩, rfl, by simp⟩
  · next segments granted =>
    obtain ⟨rfl, rfl⟩ := Prod.mk.inj run
    refine ⟨⟨by show _ ≤ _ + 1 + _; omega, fun id allocated => ?_⟩, rfl, ?_⟩
    · show (pool.placeCopy _ segments id).next = _
      rw [placeCopy, if_neg (Nat.ne_of_lt allocated),
        if_neg fun placed => Nat.lt_asymm allocated placed.1]
      rfl
    · rintro fresh ⟨⟩
      refine ⟨rfl, segments, granted, rfl, {
        linked := Chain.consecutive (fun id low high => ?_) ?_
        increasing := List.pairwise_lt_range'
        allocated := fun id member => ?_ }⟩
      · show (pool.placeCopy _ segments id).next = _
        by_cases first : id = pool.attempts
        · have more : segments.rest ≠ [] := by
            rintro none
            rw [none] at high
            exact absurd (Nat.lt_of_le_of_lt low high) (Nat.lt_irrefl _)
          rw [placeCopy, if_pos first]
          exact if_neg more
        · rw [placeCopy, if_neg first,
            if_pos ⟨Nat.lt_of_le_of_ne low (Ne.symm first), Nat.le_of_lt high⟩]
          exact if_neg (Nat.ne_of_lt high)
      · show (pool.placeCopy _ segments _).next = none
        cases rest : segments.rest with
        | nil =>
          rw [placeCopy, List.length_nil, Nat.add_zero, if_pos rfl]
          exact if_pos rest
        | cons segment more =>
          rw [placeCopy, rest, if_neg (by simp), if_pos ⟨by simp, Nat.le_refl _⟩]
          exact if_pos rfl
      · have inRange := (List.mem_range'_1.mp member).2
        show id < pool.attempts + 1 + segments.rest.length
        rwa [Nat.add_right_comm, Nat.add_assoc]

/-- A granted copy joins the packets held. -/
theorem MbufPool.Ledger.copied {held : List MbufId} {src : MbufId} {mbuf : Option MbufId}
    (ledger : pool.Ledger held) (run : pool.copy answers src = (mbuf, pool')) :
    pool'.Ledger (held ++ mbuf.toList) := by
  obtain ⟨keeps, freed, granted⟩ := copy_spec run
  rw [← List.append_nil pool.freed] at freed
  cases mbuf with
  | none => exact ledger.grow [] keeps freed (by simp) (by simp) (by simp) (by simp)
  | some fresh =>
    obtain ⟨-, segments, -, -, packet⟩ := granted fresh rfl
    have chain : [fresh].flatMap pool'.chain =
        List.range' pool.attempts (segments.rest.length + 1) := by
      rw [List.flatMap_singleton, packet.chain_eq]
    refine ledger.grow [] keeps freed (fun head member => ?_) ?_ (fun id member => ?_) (by simp)
    · rw [List.mem_singleton.mp member]
      exact packet.self
    · rw [Option.toList_some, List.nil_append, chain]
      exact List.nodup_range'
    · rw [Option.toList_some, List.nil_append, chain] at member
      exact (List.mem_range'_1.mp member).1

theorem MbufPool.keeps_receive (pool : MbufPool) (count : ℕ) :
    pool.Keeps (pool.receive count).2 := by
  refine ⟨Nat.le_add_right _ _, fun id allocated => ?_⟩
  show (if _ then ({} : Mbuf) else _).next = _
  rw [if_neg fun placed => Nat.not_le_of_lt allocated placed.1]
  rfl

/-- What is received is freed, and nothing else changes. -/
theorem MbufPool.Ledger.received {held : List MbufId} (ledger : pool.Ledger held) (count : ℕ) :
    ((pool.receive count).2.freeBulk (pool.receive count).1).Ledger held := by
  have packet : ∀ head ∈ (pool.receive count).1, (pool.receive count).2.Packet head [head] := by
    intro head member
    obtain ⟨offset, below, rfl⟩ := List.mem_map.mp member
    have inRange : pool.attempts ≤ pool.attempts + offset ∧
        pool.attempts + offset < pool.attempts + count :=
      ⟨Nat.le_add_right _ _, Nat.add_lt_add_left (List.mem_range.mp below) _⟩
    refine ⟨⟨rfl, ?_⟩, List.pairwise_singleton _ _, fun id member => ?_⟩
    · show (if _ then ({} : Mbuf) else _).next = none
      rw [if_pos inRange]
    · rw [List.mem_singleton.mp member]
      exact inRange.2
  have chains : (pool.receive count).1.flatMap (pool.receive count).2.chain =
      (pool.receive count).1 := by
    rw [List.flatMap_congr fun head member => (packet head member).chain_eq]
    exact List.flatMap_singleton' _
  refine MbufPool.Ledger.free (ledger.grow [] (pool.keeps_receive count)
    (List.append_nil _).symm (fun head member => (packet head member).self) ?_ ?_ (by simp))
  · rw [List.nil_append, chains]
    exact (List.nodup_map_iff fun first second => Nat.add_left_cancel).mpr List.nodup_range
  · rw [List.nil_append, chains]
    intro id member
    obtain ⟨offset, -, rfl⟩ := List.mem_map.mp member
    exact Nat.le_add_right _ _

end TrafficGenerator
