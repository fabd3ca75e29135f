/-
This file is about singly linked lists in a memory: a function gives the
successor of every cell, and a chain is the list of the cells reached from a
start. It says when following the links visits exactly the chain, which writes
leave a chain alone, and how a chain grows at its end.
-/

import Mathlib.Data.List.Perm.Subperm
import Mathlib.Data.List.Range

namespace LinkedChain

variable {Cell : Type*}

/-- The cells reached from `start`, at most `fuel` of them. -/
def follow (next : Cell → Option Cell) : ℕ → Option Cell → List Cell
  | 0, _ => []
  | _ + 1, none => []
  | fuel + 1, some cell => cell :: follow next fuel (next cell)

/-- The links from `start` visit exactly the cells, in this order, and end. -/
def Chain (next : Cell → Option Cell) : Option Cell → List Cell → Prop
  | start, [] => start = none
  | start, cell :: rest => start = some cell ∧ Chain next (next cell) rest

/-- Following a chain with enough fuel gives its cells. -/
theorem Chain.follow_eq {next : Cell → Option Cell} {start : Option Cell} {cells : List Cell}
    (chain : Chain next start cells) {fuel : ℕ} (enough : cells.length ≤ fuel) :
    follow next fuel start = cells := by
  induction cells generalizing start fuel with
  | nil =>
    obtain rfl : start = none := chain
    cases fuel <;> rfl
  | cons cell rest inductionHypothesis =>
    obtain ⟨rfl, chain⟩ := chain
    obtain ⟨fuel, rfl⟩ : ∃ less, fuel = less + 1 :=
      ⟨fuel - 1, (Nat.sub_add_cancel (Nat.le_trans (Nat.succ_pos _) enough)).symm⟩
    rw [follow, inductionHypothesis chain (Nat.le_of_succ_le_succ enough)]

/-- A chain does not see the links of other cells. -/
theorem Chain.congr {next next' : Cell → Option Cell} {start : Option Cell} {cells : List Cell}
    (chain : Chain next start cells) (same : ∀ cell ∈ cells, next' cell = next cell) :
    Chain next' start cells := by
  induction cells generalizing start with
  | nil => exact chain
  | cons cell rest inductionHypothesis =>
    refine ⟨chain.1, ?_⟩
    rw [same cell List.mem_cons_self]
    exact inductionHypothesis chain.2 fun other member => same other (List.mem_cons_of_mem _ member)

/-- A cell linked behind the last one of a chain becomes the last one. -/
theorem Chain.snoc {next next' : Cell → Option Cell} {start : Option Cell} {front : List Cell}
    {last fresh : Cell} (chain : Chain next start (front ++ [last]))
    (same : ∀ cell ∈ front, next' cell = next cell) (linked : next' last = some fresh)
    (ends : next' fresh = none) : Chain next' start (front ++ [last] ++ [fresh]) := by
  induction front generalizing start with
  | nil => exact ⟨chain.1, linked, ends⟩
  | cons cell rest inductionHypothesis =>
    refine ⟨chain.1, ?_⟩
    rw [same cell List.mem_cons_self]
    exact inductionHypothesis chain.2 fun other member => same other (List.mem_cons_of_mem _ member)

/-- Consecutive cells, each linked to the one after it. -/
theorem Chain.consecutive {next : ℕ → Option ℕ} {count start : ℕ}
    (linked : ∀ cell, start ≤ cell → cell < start + count → next cell = some (cell + 1))
    (ends : next (start + count) = none) :
    Chain next (some start) (List.range' start (count + 1)) := by
  induction count generalizing start with
  | zero => exact ⟨rfl, ends⟩
  | succ count inductionHypothesis =>
    rw [List.range'_succ]
    refine ⟨rfl, ?_⟩
    rw [linked start le_rfl (by omega)]
    refine inductionHypothesis (fun cell low high => linked cell (by omega) (by omega)) ?_
    rw [← ends]
    congr 1
    omega

/-- Increasing numbers below a bound are at most as many as the bound. -/
theorem length_le_of_increasing {cells : List ℕ} {bound : ℕ} (increasing : cells.Pairwise (· < ·))
    (below : ∀ cell ∈ cells, cell < bound) : cells.length ≤ bound := by
  have nodup : cells.Nodup := increasing.imp fun less => Nat.ne_of_lt less
  have subset : cells ⊆ List.range bound := fun cell member =>
    List.mem_range.mpr (below cell member)
  have bounded := (nodup.subperm subset).length_le
  rwa [List.length_range] at bounded

end LinkedChain
