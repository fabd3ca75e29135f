/-
This file is the abstract bounded queue: a list of values that grows at its end
while there is room for what is added, and shrinks at its front. It is what a
ring buffer is for, and what the programs on the two sides of one may assume.
-/

import TrafficGenerator.Transition

namespace BoundedFifo

variable {Value : Type*}

/-- Add values at the end, `none` when they do not all fit. -/
def push (capacity : ℕ) (queue values : List Value) : Option (List Value) :=
  if queue.length + values.length ≤ capacity then some (queue ++ values) else none

/-- Take `count` values off the front, `none` when there are not that many. -/
def pop (queue : List Value) (count : ℕ) : Option (List Value × List Value) :=
  if count ≤ queue.length then some (queue.take count, queue.drop count) else none

theorem push_of_le {capacity : ℕ} {queue values : List Value}
    (room : queue.length + values.length ≤ capacity) :
    push capacity queue values = some (queue ++ values) := if_pos room

theorem pop_eq_some {queue taken rest : List Value} {count : ℕ} :
    pop queue count = some (taken, rest) ↔
      queue = taken ++ rest ∧ taken.length = count := by
  rw [pop]
  constructor
  · intro popped
    split at popped
    · obtain ⟨rfl, rfl⟩ := Prod.mk.inj (Option.some.inj popped)
      exact ⟨(List.take_append_drop _ _).symm, by rwa [List.length_take, Nat.min_eq_left]⟩
    · exact absurd popped (by simp)
  · rintro ⟨rfl, rfl⟩
    rw [if_pos (by rw [List.length_append]; exact Nat.le_add_right _ _), List.take_left,
      List.drop_left]

/-- No values can be taken off any queue. -/
theorem pop_zero (queue : List Value) : pop queue 0 = some ([], queue) := if_pos (Nat.zero_le _)

/-- What a step of the queue's user does to it. -/
inductive Label (Value : Type*) where
  | push (values : List Value)
  | pop (count : ℕ)

/-- The queue as a machine. -/
def machine (capacity : ℕ) (Value : Type*) : Machine (List Value) (Label Value) where
  step queue
    | .push values => push capacity queue values
    | .pop count => (pop queue count).map Prod.snd

/-- No run overfills the queue. -/
theorem length_le {capacity : ℕ} {queue : List Value}
    (reachable : (machine capacity Value).Reachable [] queue) : queue.length ≤ capacity := by
  refine reachable.invariant _ (fun queue => queue.length ≤ capacity) (Nat.zero_le _)
    fun before label after bound step => ?_
  cases label with
  | push values =>
    simp only [machine, push] at step
    split at step
    · obtain rfl := Option.some.inj step
      rwa [List.length_append]
    · exact absurd step (by simp)
  | pop count =>
    simp only [machine, pop] at step
    split at step
    · obtain rfl := Option.some.inj step
      rw [List.length_drop]
      omega
    · exact absurd step (by simp)

end BoundedFifo
