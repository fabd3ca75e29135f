/-
This file asks when the two counters of the ring stay between zero and its
capacity. A counter loads the head and then the tail, and the threads of the
ring move on between the two loads: the tail it finds belongs to a later ring
than the head. The pops between the loads may then have taken more than the ring
held at the first one, and the unsigned difference starts over from the top.

The number of elements taken beyond those held is the overrun. Neither counter
leaves its range exactly when the overrun is zero, or so close to a whole
revolution of the 64-bit indices that the difference is small again. A counter
called by the producer has no push between its loads, one called by the consumer
no pop, so that theirs is zero. A third thread's is not: one push and one pop
between its loads are enough.
-/

import TrafficGenerator.SpscFifo

namespace TrafficGenerator

variable {Value : Type} {ring : RingSize} {threads next first second : SpscThreads Value}

/-! ### What a step does to the two logs -/

/-- Only the producer's steps add to the log of pushed values. -/
theorem RingSize.pushed_of_step {label : SpscLabel Value} (other : label ≠ .producer)
    (step : ring.threadsStep threads label = some next) : next.pushed = threads.pushed := by
  cases RingSize.threadsStep_spec step with
  | loadTail | construct | storeHead => exact absurd rfl other
  | push | pop | loadHead | consume | fault | storeTail => rfl

/-- Only the consumer's steps add to the log of popped values. -/
theorem RingSize.popped_of_step {label : SpscLabel Value} (other : label ≠ .consumer)
    (step : ring.threadsStep threads label = some next) : next.popped = threads.popped := by
  cases RingSize.threadsStep_spec step with
  | loadHead | consume | fault | storeTail => exact absurd rfl other
  | push | loadTail | construct | storeHead | pop => rfl

/-- The log of popped values never shrinks. -/
theorem RingSize.popped_prefix_of_step (label : SpscLabel Value)
    (step : ring.threadsStep threads label = some next) : threads.popped <+: next.popped := by
  cases RingSize.threadsStep_spec step with
  | storeTail => exact List.prefix_append _ _
  | push | loadTail | construct | storeHead | pop | loadHead | consume | fault =>
    exact List.prefix_rfl

/-! ### The calls -/

/-- The thread a counter is called from. -/
inductive Caller where
  | producer
  | consumer
  | third
deriving DecidableEq

/-- The steps the ring may take inside the caller's call: those of the other threads. -/
def Caller.Allows : Caller → SpscLabel Value → Prop
  | .producer, .push _ | .producer, .producer => False
  | .consumer, .pop _ | .consumer, .consumer => False
  | _, _ => True

/-- One call of a counter in an interleaving of the two threads: the ring is `first` at its
load of the head, and `second` at its load of the tail. -/
structure RingSize.CountCall (ring : RingSize) (caller : Caller)
    (before between : List (SpscLabel Value)) (first second : SpscThreads Value) : Prop where
  atHead : (ring.machine Value).run {} before = some first
  others : ∀ label ∈ between, caller.Allows label
  atTail : (ring.machine Value).run first between = some second

/-- The elements the pops between the two loads have taken. -/
def takenBetween (first second : SpscThreads Value) : List Value :=
  second.popped.drop first.popped.length

/-- How many more elements were taken between the two loads than the ring held at the first. -/
def overrun (first second : SpscThreads Value) : ℕ :=
  (takenBetween first second).length - first.queue.length

/-- The overrun is nothing, or so close to a whole revolution of the indices, from below, that
they are no further apart than the size. -/
def RingSize.InStep (ring : RingSize) (first second : SpscThreads Value) : Prop :=
  overrun first second % 2 ^ 64 = 0 ∨
    2 ^ 64 - ring.size.toNat ≤ overrun first second % 2 ^ 64

variable {caller : Caller} {before between : List (SpscLabel Value)}

namespace RingSize.CountCall

theorem invariants (call : ring.CountCall caller before between first second) :
    ring.Invariant first ∧ ring.Invariant second := by
  have atHead := ring.invariant_of_run call.atHead
  exact ⟨atHead, (ring.machine Value).run_invariant ring.Invariant
    (fun _ label _ invariant step => invariant.step label step) atHead call.atTail⟩

theorem popped_prefix (call : ring.CountCall caller before between first second) :
    first.popped <+: second.popped :=
  (ring.machine Value).run_invariant (fun threads => first.popped <+: threads.popped)
    (fun _ label _ grown step => grown.trans (ring.popped_prefix_of_step label step))
    List.prefix_rfl call.atTail

theorem overrun_eq (call : ring.CountCall caller before between first second) :
    overrun first second = second.popped.length - first.pushed.length := by
  have ordered := call.invariants.1.ordered
  unfold overrun takenBetween
  rw [call.invariants.1.queue_length, List.length_drop]
  omega

/-- Without an overrun the counter is the number of elements pushed by the first load and not
popped by the second. -/
theorem countPopSlots_eq (call : ring.CountCall caller before between first second)
    (within : second.popped.length ≤ first.pushed.length) :
    (countPopSlots first.shared second.shared).toNat =
      first.pushed.length - second.popped.length := by
  have bounded := call.invariants.1.bounded
  have grown := call.popped_prefix.length_le
  have sizeLt := ring.size_lt
  rw [countPopSlots, call.invariants.1.head, call.invariants.2.tail,
    Circular.toNat_ofNat_sub within (by omega)]

/-- With an overrun the counter has started over from the top. -/
theorem countPopSlots_eq_of_overrun (call : ring.CountCall caller before between first second)
    (beyond : first.pushed.length ≤ second.popped.length) :
    (countPopSlots first.shared second.shared).toNat =
      (2 ^ 64 - overrun first second % 2 ^ 64) % 2 ^ 64 := by
  rw [call.overrun_eq, countPopSlots, call.invariants.1.head, call.invariants.2.tail,
    Circular.toNat_ofNat_sub_ahead beyond]

theorem countPopSlots_le_iff (call : ring.CountCall caller before between first second) :
    countPopSlots first.shared second.shared ≤ ring.capacity ↔ ring.InStep first second := by
  have sizeLt := ring.size_lt
  unfold RingSize.capacity RingSize.InStep
  rw [UInt64.le_iff_toNat_le]
  rcases Nat.le_total second.popped.length first.pushed.length with within | beyond
  · have bounded := call.invariants.1.bounded
    have grown := call.popped_prefix.length_le
    rw [call.countPopSlots_eq within, call.overrun_eq]
    omega
  · rw [call.countPopSlots_eq_of_overrun beyond]
    omega

/-- The producer has no push between its two loads, and the consumer no pop. -/
theorem overrun_eq_zero (call : ring.CountCall caller before between first second)
    (inside : caller ≠ .third) : overrun first second = 0 := by
  rw [call.overrun_eq, Nat.sub_eq_zero_iff_le]
  cases caller with
  | third => exact absurd rfl inside
  | producer =>
    have same : second.pushed = first.pushed :=
      (ring.machine Value).run_invariant_of_labels (fun threads => threads.pushed = first.pushed)
        (Caller.producer.Allows) (fun _ label _ same allowed step =>
          (ring.pushed_of_step (fun own => by rw [own] at allowed; exact allowed) step).trans same)
        rfl call.others call.atTail
    have ordered := call.invariants.2.ordered
    rw [same] at ordered
    omega
  | consumer =>
    have same : second.popped = first.popped :=
      (ring.machine Value).run_invariant_of_labels (fun threads => threads.popped = first.popped)
        (Caller.consumer.Allows) (fun _ label _ same allowed step =>
          (ring.popped_of_step (fun own => by rw [own] at allowed; exact allowed) step).trans same)
        rfl call.others call.atTail
    have ordered := call.invariants.1.ordered
    rw [same]
    omega

end RingSize.CountCall

/-- What is left of the capacity is within it exactly when what is taken off it is. -/
theorem RingSize.countPushSlots_le_iff (ring : RingSize) (atHead atTail : SpscRing Value) :
    ring.countPushSlots atHead atTail ≤ ring.capacity ↔
      countPopSlots atHead atTail ≤ ring.capacity := by
  have sizeLt := ring.size_lt
  have countLt := (countPopSlots atHead atTail).toNat_lt
  unfold RingSize.countPushSlots RingSize.capacity
  rw [UInt64.le_iff_toNat_le, UInt64.le_iff_toNat_le, UInt64.toNat_sub]
  omega

/-! ### The range of the counters -/

/-- In every interleaving, with any number of steps of the other threads between the two loads,
each counter is between zero and the capacity exactly when the pops between the loads take no
more than the ring held at the first one, up to the wrap-around of the indices; a call of the
producer or of the consumer is always so. -/
theorem count_slots_in_range_iff (ring : RingSize)
    (call : ring.CountCall caller before between first second) :
    (countPopSlots first.shared second.shared ≤ ring.capacity ↔ ring.InStep first second) ∧
      (ring.countPushSlots first.shared second.shared ≤ ring.capacity ↔
        ring.InStep first second) ∧
      (caller ≠ .third → ring.InStep first second) := by
  refine ⟨call.countPopSlots_le_iff, ?_, fun inside => ?_⟩
  · rw [ring.countPushSlots_le_iff]
    exact call.countPopSlots_le_iff
  · unfold RingSize.InStep
    rw [call.overrun_eq_zero inside]
    exact Or.inl rfl

/-- One push of one value, from its start to its end. -/
def onePush : List (SpscLabel ℕ) := [.push (.single 7), .producer, .producer]

/-- One pop of one value. -/
def onePop : List (SpscLabel ℕ) := [.pop .single, .consumer, .consumer, .consumer]

/-- The ring of two slots after the push. -/
def ringPushed : SpscThreads ℕ := ((twoSlots.machine ℕ).run {} onePush).get (by decide)

/-- The ring of two slots after the push and the pop. -/
def ringPopped : SpscThreads ℕ := ((twoSlots.machine ℕ).run {} (onePush ++ onePop)).get (by decide)

/-- The producer counts while the consumer pops the value it has pushed before. -/
theorem count_slots_in_range_twoSlots :
    twoSlots.CountCall .producer onePush onePop ringPushed ringPopped ∧
      countPopSlots ringPushed.shared ringPopped.shared = 0 ∧
      (countPopSlots ringPushed.shared ringPopped.shared ≤ twoSlots.capacity ↔
        twoSlots.InStep ringPushed ringPopped) ∧
      (twoSlots.countPushSlots ringPushed.shared ringPopped.shared ≤ twoSlots.capacity ↔
        twoSlots.InStep ringPushed ringPopped) ∧
      (Caller.producer ≠ .third → twoSlots.InStep ringPushed ringPopped) := by
  have atHead : (twoSlots.machine ℕ).run {} onePush = some ringPushed := (Option.some_get _).symm
  have atTail : (twoSlots.machine ℕ).run {} (onePush ++ onePop) = some ringPopped :=
    (Option.some_get _).symm
  rw [Machine.run_append, atHead, Option.bind_some] at atTail
  have call : twoSlots.CountCall .producer onePush onePop ringPushed ringPopped := {
    atHead
    others := by simp [onePop, Caller.Allows]
    atTail }
  exact ⟨call, by decide, count_slots_in_range_iff twoSlots call⟩

/-- A third thread loads the head of the empty ring, one value is pushed and popped, and the
thread loads the tail: the ring of two slots is said to hold `2 ^ 64 - 1` elements, and to have
room for three. -/
theorem count_slots_overrun :
    twoSlots.CountCall .third [] (onePush ++ onePop) {} ringPopped ∧
      (countPopSlots {} ringPopped.shared).toNat = 2 ^ 64 - 1 ∧
      twoSlots.countPushSlots {} ringPopped.shared = 3 ∧
      ¬ countPopSlots {} ringPopped.shared ≤ twoSlots.capacity ∧
      ¬ twoSlots.countPushSlots {} ringPopped.shared ≤ twoSlots.capacity := by
  have call : twoSlots.CountCall .third [] (onePush ++ onePop) {} ringPopped := {
    atHead := rfl
    others := fun _ _ => trivial
    atTail := (Option.some_get _).symm }
  exact ⟨call, by decide, by decide, by decide, by decide⟩

end TrafficGenerator
