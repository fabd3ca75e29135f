/-
This file proves that the ring is a bounded FIFO queue under every interleaving
of its two threads.

The indices are read as the lengths of the logs of pushed and popped values,
wrapped to 64 bits. The invariant relates the six variables of the ring to the
two logs: the producer's cached tail lags behind the true one and leaves room
for what the producer is constructing, the consumer's cached head lies between
the true tail and the true head, and the slots show exactly the pushed values
from the tail on, with those under construction behind them. It holds at every
step inside a call, so it says what each thread may rely on whatever the other
one does meanwhile.
-/

import TrafficGenerator.SpscRing
import TrafficGenerator.BoundedFifo

namespace TrafficGenerator

variable {Value State : Type} (ring : RingSize)

/-! ### The size and the mask -/

theorem RingSize.exists_pow : ∃ exponent < 64, ring.size.toNat = 2 ^ exponent := by
  have nonzero : ring.size.toNat ≠ 0 := fun zero => by
    have positive := UInt64.lt_iff_toNat_lt.mp ring.positive
    rw [zero] at positive
    exact absurd positive (Nat.not_lt_zero _)
  have one : (1 : UInt64) ≤ ring.size := UInt64.le_iff_toNat_le.mpr (by
    rw [UInt64.toNat_one]
    omega)
  have masked := congrArg UInt64.toNat ring.powerOfTwo
  rw [UInt64.toNat_and, UInt64.toNat_sub_of_le _ _ one, UInt64.toNat_zero,
    UInt64.toNat_one] at masked
  obtain ⟨exponent, power⟩ := (Nat.and_sub_one_eq_zero_iff_isPowerOfTwo nonzero).mp masked
  refine ⟨exponent, ?_, power⟩
  have bound := ring.size.toNat_lt
  rw [power] at bound
  exact (Nat.pow_lt_pow_iff_right (by decide)).mp bound

theorem RingSize.size_pos : 0 < ring.size.toNat := by
  obtain ⟨exponent, _, power⟩ := ring.exists_pow
  rw [power]
  exact Nat.two_pow_pos exponent

theorem RingSize.size_lt : ring.size.toNat < 2 ^ 64 := ring.size.toNat_lt

/-- The slot of a wrapped index is the position modulo the size. -/
theorem RingSize.slot_ofNat (position : ℕ) :
    ring.slot (UInt64.ofNat position) = position % ring.size.toNat := by
  obtain ⟨exponent, small, power⟩ := ring.exists_pow
  have one : (1 : UInt64) ≤ ring.size := UInt64.le_iff_toNat_le.mpr ring.size_pos
  rw [RingSize.slot, RingSize.sizeMask, UInt64.toNat_and, UInt64.toNat_sub_of_le _ _ one,
    UInt64.toNat_one, UInt64.toNat_ofNat', power, Nat.and_two_pow_sub_one_eq_mod,
    Nat.mod_mod_of_dvd _ (Nat.pow_dvd_pow 2 small.le)]

theorem ofNat_add_ofNat (first second : ℕ) :
    UInt64.ofNat first + UInt64.ofNat second = UInt64.ofNat (first + second) :=
  (UInt64.ofNat_add first second).symm

/-- The room the producer computes from a cached tail. -/
theorem RingSize.cntAvail_ofNat {head tail : ℕ} (order : tail ≤ head)
    (room : head ≤ tail + ring.size.toNat) :
    (ring.cntAvail (UInt64.ofNat head) (UInt64.ofNat tail)).toNat =
      tail + ring.size.toNat - head := by
  have sizeLt := ring.size_lt
  have used := Circular.toNat_ofNat_sub order (by omega)
  rw [RingSize.cntAvail, UInt64.toNat_sub_of_le _ _ (UInt64.le_iff_toNat_le.mpr (by omega)), used]
  omega

/-- The single `try_push` finds the ring full exactly when the cached room is gone. -/
theorem RingSize.sub_eq_size {head tail : ℕ} (order : tail ≤ head)
    (room : head ≤ tail + ring.size.toNat) :
    UInt64.ofNat head - UInt64.ofNat tail = ring.size ↔ head = tail + ring.size.toNat := by
  have sizeLt := ring.size_lt
  rw [← UInt64.toNat_inj, Circular.toNat_ofNat_sub order (by omega)]
  omega

/-! ### The two loops over the slots -/

variable {log : List Value} {low : ℕ}

/-- The construction loop appends its values to the log the slots show. -/
theorem RingSize.constructAt_shows {buff : ℕ → Option Value} (values : List Value)
    (shown : Circular.Shows ring.size.toNat buff log low) (after : low ≤ log.length)
    (room : log.length + values.length ≤ low + ring.size.toNat) :
    Circular.Shows ring.size.toNat (ring.constructAt buff (UInt64.ofNat log.length) values)
      (log ++ values) low := by
  induction values generalizing buff log with
  | nil => rwa [List.append_nil]
  | cons value rest inductionHypothesis =>
    rw [List.length_cons] at room
    rw [RingSize.constructAt, ring.slot_ofNat]
    have written := shown.write value after (by omega)
    have length : (log ++ [value]).length = log.length + 1 := List.length_append
    have next := inductionHypothesis written (by omega) (by omega)
    rw [length, ← ofNat_add_ofNat] at next
    rwa [List.append_assoc] at next

/-- Hand a list of ranges to a callable, stopping after the first range it does not consume
whole. -/
def feed (fn : ConsumeFn State Value) : State → List (List Value) → State × ℕ
  | state, [] => (state, 0)
  | state, range :: rest =>
    if (fn.call state range).2 = range.length then
      ((feed fn (fn.call state range).1 rest).1,
        (fn.call state range).2 + (feed fn (fn.call state range).1 rest).2)
    else fn.call state range

theorem feed_whole (fn : ConsumeFn State Value) {state : State} {range : List Value}
    (rest : List (List Value)) (whole : (fn.call state range).2 = range.length) :
    feed fn state (range :: rest) = ((feed fn (fn.call state range).1 rest).1,
      (fn.call state range).2 + (feed fn (fn.call state range).1 rest).2) := by
  rw [feed, if_pos whole]

theorem feed_short (fn : ConsumeFn State Value) {state : State} {range : List Value}
    (rest : List (List Value)) (short : (fn.call state range).2 ≠ range.length) :
    feed fn state (range :: rest) = fn.call state range := by
  rw [feed, if_neg short]

theorem feed_singleton (fn : ConsumeFn State Value) (state : State) (range : List Value) :
    feed fn state [range] = fn.call state range := by
  simp only [feed, Nat.add_zero, ite_self]

/-- Without a wrap-around the elements are handed over as one range. -/
theorem RingSize.consumeRanges_straight (fn : ConsumeFn State Value) {buff : ℕ → Option Value}
    (state : State) (count : ℕ) (shown : Circular.Shows ring.size.toNat buff log low)
    (positive : 0 < count) (before : low + count ≤ log.length)
    (ended : log.length ≤ low + ring.size.toNat)
    (fits : low % ring.size.toNat + count < ring.size.toNat) :
    ring.consumeRanges fn buff (UInt64.ofNat low) (UInt64.ofNat count) state =
      some (Circular.eraseRange buff (low % ring.size.toNat)
          (fn.call state ((log.drop low).take count)).2,
        fn.call state ((log.drop low).take count)) := by
  have sizeLt := ring.size_lt
  have countNat : (UInt64.ofNat count).toNat = count := by
    rw [UInt64.toNat_ofNat']
    exact Nat.mod_eq_of_lt (by omega)
  have past : (low + count) % ring.size.toNat = low % ring.size.toNat + count := by
    rw [← Nat.mod_add_mod, Nat.mod_eq_of_lt fits]
  have read := shown.readRange_eq count low le_rfl before (by omega) fits.le
  rw [RingSize.consumeRanges, ofNat_add_ofNat, ring.slot_ofNat, ring.slot_ofNat, countNat, past,
    if_pos (by omega), read]
  rfl

/-- With a wrap-around the first range runs to the end of the buffer, and the second one, from
slot 0 on, is handed over only after the first was consumed whole. -/
theorem RingSize.consumeRanges_wrapped (fn : ConsumeFn State Value) {buff : ℕ → Option Value}
    (state : State) (count first : ℕ) (shown : Circular.Shows ring.size.toNat buff log low)
    (before : low + count ≤ log.length) (ended : log.length ≤ low + ring.size.toNat)
    (toEnd : low % ring.size.toNat + first = ring.size.toNat) (wraps : first ≤ count) :
    ∃ buff', ring.consumeRanges fn buff (UInt64.ofNat low) (UInt64.ofNat count) state =
        some (buff', feed fn state [(log.drop low).take first,
          (log.drop (low + first)).take (count - first)]) ∧
      Circular.Shows ring.size.toNat buff' log (low + (feed fn state [(log.drop low).take first,
        (log.drop (low + first)).take (count - first)]).2) := by
  have inside := Nat.mod_lt low ring.size_pos
  have past : (low + count) % ring.size.toNat = count - first := by
    rw [← Nat.mod_add_mod, Nat.mod_eq_sub_mod (by omega), Nat.mod_eq_of_lt (by omega)]
    omega
  have startOver : (low + first) % ring.size.toNat = 0 := by
    rw [← Nat.mod_add_mod, toEnd, Nat.mod_self]
  have firstRead := shown.readRange_eq first low le_rfl (by omega) (by omega) toEnd.le
  have firstLength : ((log.drop low).take first).length = first := by
    rw [List.length_take, List.length_drop]
    omega
  have bounded := fn.bounded state ((log.drop low).take first)
  rw [RingSize.consumeRanges, ofNat_add_ofNat, ring.slot_ofNat, ring.slot_ofNat, past,
    if_neg (by omega), show ring.size.toNat - low % ring.size.toNat = first by omega]
  dsimp only
  rw [firstRead, Option.bind_eq_bind, Option.bind_some]
  by_cases whole : (fn.call state ((log.drop low).take first)).2 = first
  · rw [feed_whole fn _ (whole.trans firstLength.symm), feed_singleton, if_pos whole.symm, whole]
    have erased := shown.eraseRange first ended (by omega)
    have secondRead := erased.readRange_eq (count - first) (low + first) le_rfl (by omega)
      (by omega) (by rw [startOver]; omega)
    rw [startOver] at secondRead
    rw [secondRead]
    refine ⟨_, rfl, ?_⟩
    have secondBound := fn.bounded (fn.call state ((log.drop low).take first)).1
      ((log.drop (low + first)).take (count - first))
    rw [List.length_take, List.length_drop] at secondBound
    have rest := erased.eraseRange ((fn.call (fn.call state ((log.drop low).take first)).1
      ((log.drop (low + first)).take (count - first))).2) (by omega) (by rw [startOver]; omega)
    rwa [startOver, Nat.add_assoc] at rest
  · rw [feed_short fn _ (fun same => whole (same.trans firstLength)), if_neg (Ne.symm whole)]
    refine ⟨_, rfl, shown.eraseRange _ ended ?_⟩
    show low % ring.size.toNat + (fn.call state ((log.drop low).take first)).2 ≤ _
    omega

/-- The batched consumption hands over the first `count` elements of the log, in order and as
at most two ranges, and empties exactly the slots of those that were consumed. -/
theorem RingSize.consumeRanges_eq (fn : ConsumeFn State Value) {buff : ℕ → Option Value}
    (state : State) (count : ℕ) (shown : Circular.Shows ring.size.toNat buff log low)
    (positive : 0 < count) (before : low + count ≤ log.length)
    (ended : log.length ≤ low + ring.size.toNat) :
    ∃ ranges buff', ranges.flatten = (log.drop low).take count ∧ ranges.length ≤ 2 ∧
      ring.consumeRanges fn buff (UInt64.ofNat low) (UInt64.ofNat count) state =
        some (buff', feed fn state ranges) ∧
      Circular.Shows ring.size.toNat buff' log (low + (feed fn state ranges).2) := by
  have inside := Nat.mod_lt low ring.size_pos
  by_cases fits : low % ring.size.toNat + count < ring.size.toNat
  · have bounded := fn.bounded state ((log.drop low).take count)
    rw [List.length_take, List.length_drop] at bounded
    refine ⟨[(log.drop low).take count], Circular.eraseRange buff (low % ring.size.toNat)
      (fn.call state ((log.drop low).take count)).2, List.flatten_singleton, Nat.le_succ 1, ?_, ?_⟩
    · rw [feed_singleton]
      exact ring.consumeRanges_straight fn state count shown positive before ended fits
    · rw [feed_singleton]
      exact shown.eraseRange _ ended (by omega)
  · obtain ⟨buff', result, left⟩ := ring.consumeRanges_wrapped fn state count
      (ring.size.toNat - low % ring.size.toNat) shown before ended (by omega) (by omega)
    refine ⟨_, buff', ?_, le_rfl, result, left⟩
    rw [List.flatten_cons, List.flatten_singleton, ← List.drop_drop, ← List.take_add]
    congr 1
    omega

theorem popInto_call (wanted : ℕ) (written range : List Value) :
    popInto.call (wanted, written) range =
      ((wanted - min wanted range.length, written ++ range.take (min wanted range.length)),
        min wanted range.length) := rfl

/-- The callable of `try_pop` takes a prefix of what it is handed, however that is cut into
ranges. -/
theorem feed_popInto (wanted : ℕ) (written : List Value) (ranges : List (List Value)) :
    feed popInto (wanted, written) ranges =
      ((wanted - min wanted ranges.flatten.length, written ++ ranges.flatten.take wanted),
        min wanted ranges.flatten.length) := by
  induction ranges generalizing wanted written with
  | nil => simp only [feed, List.flatten_nil, List.length_nil, Nat.min_zero, Nat.sub_zero,
      List.take_nil, List.append_nil]
  | cons range rest inductionHypothesis =>
    have length : (range :: rest).flatten.length = range.length + rest.flatten.length := by
      rw [List.flatten_cons, List.length_append]
    have call := popInto_call wanted written range
    rcases Nat.lt_or_ge wanted range.length with short | whole
    · rw [Nat.min_eq_left short.le] at call
      rw [feed_short _ _ (by rw [call]; exact short.ne), call, length,
        Nat.min_eq_left (by omega), List.flatten_cons, List.take_append_of_le_length short.le]
    · rw [Nat.min_eq_right whole, List.take_length] at call
      rw [feed_whole _ _ (by rw [call]), call, inductionHypothesis, length, List.flatten_cons,
        List.take_append, List.take_of_length_le whole, List.append_assoc,
        show wanted - range.length - min (wanted - range.length) rest.flatten.length =
          wanted - min wanted (range.length + rest.flatten.length) by omega,
        show range.length + min (wanted - range.length) rest.flatten.length =
          min wanted (range.length + rest.flatten.length) by omega]

/-! ### What a step can do -/

/-- The steps of the two threads by the places they start in. -/
inductive SpscStep (ring : RingSize) (threads : SpscThreads Value) :
    SpscLabel Value → SpscThreads Value → Prop
  | push (call : PushCall Value) (idle : threads.producer = .idle) :
      SpscStep ring threads (.push call)
        { threads with producer := ring.beginPush threads.shared call }
  | loadTail (call : PushCall Value) (prodHead : UInt64)
      (place : threads.producer = .loadTail call prodHead) :
      SpscStep ring threads .producer { threads with
        shared := { threads.shared with prodTail := threads.shared.atomicTail }
        producer := ring.afterTail threads.shared.atomicTail prodHead call }
  | construct (values : List Value) (prodHead : UInt64)
      (place : threads.producer = .construct values prodHead) :
      SpscStep ring threads .producer { threads with
        shared := { threads.shared with
          buff := ring.constructAt threads.shared.buff prodHead values }
        producer := .storeHead values prodHead }
  | storeHead (values : List Value) (prodHead : UInt64)
      (place : threads.producer = .storeHead values prodHead) :
      SpscStep ring threads .producer { threads with
        shared := { threads.shared with atomicHead := prodHead + UInt64.ofNat values.length }
        producer := .idle
        pushed := threads.pushed ++ values }
  | pop (call : PopCall) (idle : threads.consumer = .idle) :
      SpscStep ring threads (.pop call) { threads with consumer := beginPop threads.shared call }
  | loadHead (call : PopCall) (consTail : UInt64)
      (place : threads.consumer = .loadHead call consTail) :
      SpscStep ring threads .consumer { threads with
        shared := { threads.shared with consHead := threads.shared.atomicHead }
        consumer := afterHead threads.shared.atomicHead consTail call }
  | consume (call : PopCall) (consTail : UInt64) (buff : ℕ → Option Value) (values : List Value)
      (place : threads.consumer = .consume call consTail)
      (result : ring.consumeCall threads.shared consTail call = some (buff, values)) :
      SpscStep ring threads .consumer { threads with
        shared := { threads.shared with buff }
        consumer := .storeTail values consTail }
  | fault (call : PopCall) (consTail : UInt64)
      (place : threads.consumer = .consume call consTail)
      (result : ring.consumeCall threads.shared consTail call = none) :
      SpscStep ring threads .consumer { threads with fault := true }
  | storeTail (values : List Value) (consTail : UInt64)
      (place : threads.consumer = .storeTail values consTail) :
      SpscStep ring threads .consumer { threads with
        shared := { threads.shared with atomicTail := consTail + UInt64.ofNat values.length }
        consumer := .idle
        popped := threads.popped ++ values }

theorem RingSize.threadsStep_spec {ring : RingSize} {threads next : SpscThreads Value}
    {label : SpscLabel Value} (step : ring.threadsStep threads label = some next) :
    SpscStep ring threads label next := by
  cases label with
  | push call =>
    rw [RingSize.threadsStep] at step
    split at step
    · next idle => exact Option.some.inj step ▸ .push call idle
    · exact absurd step (by simp)
  | producer =>
    rw [RingSize.threadsStep, RingSize.producerStep] at step
    split at step
    · exact absurd step (by simp)
    · next call prodHead place => exact Option.some.inj step ▸ .loadTail call prodHead place
    · next values prodHead place => exact Option.some.inj step ▸ .construct values prodHead place
    · next values prodHead place => exact Option.some.inj step ▸ .storeHead values prodHead place
  | pop call =>
    rw [RingSize.threadsStep] at step
    split at step
    · next idle => exact Option.some.inj step ▸ .pop call idle
    · exact absurd step (by simp)
  | consumer =>
    rw [RingSize.threadsStep, RingSize.consumerStep] at step
    split at step
    · exact absurd step (by simp)
    · next call consTail place => exact Option.some.inj step ▸ .loadHead call consTail place
    · next call consTail place =>
      split at step
      · next buff values result =>
        exact Option.some.inj step ▸ .consume call consTail buff values place result
      · next result => exact Option.some.inj step ▸ .fault call consTail place result
    · next values consTail place => exact Option.some.inj step ▸ .storeTail values consTail place

/-! ### The invariant -/

/-- The values the producer has promised itself room for in the call it is in. -/
def Producer.promised : Producer Value → List Value
  | .construct values _ | .storeHead values _ => values
  | .idle | .loadTail _ _ => []

/-- The values the producer has constructed behind the published head. -/
def Producer.constructed : Producer Value → List Value
  | .storeHead values _ => values
  | .idle | .loadTail _ _ | .construct _ _ => []

/-- The head the producer loaded at the start of its call. -/
def Producer.loadedHead : Producer Value → Option UInt64
  | .idle => none
  | .loadTail _ prodHead | .construct _ prodHead | .storeHead _ prodHead => some prodHead

/-- The tail the consumer loaded at the start of its call. -/
def Consumer.loadedTail : Consumer Value → Option UInt64
  | .idle => none
  | .loadHead _ consTail | .consume _ consTail | .storeTail _ consTail => some consTail

/-- The number of elements the consumer's call counts on: those it has in flight, or at least
one once it has found the ring not empty. -/
def Consumer.claimed : Consumer Value → ℕ
  | .storeTail values _ => values.length
  | .consume _ _ => 1
  | .idle | .loadHead _ _ => 0

/-- What holds between any two steps of the two threads. The unbounded values of the head and
of the tail are the lengths of the two logs. -/
structure RingSize.Invariant (threads : SpscThreads Value) : Prop where
  head : threads.shared.atomicHead = UInt64.ofNat threads.pushed.length
  tail : threads.shared.atomicTail = UInt64.ofNat threads.popped.length
  /-- The cached tail is an old tail, and leaves room for what the producer has promised. -/
  prodTail : ∃ old ≤ threads.popped.length, threads.shared.prodTail = UInt64.ofNat old ∧
    threads.pushed.length + threads.producer.promised.length ≤ old + ring.size.toNat
  /-- The cached head is an old head that is not behind what the consumer counts on. -/
  consHead : ∃ old ≤ threads.pushed.length, threads.shared.consHead = UInt64.ofNat old ∧
    threads.popped.length + threads.consumer.claimed ≤ old
  loadedHead : ∀ prodHead ∈ threads.producer.loadedHead, prodHead = threads.shared.atomicHead
  loadedTail : ∀ consTail ∈ threads.consumer.loadedTail, consTail = threads.shared.atomicTail
  fifo : threads.popped ++ threads.inFlight <+: threads.pushed
  slots : Circular.Shows ring.size.toNat threads.shared.buff
    (threads.pushed ++ threads.producer.constructed)
    (threads.popped.length + threads.inFlight.length)
  noFault : threads.fault = false

theorem RingSize.invariant_init : ring.Invariant ({} : SpscThreads Value) where
  head := rfl
  tail := rfl
  prodTail := ⟨0, le_rfl, rfl, Nat.zero_le _⟩
  consHead := ⟨0, le_rfl, rfl, le_rfl⟩
  loadedHead := fun _ loaded => absurd loaded (Option.not_mem_none _)
  loadedTail := fun _ loaded => absurd loaded (Option.not_mem_none _)
  fifo := List.nil_prefix
  slots := Circular.shows_empty _
  noFault := rfl

variable {ring} {threads next : SpscThreads Value}

/-- The two logs differ by at most the size of the ring. -/
theorem RingSize.Invariant.bounded (invariant : ring.Invariant threads) :
    threads.pushed.length ≤ threads.popped.length + ring.size.toNat := by
  obtain ⟨old, oldLe, _, room⟩ := invariant.prodTail
  omega

theorem RingSize.Invariant.ordered (invariant : ring.Invariant threads) :
    threads.popped.length + threads.inFlight.length ≤ threads.pushed.length := by
  have length := invariant.fifo.length_le
  rwa [List.length_append] at length

/-! ### The producer's steps -/

/-- Changing only the producer's place keeps the invariant when the new place is consistent
with the ring. -/
theorem RingSize.Invariant.setProducer (invariant : ring.Invariant threads)
    (producer : Producer Value)
    (loaded : ∀ prodHead ∈ producer.loadedHead, prodHead = threads.shared.atomicHead)
    (nothing : threads.producer.constructed = []) (nothing' : producer.constructed = [])
    (room : ∃ old ≤ threads.popped.length, threads.shared.prodTail = UInt64.ofNat old ∧
      threads.pushed.length + producer.promised.length ≤ old + ring.size.toNat) :
    ring.Invariant { threads with producer } where
  head := invariant.head
  tail := invariant.tail
  prodTail := room
  consHead := invariant.consHead
  loadedHead := loaded
  loadedTail := invariant.loadedTail
  fifo := invariant.fifo
  slots := by
    have slots := invariant.slots
    rw [nothing] at slots
    rw [nothing']
    exact slots
  noFault := invariant.noFault

/-- The place `beginPush` reaches promises no more than the cached room. -/
theorem RingSize.beginPush_place (call : PushCall Value) {old : ℕ}
    (head : threads.shared.atomicHead = UInt64.ofNat threads.pushed.length)
    (tail : threads.shared.prodTail = UInt64.ofNat old) (order : old ≤ threads.pushed.length)
    (room : threads.pushed.length ≤ old + ring.size.toNat) :
    (ring.beginPush threads.shared call).constructed = [] ∧
    (∀ prodHead ∈ (ring.beginPush threads.shared call).loadedHead,
      prodHead = threads.shared.atomicHead) ∧
    threads.pushed.length + (ring.beginPush threads.shared call).promised.length ≤
      old + ring.size.toNat := by
  cases call with
  | single value =>
    rw [RingSize.beginPush, head, tail]
    by_cases full : threads.pushed.length = old + ring.size.toNat
    · rw [if_pos ((ring.sub_eq_size order room).mpr full)]
      exact ⟨rfl, fun _ loaded => (Option.mem_some.mp loaded).symm, room⟩
    · rw [if_neg (full ∘ (ring.sub_eq_size order room).mp)]
      refine ⟨rfl, fun _ loaded => (Option.mem_some.mp loaded).symm, ?_⟩
      show threads.pushed.length + 1 ≤ _
      omega
  | batch values fits =>
    have avail := ring.cntAvail_ofNat order room
    rw [RingSize.beginPush, head, tail]
    by_cases short : ring.cntAvail (UInt64.ofNat threads.pushed.length) (UInt64.ofNat old) <
        UInt64.ofNat values.length
    · rw [if_pos short]
      exact ⟨rfl, fun _ loaded => (Option.mem_some.mp loaded).symm, room⟩
    · rw [if_neg short]
      rw [UInt64.lt_iff_toNat_lt, avail, UInt64.toNat_ofNat', Nat.mod_eq_of_lt fits] at short
      refine ⟨rfl, fun _ loaded => (Option.mem_some.mp loaded).symm, ?_⟩
      show threads.pushed.length + values.length ≤ _
      omega

/-- The place after the load of the tail promises no more than the room that is really
there. -/
theorem RingSize.afterTail_place (call : PushCall Value) {prodHead : UInt64} {old : ℕ}
    (head : prodHead = UInt64.ofNat threads.pushed.length)
    (order : old ≤ threads.pushed.length)
    (room : threads.pushed.length ≤ old + ring.size.toNat) :
    (ring.afterTail (UInt64.ofNat old) prodHead call).constructed = [] ∧
    (∀ loaded ∈ (ring.afterTail (UInt64.ofNat old) prodHead call).loadedHead,
      loaded = prodHead) ∧
    threads.pushed.length + (ring.afterTail (UInt64.ofNat old) prodHead call).promised.length ≤
      old + ring.size.toNat := by
  subst head
  cases call with
  | single value =>
    rw [RingSize.afterTail]
    by_cases full : threads.pushed.length = old + ring.size.toNat
    · rw [if_pos ((ring.sub_eq_size order room).mpr full)]
      exact ⟨rfl, fun _ loaded => absurd loaded (Option.not_mem_none _), room⟩
    · rw [if_neg (full ∘ (ring.sub_eq_size order room).mp)]
      refine ⟨rfl, fun _ loaded => (Option.mem_some.mp loaded).symm, ?_⟩
      show threads.pushed.length + 1 ≤ _
      omega
  | batch values fits =>
    have avail := ring.cntAvail_ofNat order room
    rw [RingSize.afterTail]
    by_cases none : ring.cntAvail (UInt64.ofNat threads.pushed.length) (UInt64.ofNat old) = 0
    · rw [if_pos none]
      exact ⟨rfl, fun _ loaded => absurd loaded (Option.not_mem_none _), room⟩
    · rw [if_neg none]
      refine ⟨rfl, fun _ loaded => (Option.mem_some.mp loaded).symm, ?_⟩
      show threads.pushed.length + (values.take _).length ≤ _
      rw [List.length_take, avail]
      omega

/-- A call of the producer begins. -/
theorem RingSize.Invariant.push (invariant : ring.Invariant threads) (call : PushCall Value)
    (idle : threads.producer = .idle) :
    ring.Invariant { threads with producer := ring.beginPush threads.shared call } := by
  obtain ⟨old, oldLe, tail, room⟩ := invariant.prodTail
  have ordered := invariant.ordered
  obtain ⟨nothing, loaded, promised⟩ := ring.beginPush_place call invariant.head tail
    (by omega) (le_trans (Nat.le_add_right _ _) room)
  exact invariant.setProducer _ loaded (by rw [idle]; rfl) nothing ⟨old, oldLe, tail, promised⟩

/-- The load of the tail: the room is measured against the true tail. -/
theorem RingSize.Invariant.loadTail (invariant : ring.Invariant threads) {call : PushCall Value}
    {prodHead : UInt64} (place : threads.producer = .loadTail call prodHead) :
    ring.Invariant { threads with
      shared := { threads.shared with prodTail := threads.shared.atomicTail }
      producer := ring.afterTail threads.shared.atomicTail prodHead call } := by
  have ordered := invariant.ordered
  have slots := invariant.slots
  have head := (invariant.loadedHead prodHead (by rw [place]; rfl)).trans invariant.head
  obtain ⟨nothing, loaded, promised⟩ := ring.afterTail_place call head
    (show threads.popped.length ≤ threads.pushed.length by omega) invariant.bounded
  rw [← invariant.tail] at nothing loaded promised
  rw [place] at slots
  exact {
    head := invariant.head
    tail := invariant.tail
    prodTail := ⟨threads.popped.length, le_rfl, invariant.tail, promised⟩
    consHead := invariant.consHead
    loadedHead := fun other member =>
      (loaded other member).trans (head.trans invariant.head.symm)
    loadedTail := invariant.loadedTail
    fifo := invariant.fifo
    slots := by rw [nothing]; exact slots
    noFault := invariant.noFault }

/-- The construction: the slots behind the published head are filled. -/
theorem RingSize.Invariant.construct (invariant : ring.Invariant threads) {values : List Value}
    {prodHead : UInt64} (place : threads.producer = .construct values prodHead) :
    ring.Invariant { threads with
      shared := { threads.shared with
        buff := ring.constructAt threads.shared.buff prodHead values }
      producer := .storeHead values prodHead } := by
  obtain ⟨old, oldLe, tail, room⟩ := invariant.prodTail
  have ordered := invariant.ordered
  have slots := invariant.slots
  have head := (invariant.loadedHead prodHead (by rw [place]; rfl)).trans invariant.head
  rw [place] at slots room
  simp only [Producer.constructed, List.append_nil, Producer.promised] at slots room
  have roomNow : threads.pushed.length + values.length ≤
      threads.popped.length + threads.inFlight.length + ring.size.toNat := by omega
  exact {
    head := invariant.head
    tail := invariant.tail
    prodTail := ⟨old, oldLe, tail, room⟩
    consHead := invariant.consHead
    loadedHead := fun other member => by
      rw [← Option.mem_some.mp member, head, invariant.head]
    loadedTail := invariant.loadedTail
    fifo := invariant.fifo
    slots := by
      subst head
      exact ring.constructAt_shows values slots ordered roomNow
    noFault := invariant.noFault }

/-- The store of the head: the constructed values join the log. -/
theorem RingSize.Invariant.storeHead (invariant : ring.Invariant threads) {values : List Value}
    {prodHead : UInt64} (place : threads.producer = .storeHead values prodHead) :
    ring.Invariant { threads with
      shared := { threads.shared with atomicHead := prodHead + UInt64.ofNat values.length }
      producer := .idle
      pushed := threads.pushed ++ values } := by
  obtain ⟨old, oldLe, tail, room⟩ := invariant.prodTail
  obtain ⟨oldHead, oldHeadLe, headEq, claimed⟩ := invariant.consHead
  have slots := invariant.slots
  have head := (invariant.loadedHead prodHead (by rw [place]; rfl)).trans invariant.head
  rw [place] at slots room
  simp only [Producer.constructed, Producer.promised] at slots room
  have length : (threads.pushed ++ values).length = threads.pushed.length + values.length :=
    List.length_append
  exact {
    head := by rw [length, ← ofNat_add_ofNat, ← head]
    tail := invariant.tail
    prodTail := ⟨old, oldLe, tail, by rw [length]; exact room⟩
    consHead := ⟨oldHead, by rw [length]; omega, headEq, claimed⟩
    loadedHead := fun _ loaded => absurd loaded (Option.not_mem_none _)
    loadedTail := invariant.loadedTail
    fifo := invariant.fifo.trans (List.prefix_append _ _)
    slots := by
      rw [Producer.constructed, List.append_nil]
      exact slots
    noFault := invariant.noFault }

/-! ### The consumer's steps -/

/-- Changing only the consumer's place keeps the invariant when the new place is consistent
with the ring. -/
theorem RingSize.Invariant.setConsumer (invariant : ring.Invariant threads) (consHead : UInt64)
    (consumer : Consumer Value)
    (loaded : ∀ consTail ∈ consumer.loadedTail, consTail = threads.shared.atomicTail)
    (nothing : threads.inFlight = []) (nothing' : ∀ values tail, consumer ≠ .storeTail values tail)
    (counted : ∃ old ≤ threads.pushed.length, consHead = UInt64.ofNat old ∧
      threads.popped.length + consumer.claimed ≤ old) :
    ring.Invariant { threads with
      shared := { threads.shared with consHead }
      consumer } := by
  have empty : SpscThreads.inFlight { threads with
      shared := { threads.shared with consHead }
      consumer } = [] := by
    cases consumer with
    | storeTail values tail => exact absurd rfl (nothing' values tail)
    | idle => rfl
    | loadHead call tail => rfl
    | consume call tail => rfl
  exact {
    head := invariant.head
    tail := invariant.tail
    prodTail := invariant.prodTail
    consHead := counted
    loadedHead := invariant.loadedHead
    loadedTail := loaded
    fifo := by
      rw [empty]
      exact nothing ▸ invariant.fifo
    slots := by
      rw [empty]
      exact nothing ▸ invariant.slots
    noFault := invariant.noFault }

/-- The place the consumer reaches by comparing a head with its tail counts on at least one
element exactly when the head says there is one. -/
theorem claimed_of_compare {call : PopCall} {consTail : UInt64} {old popped : ℕ}
    (empty : Consumer Value) (emptyClaim : empty.claimed = 0) (order : popped ≤ old)
    (small : old - popped < 2 ^ 64) :
    popped + (if UInt64.ofNat old - UInt64.ofNat popped = 0 then empty
      else Consumer.consume call consTail).claimed ≤ old := by
  by_cases same : old = popped
  · rw [if_pos ((Circular.ofNat_sub_eq_zero order small).mpr same), emptyClaim]
    exact order
  · rw [if_neg (same ∘ (Circular.ofNat_sub_eq_zero order small).mp)]
    show popped + 1 ≤ old
    omega

/-- A call of the consumer begins. -/
theorem RingSize.Invariant.pop (invariant : ring.Invariant threads) (call : PopCall)
    (idle : threads.consumer = .idle) :
    ring.Invariant { threads with consumer := beginPop threads.shared call } := by
  obtain ⟨old, oldLe, head, claimed⟩ := invariant.consHead
  have bounded := invariant.bounded
  have sizeLt := ring.size_lt
  have nothing : threads.inFlight = [] := by rw [SpscThreads.inFlight, idle]
  have place : beginPop threads.shared call =
      if UInt64.ofNat old - UInt64.ofNat threads.popped.length = 0 then
        .loadHead call threads.shared.atomicTail
      else (.consume call threads.shared.atomicTail : Consumer Value) := by
    rw [beginPop, head, invariant.tail]
  refine invariant.setConsumer threads.shared.consHead _ ?_ nothing ?_
    ⟨old, oldLe, head, ?_⟩
  · intro consTail loaded
    rw [place] at loaded
    split at loaded <;> exact (Option.mem_some.mp loaded).symm
  · intro values tail same
    rw [place] at same
    split at same <;> exact absurd same (by simp)
  · rw [place]
    exact claimed_of_compare _ rfl (by omega) (by omega)

/-- The load of the head: the ring is judged by the true head. -/
theorem RingSize.Invariant.loadHead (invariant : ring.Invariant threads) {call : PopCall}
    {consTail : UInt64} (place : threads.consumer = .loadHead call consTail) :
    ring.Invariant { threads with
      shared := { threads.shared with consHead := threads.shared.atomicHead }
      consumer := afterHead threads.shared.atomicHead consTail call } := by
  have ordered := invariant.ordered
  have bounded := invariant.bounded
  have sizeLt := ring.size_lt
  have nothing : threads.inFlight = [] := by rw [SpscThreads.inFlight, place]
  have tailEq := (invariant.loadedTail consTail (by rw [place]; rfl)).trans invariant.tail
  have target : afterHead threads.shared.atomicHead consTail call =
      if UInt64.ofNat threads.pushed.length - UInt64.ofNat threads.popped.length = 0 then .idle
      else (.consume call consTail : Consumer Value) := by
    rw [afterHead, invariant.head, tailEq]
  refine invariant.setConsumer threads.shared.atomicHead _ ?_ nothing ?_
    ⟨threads.pushed.length, le_rfl, invariant.head, ?_⟩
  · intro other loaded
    rw [target] at loaded
    split at loaded
    · exact absurd loaded (Option.not_mem_none _)
    · rw [← Option.mem_some.mp loaded, tailEq, invariant.tail]
  · intro values other same
    rw [target] at same
    split at same <;> exact absurd same (by simp)
  · rw [target]
    exact claimed_of_compare _ rfl (by omega) (by omega)

/-- What the code between the loads and the store of the tail does: it takes the first
elements of the log past the tail, as many as are wanted and known to be there. -/
theorem RingSize.consumeCall_eq (call : PopCall) {shared : SpscRing Value} {log : List Value}
    {popped old : ℕ} (shown : Circular.Shows ring.size.toNat shared.buff log popped)
    (head : shared.consHead = UInt64.ofNat old) (more : popped < old) (before : old ≤ log.length)
    (ended : log.length ≤ popped + ring.size.toNat) :
    ∃ buff' values, ring.consumeCall shared (UInt64.ofNat popped) call = some (buff', values) ∧
      values <+: (log.drop popped).take (old - popped) ∧
      Circular.Shows ring.size.toNat buff' log (popped + values.length) := by
  cases call with
  | single =>
    have read := shown.read le_rfl (by omega) (show popped < popped + ring.size.toNat by omega)
    rw [RingSize.consumeCall, ring.slot_ofNat, read]
    refine ⟨_, [log[popped]], rfl, ?_, shown.erase ring.size_pos ended⟩
    rw [List.drop_eq_getElem_cons (show popped < log.length by omega),
      show old - popped = (old - popped - 1) + 1 by omega, List.take_succ_cons]
    exact List.prefix_append [log[popped]] _
  | batch sz =>
    obtain ⟨ranges, buff', flat, -, result, left⟩ := ring.consumeRanges_eq popInto
      (sz.toNat, ([] : List Value)) (old - popped) shown (by omega) (by omega) ended
    have avail : shared.consHead - UInt64.ofNat popped = UInt64.ofNat (old - popped) := by
      have sizeLt := ring.size_lt
      rw [head, ← UInt64.toNat_inj, Circular.toNat_ofNat_sub (by omega) (by omega),
        UInt64.toNat_ofNat', Nat.mod_eq_of_lt (by omega)]
    rw [feed_popInto, flat] at result left
    rw [RingSize.consumeCall, avail, result]
    refine ⟨buff', _, rfl, ?_, ?_⟩
    · rw [List.nil_append]
      exact List.take_prefix _ _
    · rw [List.nil_append, List.length_take]
      exact left

/-- The consumption takes pushed values from the tail on, no more than it counts on, and empties
exactly their slots. -/
theorem RingSize.Invariant.consumes (invariant : ring.Invariant threads) {call : PopCall}
    {consTail : UInt64} (place : threads.consumer = .consume call consTail) :
    ∃ old buff values, threads.shared.consHead = UInt64.ofNat old ∧ old ≤ threads.pushed.length ∧
      ring.consumeCall threads.shared consTail call = some (buff, values) ∧
      threads.popped.length + values.length ≤ old ∧
      values <+: threads.pushed.drop threads.popped.length ∧
      Circular.Shows ring.size.toNat buff (threads.pushed ++ threads.producer.constructed)
        (threads.popped.length + values.length) := by
  obtain ⟨old, oldLe, head, claimed⟩ := invariant.consHead
  obtain ⟨oldTail, oldTailLe, tail, room⟩ := invariant.prodTail
  have slots := invariant.slots
  have nothing : threads.inFlight = [] := by rw [SpscThreads.inFlight, place]
  have tailEq := (invariant.loadedTail consTail (by rw [place]; rfl)).trans invariant.tail
  rw [nothing, List.length_nil, Nat.add_zero] at slots
  rw [place] at claimed
  simp only [Consumer.claimed] at claimed
  have length : (threads.pushed ++ threads.producer.constructed).length =
      threads.pushed.length + threads.producer.constructed.length := List.length_append
  have constructedLe : threads.producer.constructed.length ≤
      threads.producer.promised.length := by
    cases threads.producer <;> simp [Producer.constructed, Producer.promised]
  obtain ⟨buff, values, result, taken, left⟩ := ring.consumeCall_eq call slots head
    (show threads.popped.length < old by omega) (by omega) (by omega)
  rw [← tailEq] at result
  -- What is under construction lies behind the head, where nothing is taken.
  have dropLength : (threads.pushed.drop threads.popped.length).length =
      threads.pushed.length - threads.popped.length := List.length_drop
  rw [List.drop_append_of_le_length (by omega),
    List.take_append_of_le_length (by omega)] at taken
  have takenLength := taken.length_le
  rw [List.length_take] at takenLength
  exact ⟨old, buff, values, head, oldLe, result, by omega, taken.trans (List.take_prefix _ _),
    left⟩

/-- The consumption: the elements leave their slots and are in flight. -/
theorem RingSize.Invariant.consume (invariant : ring.Invariant threads) {call : PopCall}
    {consTail : UInt64} {buff : ℕ → Option Value} {values : List Value}
    (place : threads.consumer = .consume call consTail)
    (result : ring.consumeCall threads.shared consTail call = some (buff, values)) :
    ring.Invariant { threads with
      shared := { threads.shared with buff }
      consumer := .storeTail values consTail } := by
  obtain ⟨old, buff', values', head, oldLe, found, counted, taken, left⟩ :=
    invariant.consumes place
  obtain ⟨rfl, rfl⟩ := Prod.mk.inj (Option.some.inj (found.symm.trans result))
  have fifo := invariant.fifo
  have nothing : threads.inFlight = [] := by rw [SpscThreads.inFlight, place]
  rw [nothing, List.append_nil] at fifo
  exact {
    head := invariant.head
    tail := invariant.tail
    prodTail := invariant.prodTail
    consHead := ⟨old, oldLe, head, counted⟩
    loadedHead := invariant.loadedHead
    loadedTail := fun other loaded =>
      invariant.loadedTail other (by rw [place]; exact loaded)
    fifo := by
      obtain ⟨rest, pushed⟩ := fifo
      show threads.popped ++ values' <+: threads.pushed
      rw [← pushed, List.drop_left] at taken
      rw [← pushed]
      exact (List.prefix_append_right_inj _).mpr taken
    slots := left
    noFault := invariant.noFault }

/-- The store of the tail: the elements in flight count as popped. -/
theorem RingSize.Invariant.storeTail (invariant : ring.Invariant threads) {values : List Value}
    {consTail : UInt64} (place : threads.consumer = .storeTail values consTail) :
    ring.Invariant { threads with
      shared := { threads.shared with atomicTail := consTail + UInt64.ofNat values.length }
      consumer := .idle
      popped := threads.popped ++ values } := by
  obtain ⟨old, oldLe, head, claimed⟩ := invariant.consHead
  obtain ⟨oldTail, oldTailLe, tail, room⟩ := invariant.prodTail
  have fifo := invariant.fifo
  have slots := invariant.slots
  have flight : threads.inFlight = values := by rw [SpscThreads.inFlight, place]
  have tailEq := (invariant.loadedTail consTail (by rw [place]; rfl)).trans invariant.tail
  have length : (threads.popped ++ values).length = threads.popped.length + values.length :=
    List.length_append
  rw [place] at claimed
  rw [flight] at fifo slots
  simp only [Consumer.claimed] at claimed
  exact {
    head := invariant.head
    tail := by rw [length, ← ofNat_add_ofNat, ← tailEq]
    prodTail := ⟨oldTail, by rw [length]; omega, tail, room⟩
    consHead := ⟨old, oldLe, head, by rw [length]; exact claimed⟩
    loadedHead := invariant.loadedHead
    loadedTail := fun _ loaded => absurd loaded (Option.not_mem_none _)
    fifo := by
      show threads.popped ++ values ++ [] <+: threads.pushed
      rw [List.append_nil]
      exact fifo
    slots := by
      show Circular.Shows _ _ _ ((threads.popped ++ values).length + 0)
      rw [length]
      exact slots
    noFault := invariant.noFault }

/-! ### Every run -/

theorem RingSize.Invariant.step (label : SpscLabel Value) (invariant : ring.Invariant threads)
    (step : ring.threadsStep threads label = some next) : ring.Invariant next := by
  cases RingSize.threadsStep_spec step with
  | push call idle => exact invariant.push call idle
  | loadTail call prodHead place => exact invariant.loadTail place
  | construct values prodHead place => exact invariant.construct place
  | storeHead values prodHead place => exact invariant.storeHead place
  | pop call idle => exact invariant.pop call idle
  | loadHead call consTail place => exact invariant.loadHead place
  | consume call consTail buff values place result => exact invariant.consume place result
  | fault call consTail place nothing =>
    -- The slots hold what the consumer counts on, so it is never shown an empty one.
    obtain ⟨-, _, _, -, -, found, -⟩ := invariant.consumes place
    exact absurd (found.symm.trans nothing) (by simp)
  | storeTail values consTail place => exact invariant.storeTail place

theorem RingSize.invariant_of_run {labels : List (SpscLabel Value)}
    (run : (ring.machine Value).run {} labels = some threads) : ring.Invariant threads :=
  (ring.machine Value).run_invariant ring.Invariant
    (fun _ label _ invariant step => invariant.step label step) ring.invariant_init run

/-- The values still held are the pushed ones past those popped. -/
theorem RingSize.Invariant.held_eq (invariant : ring.Invariant threads) :
    ring.held threads = (threads.pushed.drop threads.popped.length).map some := by
  have ordered := invariant.ordered
  have bounded := invariant.bounded
  have sizeLt := ring.size_lt
  have occupancy : threads.occupancy.toNat = threads.pushed.length - threads.popped.length := by
    rw [SpscThreads.occupancy, invariant.head, invariant.tail,
      Circular.toNat_ofNat_sub (by omega) (by omega)]
  obtain ⟨rest, pushed⟩ := invariant.fifo
  have restLength := congrArg List.length pushed
  rw [List.length_append, List.length_append] at restLength
  have slotValues : (List.range rest.length).map (fun offset => threads.shared.buff
      (ring.slot (threads.shared.atomicTail +
        UInt64.ofNat (threads.inFlight.length + offset)))) = rest.map some := by
    refine List.ext_getElem (by simp) fun offset offsetLt _ => ?_
    rw [List.length_map, List.length_range] at offsetLt
    rw [List.getElem_map, List.getElem_range, List.getElem_map, invariant.tail, ofNat_add_ofNat,
      ring.slot_ofNat, invariant.slots _ (by omega) (by omega), ← pushed, List.append_assoc,
      List.append_assoc, List.getElem?_append_right (by omega),
      List.getElem?_append_right (by omega), List.getElem?_append_left (by omega)]
    simp only [Nat.add_sub_cancel_left, List.getElem?_eq_getElem offsetLt]
  rw [RingSize.held, occupancy,
    show threads.pushed.length - threads.popped.length - threads.inFlight.length = rest.length by
      omega, slotValues, ← pushed, List.append_assoc, List.drop_left, List.map_append]

/-- In every interleaving of the two threads, at every step inside their calls, the values
popped so far followed by the values still held are the values the pushes have accepted, in
order; the two indices are never more than the size apart, wrapped or not; and no slot without
an object is ever read. -/
theorem spsc_fifo (ring : RingSize) {labels : List (SpscLabel Value)}
    {threads : SpscThreads Value} (run : (ring.machine Value).run {} labels = some threads) :
    threads.popped.map some ++ ring.held threads = threads.pushed.map some ∧
      threads.occupancy.toNat ≤ ring.size.toNat ∧ threads.fault = false := by
  have invariant := ring.invariant_of_run run
  have ordered := invariant.ordered
  have bounded := invariant.bounded
  have sizeLt := ring.size_lt
  have popped : threads.popped = threads.pushed.take threads.popped.length :=
    List.prefix_iff_eq_take.mp ((List.prefix_append _ _).trans invariant.fifo)
  refine ⟨?_, ?_, invariant.noFault⟩
  · rw [invariant.held_eq, ← List.map_append]
    conv_lhs => rw [popped, List.length_take, Nat.min_eq_left (by omega)]
    rw [List.take_append_drop]
  · rw [SpscThreads.occupancy, invariant.head, invariant.tail,
      Circular.toNat_ofNat_sub (by omega) (by omega)]
    omega

/-- A ring of two slots. -/
def twoSlots : RingSize := ⟨2, by decide, by decide⟩

/-- A pop overlaps a push of three values into a ring of two slots that holds one already. -/
def twoSlotsSchedule : List (SpscLabel ℕ) :=
  [.push (.single 7), .producer, .producer, .pop (.batch 8), .consumer,
    .push (.batch [8, 9, 10] (by decide)), .consumer, .producer, .producer, .consumer, .producer]

theorem spsc_fifo_twoSlots : ∃ threads,
    (twoSlots.machine ℕ).run {} twoSlotsSchedule = some threads ∧
    threads.popped.map some ++ twoSlots.held threads = threads.pushed.map some ∧
      threads.occupancy.toNat ≤ twoSlots.size.toNat ∧ threads.fault = false :=
  have run : ((twoSlots.machine ℕ).run {} twoSlotsSchedule).isSome = true := by decide
  ⟨_, (Option.some_get run).symm, spsc_fifo twoSlots (Option.some_get run).symm⟩

/-! ### The abstract queue -/

/-- The abstract queue the ring stands for. -/
def SpscThreads.queue (threads : SpscThreads Value) : List Value :=
  threads.pushed.drop threads.popped.length

theorem RingSize.Invariant.queue_length (_ : ring.Invariant threads) :
    threads.queue.length = threads.pushed.length - threads.popped.length :=
  List.length_drop

/-- Every step of the two threads is no step of the abstract queue, or one push that fits, or
one pop of values that are there. -/
theorem RingSize.Invariant.queue_step (invariant : ring.Invariant threads)
    (label : SpscLabel Value) (step : ring.threadsStep threads label = some next) :
    (BoundedFifo.machine ring.size.toNat Value).Reachable threads.queue next.queue := by
  obtain ⟨old, oldLe, -, room⟩ := invariant.prodTail
  have ordered := invariant.ordered
  cases RingSize.threadsStep_spec step with
  | push | loadTail | construct | pop | loadHead | consume | fault =>
    exact Machine.Reachable.refl _ threads.queue
  | storeHead values prodHead place =>
    rw [place] at room
    simp only [Producer.promised] at room
    refine ⟨[.push values], ?_⟩
    rw [Machine.run_cons, BoundedFifo.machine]
    simp only [SpscThreads.queue]
    rw [BoundedFifo.push_of_le (by rw [List.length_drop]; omega),
      List.drop_append_of_le_length (by omega)]
    rfl
  | storeTail values consTail place =>
    have flight : threads.inFlight = values := by rw [SpscThreads.inFlight, place]
    rw [flight] at ordered
    refine ⟨[.pop values.length], ?_⟩
    rw [Machine.run_cons, BoundedFifo.machine]
    simp only [SpscThreads.queue, BoundedFifo.pop, List.length_drop]
    rw [if_pos (by omega), List.drop_drop, List.length_append]
    rfl

/-- The ring refines the bounded queue of its size. -/
theorem RingSize.refines_boundedFifo (ring : RingSize) {labels : List (SpscLabel Value)}
    (run : (ring.machine Value).run {} labels = some threads) :
    (BoundedFifo.machine ring.size.toNat Value).Reachable [] threads.queue :=
  (ring.machine Value).run_project _ SpscThreads.queue ring.Invariant
    (fun _ label _ invariant step => invariant.step label step)
    (fun _ label _ invariant step => invariant.queue_step label step) ring.invariant_init run

/-- A single push gives up only when the queue is full at its load of the tail. -/
theorem RingSize.Invariant.full_of_refused (invariant : ring.Invariant threads) {value : Value}
    {prodHead : UInt64} (place : threads.producer = .loadTail (.single value) prodHead)
    (step : ring.threadsStep threads .producer = some next) (refused : next.producer = .idle) :
    threads.queue.length = ring.size.toNat := by
  have ordered := invariant.ordered
  have head := (invariant.loadedHead prodHead (by rw [place]; rfl)).trans invariant.head
  rw [RingSize.threadsStep, RingSize.producerStep, place] at step
  obtain rfl := Option.some.inj step
  simp only [RingSize.afterTail, head, invariant.tail] at refused
  split at refused
  · rename_i full
    rw [ring.sub_eq_size (by omega) invariant.bounded] at full
    rw [invariant.queue_length]
    omega
  · exact absurd refused (by simp)

end TrafficGenerator
