/-
This file models the single producer single consumer ring of `put/spsc_ring.h`.

The indices are the source's 64-bit ones, the two cached copies included, and a
slot holds a live object or nothing. Every call is a little program over the
shared ring: one step for each atomic load and store, and one step for the code
between two of them that touches the slots. The producer and the consumer each
carry the place they have reached in their call, so that a list of labels is one
interleaving of the two threads.
-/

import TrafficGenerator.Transition
import TrafficGenerator.Circular

namespace TrafficGenerator

variable {Value State : Type}

/-! ### The ring -/

/-- The template argument `Size` with the ring's `static_assert`. -/
structure RingSize where
  size : UInt64
  positive : size > 0
  powerOfTwo : size &&& (size - 1) = 0

/-- `size_mask`. -/
def RingSize.sizeMask (ring : RingSize) : UInt64 := ring.size - 1

/-- The slot of an index: `index & size_mask`. -/
def RingSize.slot (ring : RingSize) (index : UInt64) : ℕ := (index &&& ring.sizeMask).toNat

/-- The members of `spsc_ring`. The byte offsets into `buff_` are multiples of
`sizeof(value_type)`, so a slot number stands for its object. -/
structure SpscRing (Value : Type) where
  atomicHead : UInt64 := 0
  prodTail : UInt64 := 0
  atomicTail : UInt64 := 0
  consHead : UInt64 := 0
  buff : ℕ → Option Value := fun _ => none

/-! ### The producer's calls -/

/-- The two `try_push`: one value, or an array of `sz` values. -/
inductive PushCall (Value : Type) where
  | single (value : Value)
  | batch (values : List Value) (fits : values.length < 2 ^ 64)

/-- How far the producer has got in its call. -/
inductive Producer (Value : Type) where
  | idle
  /-- The next step loads `atomic_tail_` into `prod_tail_`. -/
  | loadTail (call : PushCall Value) (prodHead : UInt64)
  /-- The next step constructs `values` from the slot of `prodHead` on. -/
  | construct (values : List Value) (prodHead : UInt64)
  /-- The next step stores the head past the constructed `values`. -/
  | storeHead (values : List Value) (prodHead : UInt64)

/-- The free room the producer computes from its cached tail: `size - (prod_head - prod_tail_)`. -/
def RingSize.cntAvail (ring : RingSize) (prodHead prodTail : UInt64) : UInt64 :=
  ring.size - (prodHead - prodTail)

/-- The start of `try_push`, up to and with the relaxed load of `atomic_head_`: the cached
tail decides whether `atomic_tail_` is loaded next. -/
def RingSize.beginPush (ring : RingSize) (shared : SpscRing Value) :
    PushCall Value → Producer Value
  | .single value =>
    if shared.atomicHead - shared.prodTail = ring.size then
      .loadTail (.single value) shared.atomicHead
    else .construct [value] shared.atomicHead
  | .batch values fits =>
    if ring.cntAvail shared.atomicHead shared.prodTail < UInt64.ofNat values.length then
      .loadTail (.batch values fits) shared.atomicHead
    else .construct values shared.atomicHead

/-- What `try_push` does with the tail it has just loaded: `return false` or `return 0` when
there is no room, the slots otherwise. -/
def RingSize.afterTail (ring : RingSize) (prodTail prodHead : UInt64) :
    PushCall Value → Producer Value
  | .single value =>
    if prodHead - prodTail = ring.size then .idle else .construct [value] prodHead
  | .batch values _ =>
    if ring.cntAvail prodHead prodTail = 0 then .idle
    else .construct
      (values.take (min values.length (ring.cntAvail prodHead prodTail).toNat)) prodHead

/-- The construction loop: one object into each slot from `prodHead` on. -/
def RingSize.constructAt (ring : RingSize) (buff : ℕ → Option Value) (prodHead : UInt64) :
    List Value → ℕ → Option Value
  | [] => buff
  | value :: rest =>
    ring.constructAt (Function.update buff (ring.slot prodHead) (some value)) (prodHead + 1) rest

/-! ### The consumer's calls -/

/-- The two `try_pop`: into one object, or up to `sz` objects into an array. -/
inductive PopCall where
  | single
  | batch (sz : UInt64)

/-- How far the consumer has got in its call. -/
inductive Consumer (Value : Type) where
  | idle
  /-- The next step loads `atomic_head_` into `cons_head_`. -/
  | loadHead (call : PopCall) (consTail : UInt64)
  /-- The next step hands the elements over and destroys them. -/
  | consume (call : PopCall) (consTail : UInt64)
  /-- The next step stores the tail past the elements taken. -/
  | storeTail (values : List Value) (consTail : UInt64)

/-- The start of `try_consume`, up to and with the relaxed load of `atomic_tail_`. -/
def beginPop (shared : SpscRing Value) (call : PopCall) : Consumer Value :=
  if shared.consHead - shared.atomicTail = 0 then .loadHead call shared.atomicTail
  else .consume call shared.atomicTail

/-- What `try_consume` does with the head it has just loaded. -/
def afterHead (consHead consTail : UInt64) (call : PopCall) : Consumer Value :=
  if consHead - consTail = 0 then .idle else .consume call consTail

/-- The callable given to the batched `try_consume`. It is shown the objects of one contiguous
range and says how many of them it consumed, never more than it was shown. -/
structure ConsumeFn (State Value : Type) where
  call : State → List Value → State × ℕ
  bounded : ∀ state offered, (call state offered).2 ≤ offered.length

/-- The callable of the batched `try_pop`: it still wants `state.1` objects and has written
`state.2`. -/
def popInto : ConsumeFn (ℕ × List Value) Value where
  call state offered :=
    let cnt := min state.1 offered.length
    ((state.1 - cnt, state.2 ++ offered.take cnt), cnt)
  bounded _ _ := Nat.min_le_right _ _

/-- The part of the batched `try_consume` between the loads and the store of the tail. The
result is `none` when the callable is shown a slot that holds no object. -/
def RingSize.consumeRanges (ring : RingSize) (fn : ConsumeFn State Value)
    (buff : ℕ → Option Value) (consTail cntAvail : UInt64) (state : State) :
    Option ((ℕ → Option Value) × State × ℕ) :=
  let first := ring.slot consTail
  let past := ring.slot (consTail + cntAvail)
  if past > first then do
    -- No wrap-around: a single range of entries.
    let offered ← Circular.readRange buff first cntAvail.toNat
    let (state, consumed) := fn.call state offered
    some (Circular.eraseRange buff first consumed, state, consumed)
  else do
    let cnt := ring.size.toNat - first
    let offered ← Circular.readRange buff first cnt
    let (state, consumed) := fn.call state offered
    let buff := Circular.eraseRange buff first consumed
    if cnt = consumed then do
      let offered ← Circular.readRange buff 0 past
      let (state, more) := fn.call state offered
      some (Circular.eraseRange buff 0 more, state, consumed + more)
    else some (buff, state, consumed)

/-- The same part for `try_pop`: the slots afterwards and the objects moved out. -/
def RingSize.consumeCall (ring : RingSize) (shared : SpscRing Value) (consTail : UInt64) :
    PopCall → Option ((ℕ → Option Value) × List Value)
  | .single => do
    let value ← shared.buff (ring.slot consTail)
    some (Function.update shared.buff (ring.slot consTail) none, [value])
  | .batch sz => do
    let (buff, state, _) ←
      ring.consumeRanges popInto shared.buff consTail (shared.consHead - consTail) (sz.toNat, [])
    some (buff, state.2)

/-! ### The calls of any thread -/

/-- `capacity`. -/
def RingSize.capacity (ring : RingSize) : UInt64 := ring.size

/-- `count_pop_slots`: the ring its load of `atomic_head_` finds, and the one its load of
`atomic_tail_` finds. -/
def countPopSlots (atHead atTail : SpscRing Value) : UInt64 :=
  let prodHead := atHead.atomicHead
  let consTail := atTail.atomicTail
  prodHead - consTail

/-- `count_push_slots`. -/
def RingSize.countPushSlots (ring : RingSize) (atHead atTail : SpscRing Value) : UInt64 :=
  ring.size - countPopSlots atHead atTail

/-! ### The two threads -/

/-- The ring with its two threads. `pushed` and `popped` record what the calls have done: a
push counts at its store of the head, a pop at its store of the tail. -/
structure SpscThreads (Value : Type) where
  shared : SpscRing Value := {}
  producer : Producer Value := .idle
  consumer : Consumer Value := .idle
  pushed : List Value := []
  popped : List Value := []
  /-- A slot without an object was read. -/
  fault : Bool := false

/-- Which thread moves: it starts a call or takes the next step of the one it is in. -/
inductive SpscLabel (Value : Type) where
  | push (call : PushCall Value)
  | producer
  | pop (call : PopCall)
  | consumer

/-- The next step of the producer's call. -/
def RingSize.producerStep (ring : RingSize) (threads : SpscThreads Value) :
    Option (SpscThreads Value) :=
  match threads.producer with
  | .idle => none
  | .loadTail call prodHead => some { threads with
      shared := { threads.shared with prodTail := threads.shared.atomicTail }
      producer := ring.afterTail threads.shared.atomicTail prodHead call }
  | .construct values prodHead => some { threads with
      shared := { threads.shared with
        buff := ring.constructAt threads.shared.buff prodHead values }
      producer := .storeHead values prodHead }
  | .storeHead values prodHead => some { threads with
      shared := { threads.shared with atomicHead := prodHead + UInt64.ofNat values.length }
      producer := .idle
      pushed := threads.pushed ++ values }

/-- The next step of the consumer's call. -/
def RingSize.consumerStep (ring : RingSize) (threads : SpscThreads Value) :
    Option (SpscThreads Value) :=
  match threads.consumer with
  | .idle => none
  | .loadHead call consTail => some { threads with
      shared := { threads.shared with consHead := threads.shared.atomicHead }
      consumer := afterHead threads.shared.atomicHead consTail call }
  | .consume call consTail =>
    match ring.consumeCall threads.shared consTail call with
    | some (buff, values) => some { threads with
        shared := { threads.shared with buff }
        consumer := .storeTail values consTail }
    | none => some { threads with fault := true }
  | .storeTail values consTail => some { threads with
      shared := { threads.shared with atomicTail := consTail + UInt64.ofNat values.length }
      consumer := .idle
      popped := threads.popped ++ values }

/-- One step of the ring with its two threads. -/
def RingSize.threadsStep (ring : RingSize) (threads : SpscThreads Value) :
    SpscLabel Value → Option (SpscThreads Value)
  | .push call =>
    match threads.producer with
    | .idle => some { threads with producer := ring.beginPush threads.shared call }
    | _ => none
  | .producer => ring.producerStep threads
  | .pop call =>
    match threads.consumer with
    | .idle => some { threads with consumer := beginPop threads.shared call }
    | _ => none
  | .consumer => ring.consumerStep threads

/-- Every interleaving of the producer's and the consumer's calls. -/
def RingSize.machine (ring : RingSize) (Value : Type) :
    Machine (SpscThreads Value) (SpscLabel Value) where
  step := ring.threadsStep

/-- The values a pop has moved out of the ring before its store of the tail. -/
def SpscThreads.inFlight (threads : SpscThreads Value) : List Value :=
  match threads.consumer with
  | .storeTail values _ => values
  | _ => []

/-- The number of elements the two published indices stand for: `head - tail`. -/
def SpscThreads.occupancy (threads : SpscThreads Value) : UInt64 :=
  threads.shared.atomicHead - threads.shared.atomicTail

/-- The values still held, in order: those a pop has in flight, then what the slots between
the tail (past the ones in flight) and the head hold. -/
def RingSize.held (ring : RingSize) (threads : SpscThreads Value) : List (Option Value) :=
  threads.inFlight.map some ++
    (List.range (threads.occupancy.toNat - threads.inFlight.length)).map fun offset =>
      threads.shared.buff (ring.slot (threads.shared.atomicTail +
        UInt64.ofNat (threads.inFlight.length + offset)))

end TrafficGenerator
