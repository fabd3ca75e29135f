/-
This file follows the objects of the ring from their construction to their
destruction.

A batched consumption is a function on the ring that fails when it shows or
destroys an object that is not alive, and that records the ranges it hands to the
callable. One range is the unit of every argument: it takes a prefix of what it is
offered, empties exactly those slots and leaves all others alone, and two of them
one after the other do so as well. A ring that numbers the objects it constructs
then runs every sequence of pushes, pops and consumptions, and its destructor,
with two logs: the destroyed objects are always the first of the constructed ones,
and all of them in the end.
-/

import TrafficGenerator.SpscCalls

namespace TrafficGenerator

variable {Value State : Type}

/-! ### The consumer's calls from start to end -/

/-- A range handed to the callable: its first slot, its objects, and how many of them the
callable consumed. -/
structure Offered (Value : Type) where
  slot : ℕ
  values : List Value
  taken : ℕ

/-- What a consumption has done: the ring and the callable it leaves, the ranges offered, the
objects destroyed, and the number consumed, which is its result. -/
structure Consumption (State Value : Type) where
  shared : SpscRing Value
  state : State
  offered : List (Offered Value) := []
  destroyed : List Value := []
  consumed : ℕ := 0

/-- Hand the `cnt` objects from `slot` on to the callable and destroy those it consumed. -/
def Consumption.offer (fn : ConsumeFn State Value) (sofar : Consumption State Value)
    (slot cnt : ℕ) : Option (Consumption State Value) := do
  let values ← Circular.readRange sofar.shared.buff slot cnt
  let (state, taken) := fn.call sofar.state values
  let (buff, destroyed) ← Circular.destroyRange sofar.shared.buff slot taken
  some {
    shared := { sofar.shared with buff }
    state
    offered := sofar.offered ++ [⟨slot, values, taken⟩]
    destroyed := sofar.destroyed ++ destroyed
    consumed := sofar.consumed + taken }

/-- The ranges of a batched `try_consume`: a single one, or two when the elements wrap around. -/
def RingSize.offerRanges (ring : RingSize) (fn : ConsumeFn State Value)
    (shared : SpscRing Value) (consTail cntAvail : UInt64) (state : State) :
    Option (Consumption State Value) :=
  let first := ring.slot consTail
  let past := ring.slot (consTail + cntAvail)
  if past > first then Consumption.offer fn { shared, state } first cntAvail.toNat
  else do
    let cnt := ring.size.toNat - first
    let done ← Consumption.offer fn { shared, state } first cnt
    if cnt = done.consumed then done.offer fn 0 past else some done

/-- The batched `try_consume` with a ring that is not empty. -/
def RingSize.consumeAvail (ring : RingSize) (fn : ConsumeFn State Value)
    (shared : SpscRing Value) (consTail : UInt64) (state : State) :
    Option (Consumption State Value) := do
  let done ← ring.offerRanges fn shared consTail (shared.consHead - consTail) state
  some { done with shared.atomicTail := consTail + UInt64.ofNat done.consumed }

/-- The batched `try_consume`. -/
def RingSize.tryConsume (ring : RingSize) (fn : ConsumeFn State Value) (shared : SpscRing Value)
    (state : State) : Option (Consumption State Value) :=
  let consTail := shared.atomicTail
  if shared.consHead - consTail = 0 then
    let shared := { shared with consHead := shared.atomicHead }
    if shared.consHead - consTail = 0 then some { shared, state }
    else ring.consumeAvail fn shared consTail state
  else ring.consumeAvail fn shared consTail state

/-- The callable of the single `try_consume`, as one that is handed a range of one object. -/
def oneBy (fn : Value → Bool) : ConsumeFn Unit Value where
  call _ offered := ((), (offered.take 1).countP fn)
  bounded _ offered := (List.countP_le_length).trans (List.length_take_le' 1 offered)

/-- The single `try_consume` with a ring that is not empty. -/
def RingSize.consumeFront (ring : RingSize) (fn : Value → Bool) (shared : SpscRing Value)
    (consTail : UInt64) : Option (Consumption Unit Value) := do
  let done ← Consumption.offer (oneBy fn) { shared, state := () } (ring.slot consTail) 1
  if done.consumed = 0 then some done
  else some { done with shared.atomicTail := consTail + 1 }

/-- The single `try_consume`; its result `true` is one object consumed. -/
def RingSize.tryConsumeFront (ring : RingSize) (fn : Value → Bool) (shared : SpscRing Value) :
    Option (Consumption Unit Value) :=
  let consTail := shared.atomicTail
  if shared.consHead - consTail = 0 then
    let shared := { shared with consHead := shared.atomicHead }
    if shared.consHead - consTail = 0 then some { shared, state := () }
    else ring.consumeFront fn shared consTail
  else ring.consumeFront fn shared consTail

/-- `try_pop` into one object. -/
def RingSize.tryPop (ring : RingSize) (shared : SpscRing Value) :
    Option (Consumption Unit Value) :=
  ring.tryConsumeFront (fun _ => true) shared

/-- `try_pop` of up to `sz` objects into an array, which the callable carries. -/
def RingSize.tryPopBatch (ring : RingSize) (shared : SpscRing Value) (sz : UInt64) :
    Option (Consumption (ℕ × List Value) Value) :=
  ring.tryConsume popInto shared (sz.toNat, [])

/-! ### One range -/

variable {ring : RingSize} {log : List Value} {low : ℕ}

/-- What handing over ranges does to a ring that shows a log: the next `taken` values are
destroyed, their slots are empty, and every other slot is as it was. -/
structure RingSize.Takes (ring : RingSize) (sofar next : Consumption State Value)
    (log : List Value) (low taken : ℕ) : Prop where
  consumed : next.consumed = sofar.consumed + taken
  destroyed : next.destroyed = sofar.destroyed ++ (log.drop low).take taken
  shows : Circular.Shows ring.size.toNat next.shared.buff log (low + taken)
  kept : ∀ slot, (∀ offset < taken, slot ≠ (low + offset) % ring.size.toNat) →
    next.shared.buff slot = sofar.shared.buff slot
  others : next.shared = { sofar.shared with buff := next.shared.buff }

theorem RingSize.Takes.trans {sofar middle next : Consumption State Value} {first second : ℕ}
    (takes : ring.Takes sofar middle log low first)
    (takes' : ring.Takes middle next log (low + first) second) :
    ring.Takes sofar next log low (first + second) where
  consumed := by rw [takes'.consumed, takes.consumed, Nat.add_assoc]
  destroyed := by
    rw [takes'.destroyed, takes.destroyed, List.append_assoc, ← List.drop_drop, ← List.take_add]
  shows := by
    rw [← Nat.add_assoc]
    exact takes'.shows
  kept slot outside := by
    have later : ∀ offset < second, slot ≠ (low + first + offset) % ring.size.toNat :=
      fun offset before => by
        rw [Nat.add_assoc]
        exact outside (first + offset) (by omega)
    rw [takes'.kept slot later, takes.kept slot fun offset before => outside offset (by omega)]
  others := by rw [takes'.others, takes.others]

/-- One range is read from live slots, and the prefix of it that is consumed is destroyed. -/
theorem Consumption.offer_eq (fn : ConsumeFn State Value) (sofar : Consumption State Value)
    (cnt : ℕ) (shown : Circular.Shows ring.size.toNat sofar.shared.buff log low)
    (before : low + cnt ≤ log.length) (ended : log.length ≤ low + ring.size.toNat)
    (fits : low % ring.size.toNat + cnt ≤ ring.size.toNat) :
    ∃ next, sofar.offer fn (low % ring.size.toNat) cnt = some next ∧
      ring.Takes sofar next log low (fn.call sofar.state ((log.drop low).take cnt)).2 ∧
      next.offered = sofar.offered ++ [⟨low % ring.size.toNat, (log.drop low).take cnt,
        (fn.call sofar.state ((log.drop low).take cnt)).2⟩] := by
  have read := shown.readRange_eq cnt low le_rfl before (by omega) fits
  have bounded := fn.bounded sofar.state ((log.drop low).take cnt)
  rw [List.length_take] at bounded
  have destroys := Circular.destroyRange_of_readRange
    (Circular.readRange_take read (bounded.trans (Nat.min_le_left _ _)))
  rw [List.take_take, Nat.min_eq_left (bounded.trans (Nat.min_le_left _ _))] at destroys
  rw [Consumption.offer, read, Option.bind_eq_bind, Option.bind_some]
  dsimp only
  rw [destroys]
  refine ⟨_, rfl, ?_, rfl⟩
  exact {
    consumed := rfl
    destroyed := rfl
    shows := shown.eraseRange _ ended (by omega)
    kept := fun slot outside => Circular.eraseRange_other (by
      by_contra inside
      refine outside (slot - low % ring.size.toNat) (by omega) ?_
      rw [← Nat.mod_add_mod, Nat.mod_eq_of_lt (by omega)]
      omega)
    others := rfl }

/-! ### One consumption -/

/-- What a batched consumption may do with the live elements `queue` of a ring. -/
structure RingSize.ConsumesPrefix (ring : RingSize) (fn : ConsumeFn State Value)
    (shared : SpscRing Value) (state : State) (queue : List Value)
    (done : Consumption State Value) : Prop where
  ranges : done.offered.length ≤ 2
  /-- Each range is contiguous and of live objects. -/
  live : ∀ range ∈ done.offered,
    Circular.readRange shared.buff range.slot range.values.length = some range.values
  fifo : (done.offered.map Offered.values).flatten <+: queue
  /-- The first range starts at the tail, and is offered whenever the ring is not empty. -/
  first : queue ≠ [] → ∃ first ∈ done.offered.head?, first.values ≠ [] ∧
    first.slot = ring.slot shared.atomicTail ∧ first.taken = (fn.call state first.values).2
  /-- A second range comes after the wrap-around, and after the first was consumed whole. -/
  wraps : ∀ first second, done.offered = [first, second] →
    first.slot + first.values.length = ring.size.toNat ∧ first.taken = first.values.length ∧
      second.slot = 0
  consumed : done.consumed = (done.offered.map Offered.taken).sum
  within : done.consumed ≤ queue.length
  /-- Exactly the elements consumed are destroyed, each once. -/
  destroyed : done.destroyed = queue.take done.consumed
  gone : ∀ offset < done.consumed,
    done.shared.buff (ring.slot (shared.atomicTail + UInt64.ofNat offset)) = none
  /-- Every other slot is as it was. -/
  kept : ∀ slot, (∀ offset < done.consumed,
    slot ≠ ring.slot (shared.atomicTail + UInt64.ofNat offset)) →
      done.shared.buff slot = shared.buff slot
  tail : done.shared.atomicTail = shared.atomicTail + UInt64.ofNat done.consumed
  head : done.shared.atomicHead = shared.atomicHead

variable {shared : SpscRing Value} {published popped : ℕ}

/-- The live elements of a ring that shows a log. -/
def queueOf (log : List Value) (published popped : ℕ) : List Value :=
  (log.take published).drop popped

theorem RingSize.View.queue_length (view : ring.View shared log published popped) :
    (queueOf log published popped).length = published - popped := by
  have within := view.within
  rw [queueOf, List.length_drop, List.length_take, Nat.min_eq_left within]

/-- A piece of the log before the published end is a piece of the queue. -/
theorem queueOf_take {count : ℕ} (within : popped + count ≤ published) :
    (queueOf log published popped).take count = (log.drop popped).take count := by
  rw [queueOf, List.drop_take, List.take_take, Nat.min_eq_left (by omega)]

/-- The ring a consumption leaves that counted on `count` elements. -/
structure RingSize.Leaves (ring : RingSize) (shared : SpscRing Value)
    (done : Consumption State Value) (log : List Value) (published popped count : ℕ) : Prop where
  view : ring.View done.shared log published (popped + done.consumed)
  within : done.consumed ≤ count
  prodTail : done.shared.prodTail = shared.prodTail
  consHead : done.shared.consHead = shared.consHead

/-- What ranges that were taken one after the other amount to. -/
theorem RingSize.View.consumesPrefix (view : ring.View shared log published popped)
    {fn : ConsumeFn State Value} {state : State} {next : Consumption State Value}
    {taken count : ℕ} (takes : ring.Takes { shared, state } next log popped taken)
    (within : taken ≤ count) (known : popped + count ≤ published) (ranges : next.offered.length ≤ 2)
    (live : ∀ range ∈ next.offered,
      Circular.readRange shared.buff range.slot range.values.length = some range.values)
    (fifo : (next.offered.map Offered.values).flatten <+: queueOf log published popped)
    (first : ∃ first ∈ next.offered.head?, first.values ≠ [] ∧
      first.slot = ring.slot shared.atomicTail ∧ first.taken = (fn.call state first.values).2)
    (wraps : ∀ first second, next.offered = [first, second] →
      first.slot + first.values.length = ring.size.toNat ∧ first.taken = first.values.length ∧
        second.slot = 0)
    (consumed : taken = (next.offered.map Offered.taken).sum) :
    ring.ConsumesPrefix fn shared state (queueOf log published popped) { next with
        shared.atomicTail := shared.atomicTail + UInt64.ofNat next.consumed } ∧
      ring.Leaves shared { next with
        shared.atomicTail := shared.atomicTail + UInt64.ofNat next.consumed } log published
        popped count := by
  have bounded := view.bounded
  have withinLog := view.within
  obtain rfl : next.consumed = taken := by rw [takes.consumed, Nat.zero_add]
  have slots : ∀ offset, ring.slot (shared.atomicTail + UInt64.ofNat offset) =
      (popped + offset) % ring.size.toNat := fun offset => by
    rw [view.tail, ofNat_add_ofNat, ring.slot_ofNat]
  refine ⟨?_, ?_⟩
  · exact {
      ranges := ranges
      live := live
      fifo := fifo
      first := fun _ => first
      wraps := wraps
      consumed := consumed
      within := by
        show next.consumed ≤ _
        rw [view.queue_length]
        omega
      destroyed := by
        show next.destroyed = (queueOf log published popped).take next.consumed
        rw [takes.destroyed, queueOf_take (by omega), List.nil_append]
      gone := fun offset before => by
        have before' : offset < next.consumed := before
        show next.shared.buff _ = none
        rw [slots, ← Nat.add_mod_right, takes.shows _ (by omega) (by omega),
          List.getElem?_eq_none (by omega)]
      kept := fun slot outside => takes.kept slot fun offset before => by
        rw [← slots]
        exact outside offset before
      tail := rfl
      head := by
        show next.shared.atomicHead = _
        rw [takes.others] }
  · have left : ring.View { next.shared with
        atomicTail := shared.atomicTail + UInt64.ofNat next.consumed } log published
        (popped + next.consumed) := {
      head := by
        show next.shared.atomicHead = _
        rw [takes.others, view.head]
      tail := by
        show shared.atomicTail + UInt64.ofNat next.consumed = _
        rw [view.tail, ofNat_add_ofNat]
      ordered := by omega
      within := view.within
      bounded := by omega
      slots := takes.shows }
    exact {
      view := left
      within := within
      prodTail := by
        show next.shared.prodTail = _
        rw [takes.others]
      consHead := by
        show next.shared.consHead = _
        rw [takes.others] }

/-- A consumption that hands over one range. -/
theorem RingSize.View.consumesPrefix_single (view : ring.View shared log published popped)
    {fn : ConsumeFn State Value} {state : State} {next : Consumption State Value} {cnt : ℕ}
    (takes : ring.Takes { shared, state } next log popped
      (fn.call state ((log.drop popped).take cnt)).2)
    (offered : next.offered = [⟨popped % ring.size.toNat, (log.drop popped).take cnt,
      (fn.call state ((log.drop popped).take cnt)).2⟩])
    (positive : 0 < cnt) (known : popped + cnt ≤ published)
    (fits : popped % ring.size.toNat + cnt ≤ ring.size.toNat) :
    ring.ConsumesPrefix fn shared state (queueOf log published popped) { next with
        shared.atomicTail := shared.atomicTail + UInt64.ofNat next.consumed } ∧
      ring.Leaves shared { next with
        shared.atomicTail := shared.atomicTail + UInt64.ofNat next.consumed } log published
        popped cnt := by
  have within := view.within
  have bounded := view.bounded
  have read := view.slots.readRange_eq cnt popped le_rfl (by omega) (by omega) fits
  have length := Circular.readRange_length read
  have taken := (fn.bounded state ((log.drop popped).take cnt)).trans length.le
  refine view.consumesPrefix takes taken known ?_ ?_ ?_ ?_ ?_ ?_
  · rw [offered]
    exact Nat.le_succ 1
  · intro range member
    rw [offered, List.mem_singleton] at member
    rw [member, length]
    exact read
  · rw [offered, ← queueOf_take known]
    simpa using List.take_prefix cnt (queueOf log published popped)
  · refine ⟨_, by rw [offered]; rfl, ?_, ?_, rfl⟩
    · exact List.ne_nil_of_length_pos (by rw [length]; exact positive)
    · rw [view.tail, ring.slot_ofNat]
  · intro first second both
    rw [offered] at both
    exact absurd (congrArg List.length both) (by simp)
  · rw [offered]
    rfl

/-- The elements behind the cached head. -/
theorem RingSize.View.avail_eq (view : ring.View shared log published popped) {count : ℕ}
    (cached : shared.consHead = UInt64.ofNat (popped + count)) :
    shared.consHead - shared.atomicTail = UInt64.ofNat count := by
  rw [cached, view.tail, ← ofNat_add_ofNat, UInt64.add_comm, UInt64.add_sub_cancel]

/-- A single range: the elements do not reach the end of the buffer. -/
theorem RingSize.View.consumeAvail_straight (view : ring.View shared log published popped)
    (fn : ConsumeFn State Value) (state : State) {count : ℕ} (positive : 0 < count)
    (cached : shared.consHead = UInt64.ofNat (popped + count)) (known : popped + count ≤ published)
    (fits : popped % ring.size.toNat + count < ring.size.toNat) :
    ∃ done, ring.consumeAvail fn shared shared.atomicTail state = some done ∧
      ring.ConsumesPrefix fn shared state (queueOf log published popped) done ∧
      ring.Leaves shared done log published popped count := by
  have within := view.within
  have bounded := view.bounded
  have sizeLt := ring.size_lt
  have avail := view.avail_eq cached
  have countNat : (UInt64.ofNat count).toNat = count := by
    rw [UInt64.toNat_ofNat', Nat.mod_eq_of_lt (by omega)]
  have past : (popped + count) % ring.size.toNat = popped % ring.size.toNat + count := by
    rw [← Nat.mod_add_mod, Nat.mod_eq_of_lt fits]
  obtain ⟨next, offers, takes, offered⟩ := Consumption.offer_eq fn { shared, state } count
    view.slots (by omega) bounded fits.le
  rw [RingSize.consumeAvail, RingSize.offerRanges, avail, countNat, view.tail, ofNat_add_ofNat,
    ring.slot_ofNat, ring.slot_ofNat, past]
  dsimp only
  rw [if_pos (by omega), offers, Option.bind_eq_bind, Option.bind_some, ← view.tail]
  exact ⟨_, rfl, view.consumesPrefix_single takes offered positive known fits.le⟩

/-- Two ranges: the first one runs to the end of the buffer. -/
theorem RingSize.View.consumeAvail_wrapped (view : ring.View shared log published popped)
    (fn : ConsumeFn State Value) (state : State) {count first : ℕ}
    (cached : shared.consHead = UInt64.ofNat (popped + count)) (known : popped + count ≤ published)
    (toEnd : popped % ring.size.toNat + first = ring.size.toNat) (wraps : first ≤ count) :
    ∃ done, ring.consumeAvail fn shared shared.atomicTail state = some done ∧
      ring.ConsumesPrefix fn shared state (queueOf log published popped) done ∧
      ring.Leaves shared done log published popped count := by
  have within := view.within
  have bounded := view.bounded
  have sizeLt := ring.size_lt
  have inside := Nat.mod_lt popped ring.size_pos
  have avail := view.avail_eq cached
  have past : (popped + count) % ring.size.toNat = count - first := by
    rw [← Nat.mod_add_mod, Nat.mod_eq_sub_mod (by omega), Nat.mod_eq_of_lt (by omega)]
    omega
  have startOver : (popped + first) % ring.size.toNat = 0 := by
    rw [← Nat.mod_add_mod, toEnd, Nat.mod_self]
  obtain ⟨middle, offers, takes, offered⟩ := Consumption.offer_eq fn { shared, state } first
    view.slots (by omega) bounded toEnd.le
  have read := view.slots.readRange_eq first popped le_rfl (by omega) (by omega) toEnd.le
  have length := Circular.readRange_length read
  have taken := (fn.bounded state ((log.drop popped).take first)).trans length.le
  have nonempty : (log.drop popped).take first ≠ [] :=
    List.ne_nil_of_length_pos (by rw [length]; omega)
  have start : ring.slot shared.atomicTail = popped % ring.size.toNat := by
    rw [view.tail, ring.slot_ofNat]
  have consumed : middle.consumed = (fn.call state ((log.drop popped).take first)).2 := by
    rw [takes.consumed, Nat.zero_add]
  rw [RingSize.consumeAvail, RingSize.offerRanges, avail, view.tail, ofNat_add_ofNat,
    ring.slot_ofNat, ring.slot_ofNat, past]
  dsimp only
  rw [if_neg (by omega), show ring.size.toNat - popped % ring.size.toNat = first by omega, offers,
    Option.bind_eq_bind, Option.bind_some, ← view.tail, consumed]
  by_cases whole : first = (fn.call state ((log.drop popped).take first)).2
  · -- The first range is gone, and the second one starts at slot 0.
    rw [if_pos whole]
    dsimp only at takes
    rw [← whole] at takes offered
    obtain ⟨next, offers', takes', offered'⟩ := Consumption.offer_eq fn middle (count - first)
      takes.shows (by omega) (by omega) (by rw [startOver]; omega)
    rw [startOver] at offers' offered'
    rw [offers', Option.bind_some]
    have second := view.slots.readRange_eq (count - first) (popped + first) (by omega) (by omega)
      (by omega) (by rw [startOver]; omega)
    have length' := Circular.readRange_length second
    have taken' := (fn.bounded middle.state ((log.drop (popped + first)).take
      (count - first))).trans length'.le
    rw [offered, List.nil_append] at offered'
    have both : first + (fn.call middle.state ((log.drop (popped + first)).take
        (count - first))).2 ≤ count := by omega
    refine ⟨_, rfl, view.consumesPrefix (takes.trans takes') both known ?_ ?_ ?_ ?_ ?_ ?_⟩
    · rw [offered']
      exact le_rfl
    · intro range member
      rw [offered'] at member
      rcases List.mem_pair.mp member with rfl | rfl
      · rw [length]
        exact read
      · rw [length', ← startOver]
        exact second
    · have flat : (log.drop popped).take first ++ (log.drop (popped + first)).take
          (count - first) = (log.drop popped).take count := by
        rw [← List.drop_drop, ← List.take_add]
        congr 1
        omega
      rw [offered']
      simp only [List.map_append, List.map_cons, List.map_nil, List.flatten_append,
        List.flatten_cons, List.flatten_nil, List.append_nil]
      rw [flat, ← queueOf_take known]
      exact List.take_prefix _ _
    · exact ⟨_, by rw [offered']; rfl, nonempty, start.symm, whole⟩
    · intro before after both
      rw [offered'] at both
      obtain ⟨rfl, rest⟩ := List.cons.inj both
      obtain ⟨rfl, -⟩ := List.cons.inj rest
      exact ⟨by rw [length]; exact toEnd, length.symm, rfl⟩
    · rw [offered']
      rfl
  · rw [if_neg whole, Option.bind_some]
    obtain ⟨consumes, leaves⟩ :=
      view.consumesPrefix_single takes offered (by omega) (by omega) toEnd.le
    exact ⟨_, rfl, consumes, leaves.view, leaves.within.trans wraps, leaves.prodTail,
      leaves.consHead⟩

theorem RingSize.View.consumeAvail (view : ring.View shared log published popped)
    (fn : ConsumeFn State Value) (state : State) {count : ℕ} (positive : 0 < count)
    (cached : shared.consHead = UInt64.ofNat (popped + count))
    (known : popped + count ≤ published) :
    ∃ done, ring.consumeAvail fn shared shared.atomicTail state = some done ∧
      ring.ConsumesPrefix fn shared state (queueOf log published popped) done ∧
      ring.Leaves shared done log published popped count := by
  have inside := Nat.mod_lt popped ring.size_pos
  by_cases fits : popped % ring.size.toNat + count < ring.size.toNat
  · exact view.consumeAvail_straight fn state positive cached known fits
  · exact view.consumeAvail_wrapped fn state cached known
      (show _ + (ring.size.toNat - popped % ring.size.toNat) = _ by omega) (by omega)

/-- What every consumption leaves for the next call. -/
structure RingSize.Consumed (ring : RingSize) (shared : SpscRing Value)
    (done : Consumption State Value) (log : List Value) (published popped : ℕ) : Prop where
  view : ring.View done.shared log published (popped + done.consumed)
  cached : done.shared.AdmissibleHead done.shared.consHead
  prodTail : done.shared.prodTail = shared.prodTail
  destroyed : done.destroyed = (queueOf log published popped).take done.consumed

theorem RingSize.Leaves.consumed {done : Consumption State Value} {count : ℕ}
    (leaves : ring.Leaves shared done log published popped count)
    (cached : shared.consHead = UInt64.ofNat (popped + count))
    (known : popped + count ≤ published)
    (destroyed : done.destroyed = (queueOf log published popped).take done.consumed) :
    ring.Consumed shared done log published popped where
  view := leaves.view
  cached := by
    have within := leaves.within
    refine ⟨count - done.consumed, by rw [leaves.view.used_eq]; omega, ?_⟩
    rw [leaves.consHead, cached, leaves.view.tail, ofNat_add_ofNat]
    congr 1
    omega
  prodTail := leaves.prodTail
  destroyed := destroyed

theorem RingSize.View.setConsHead (view : ring.View shared log published popped)
    (stale : UInt64) : ring.View { shared with consHead := stale } log published popped :=
  ⟨view.head, view.tail, view.ordered, view.within, view.bounded, view.slots⟩

/-- The consumer finds nothing behind its cached head. -/
theorem RingSize.View.sub_eq_zero_iff (view : ring.View shared log published popped) {ahead : ℕ}
    (within : popped + ahead ≤ published) :
    UInt64.ofNat (popped + ahead) - shared.atomicTail = 0 ↔ ahead = 0 := by
  have sizeLt := ring.size_lt
  have withinLog := view.within
  have bounded := view.bounded
  rw [view.tail, Circular.ofNat_sub_eq_zero (Nat.le_add_right _ _) (by omega),
    Nat.add_eq_left]

/-- Elements behind a head that may be cached are elements to count on. -/
theorem RingSize.View.count_behind (view : ring.View shared log published popped)
    {stale : UInt64} (admissible : shared.AdmissibleHead stale)
    (some : stale - shared.atomicTail ≠ 0) :
    ∃ count, 0 < count ∧ stale = UInt64.ofNat (popped + count) ∧ popped + count ≤ published := by
  obtain ⟨ahead, within, cached⟩ := admissible
  have ordered := view.ordered
  rw [view.used_eq] at within
  rw [view.tail, ofNat_add_ofNat] at cached
  have known : popped + ahead ≤ published := by omega
  rw [cached] at some
  exact ⟨ahead, Nat.pos_of_ne_zero (some ∘ (view.sub_eq_zero_iff known).mpr), cached, known⟩

theorem RingSize.View.head_eq (view : ring.View shared log published popped) :
    shared.atomicHead = UInt64.ofNat (popped + (published - popped)) := by
  rw [view.head, Nat.add_sub_cancel' view.ordered]

theorem RingSize.View.admissibleHead_self (view : ring.View shared log published popped) :
    shared.AdmissibleHead shared.atomicHead :=
  ⟨published - popped, view.used_eq.ge, by rw [view.tail, ofNat_add_ofNat, ← view.head_eq]⟩

/-- Nothing behind the true head is an empty ring. -/
theorem RingSize.View.empty_of_head (view : ring.View shared log published popped)
    (nothing : shared.atomicHead - shared.atomicTail = 0) : published = popped := by
  have ordered := view.ordered
  rw [view.head_eq, view.sub_eq_zero_iff (by omega)] at nothing
  omega

/-- A consumption of an empty ring does nothing but load the head. -/
theorem RingSize.View.consumed_empty (view : ring.View shared log published popped)
    (state : State) (empty : published = popped) :
    ring.Consumed shared { shared := { shared with consHead := shared.atomicHead }, state } log
      published popped where
  view := view.setConsHead _
  cached := ⟨0, Nat.zero_le _, by
    show shared.atomicHead = shared.atomicTail + 0
    rw [UInt64.add_zero, view.head, view.tail, empty]⟩
  prodTail := rfl
  destroyed := rfl

theorem RingSize.View.consumesPrefix_empty (view : ring.View shared log published popped)
    (fn : ConsumeFn State Value) (state : State) (empty : published = popped) :
    ring.ConsumesPrefix fn shared state (queueOf log published popped)
      { shared := { shared with consHead := shared.atomicHead }, state } := by
  have nil : queueOf log published popped = [] :=
    List.eq_nil_of_length_eq_zero (by rw [view.queue_length, empty, Nat.sub_self])
  rw [nil]
  exact {
    ranges := Nat.zero_le _
    live := fun _ member => absurd member List.not_mem_nil
    fifo := List.nil_prefix
    first := fun some => absurd rfl some
    wraps := fun _ _ both => absurd both.symm (List.cons_ne_nil _ _)
    consumed := rfl
    within := le_rfl
    destroyed := rfl
    gone := fun _ before => absurd before (Nat.not_lt_zero _)
    kept := fun _ _ => rfl
    tail := (UInt64.add_zero _).symm
    head := rfl }

/-- Which head is cached does not show in what the ranges amount to. -/
theorem RingSize.ConsumesPrefix.of_setConsHead {fn : ConsumeFn State Value} {state : State}
    {queue : List Value} {done : Consumption State Value} {stale : UInt64}
    (offered : ring.ConsumesPrefix fn { shared with consHead := stale } state queue done) :
    ring.ConsumesPrefix fn shared state queue done :=
  ⟨offered.ranges, offered.live, offered.fifo, offered.first, offered.wraps, offered.consumed,
    offered.within, offered.destroyed, offered.gone, offered.kept, offered.tail, offered.head⟩

theorem RingSize.Consumed.of_setConsHead {done : Consumption State Value} {stale : UInt64}
    (consumed : ring.Consumed { shared with consHead := stale } done log published popped) :
    ring.Consumed shared done log published popped :=
  ⟨consumed.view, consumed.cached, consumed.prodTail, consumed.destroyed⟩

/-- The batched consumption of a ring with any admissible cached head. -/
theorem RingSize.View.tryConsume (view : ring.View shared log published popped)
    (cached : shared.AdmissibleHead shared.consHead) (fn : ConsumeFn State Value)
    (state : State) :
    ∃ done, ring.tryConsume fn shared state = some done ∧
      ring.ConsumesPrefix fn shared state (queueOf log published popped) done ∧
      ring.Consumed shared done log published popped := by
  unfold RingSize.tryConsume
  dsimp only
  split
  · split
    · next nothing =>
      have empty := view.empty_of_head nothing
      exact ⟨_, rfl, view.consumesPrefix_empty fn state empty, view.consumed_empty state empty⟩
    · next some =>
      obtain ⟨count, positive, loaded, known⟩ :=
        view.count_behind view.admissibleHead_self some
      obtain ⟨done, consumes, offered, leaves⟩ := (view.setConsHead shared.atomicHead).consumeAvail
        fn state positive loaded known
      have consumed := leaves.consumed loaded known offered.destroyed
      exact ⟨done, consumes, offered.of_setConsHead, consumed.of_setConsHead⟩
  · next some =>
    obtain ⟨count, positive, stale, known⟩ := view.count_behind cached some
    obtain ⟨done, consumes, offered, leaves⟩ := view.consumeAvail fn state positive stale known
    exact ⟨done, consumes, offered, leaves.consumed stale known offered.destroyed⟩

/-- The single consumption of a ring that is not empty. -/
theorem RingSize.View.consumeFront (view : ring.View shared log published popped)
    (fn : Value → Bool) {count : ℕ} (positive : 0 < count)
    (cached : shared.consHead = UInt64.ofNat (popped + count))
    (known : popped + count ≤ published) :
    ∃ done, ring.consumeFront fn shared shared.atomicTail = some done ∧
      ring.Consumed shared done log published popped := by
  have within := view.within
  have bounded := view.bounded
  have inside := Nat.mod_lt popped ring.size_pos
  obtain ⟨next, offers, takes, offered⟩ := Consumption.offer_eq (oneBy fn)
    { shared, state := () } 1 view.slots (by omega) bounded inside
  obtain ⟨consumes, leaves⟩ :=
    view.consumesPrefix_single takes offered Nat.one_pos (by omega) inside
  have consumed := Leaves.consumed
    ⟨leaves.view, leaves.within.trans positive, leaves.prodTail, leaves.consHead⟩ cached known
    consumes.destroyed
  have most : next.consumed ≤ 1 := leaves.within
  have start : ring.slot shared.atomicTail = popped % ring.size.toNat := by
    rw [view.tail, ring.slot_ofNat]
  rw [RingSize.consumeFront, start, offers, Option.bind_eq_bind, Option.bind_some]
  refine ⟨_, ?_, consumed⟩
  by_cases refused : next.consumed = 0
  · have same : shared.atomicTail + UInt64.ofNat next.consumed = next.shared.atomicTail := by
      rw [refused, takes.others]
      exact UInt64.add_zero _
    rw [if_pos refused, same]
  · have one : UInt64.ofNat next.consumed = 1 := by
      rw [show next.consumed = 1 by omega]
      rfl
    rw [if_neg refused, one]

theorem RingSize.View.tryConsumeFront (view : ring.View shared log published popped)
    (cached : shared.AdmissibleHead shared.consHead) (fn : Value → Bool) :
    ∃ done, ring.tryConsumeFront fn shared = some done ∧
      ring.Consumed shared done log published popped := by
  unfold RingSize.tryConsumeFront
  dsimp only
  split
  · split
    · next nothing => exact ⟨_, rfl, view.consumed_empty () (view.empty_of_head nothing)⟩
    · next some =>
      obtain ⟨count, positive, loaded, known⟩ :=
        view.count_behind view.admissibleHead_self some
      obtain ⟨done, consumes, consumed⟩ := (view.setConsHead shared.atomicHead).consumeFront fn
        positive loaded known
      exact ⟨done, consumes, consumed.of_setConsHead⟩
  · next some =>
    obtain ⟨count, positive, stale, known⟩ := view.count_behind cached some
    exact view.consumeFront fn positive stale known

/-! ### The same consumption in the ring with two threads -/

theorem Consumption.offer_eq_some {fn : ConsumeFn State Value}
    {sofar next : Consumption State Value} {slot cnt : ℕ}
    (result : sofar.offer fn slot cnt = some next) :
    ∃ values, Circular.readRange sofar.shared.buff slot cnt = some values ∧
      next.shared.buff =
        Circular.eraseRange sofar.shared.buff slot (fn.call sofar.state values).2 ∧
      next.state = (fn.call sofar.state values).1 ∧
      next.consumed = sofar.consumed + (fn.call sofar.state values).2 := by
  rw [Consumption.offer, Option.bind_eq_bind, Option.bind_eq_some_iff] at result
  obtain ⟨values, read, result⟩ := result
  have bounded := fn.bounded sofar.state values
  rw [Circular.readRange_length read] at bounded
  dsimp only at result
  rw [Circular.destroyRange_of_readRange (Circular.readRange_take read bounded)] at result
  rw [← Option.some.inj result]
  exact ⟨values, read, rfl, rfl, rfl⟩

/-- Slots, callable and result are those of the step the consumer's thread takes. -/
theorem RingSize.consumeAvail_consumeRanges {fn : ConsumeFn State Value} {consTail : UInt64}
    {state : State} {done : Consumption State Value}
    (result : ring.consumeAvail fn shared consTail state = some done) :
    ring.consumeRanges fn shared.buff consTail (shared.consHead - consTail) state =
      some (done.shared.buff, done.state, done.consumed) := by
  rw [RingSize.consumeAvail, Option.bind_eq_bind, Option.bind_eq_some_iff] at result
  obtain ⟨next, offers, stored⟩ := result
  rw [← Option.some.inj stored, RingSize.consumeRanges]
  rw [RingSize.offerRanges] at offers
  dsimp only at offers ⊢
  by_cases straight : ring.slot (consTail + (shared.consHead - consTail)) > ring.slot consTail
  · rw [if_pos straight] at offers ⊢
    obtain ⟨values, read, buff, left, consumed⟩ := Consumption.offer_eq_some offers
    rw [read, buff, left, consumed, Nat.zero_add]
    rfl
  · rw [if_neg straight] at offers ⊢
    rw [Option.bind_eq_bind, Option.bind_eq_some_iff] at offers
    obtain ⟨middle, offers, rest⟩ := offers
    obtain ⟨values, read, buff, left, consumed⟩ := Consumption.offer_eq_some offers
    rw [Nat.zero_add] at consumed
    rw [read, Option.bind_eq_bind, Option.bind_some, ← buff, ← left, ← consumed]
    split at rest
    · next whole =>
      obtain ⟨values', read', buff', left', consumed'⟩ := Consumption.offer_eq_some rest
      rw [if_pos whole, read', buff', left', consumed']
      rfl
    · next short =>
      rw [if_neg short, Option.some.inj rest]

/-! ### Objects with identities -/

/-- An object of the ring: the number of its construction, and its value. -/
structure Object (Value : Type) where
  number : ℕ
  value : Value

/-- The ring with the objects constructed and destroyed so far. -/
structure LiveRing (Value : Type) where
  shared : SpscRing (Object Value) := {}
  constructed : List (Object Value) := []
  destroyed : List (Object Value) := []

/-- The calls of the two threads. -/
inductive RingCall (Value : Type) : Type 1 where
  | push (call : PushCall Value)
  | pop
  | popBatch (sz : UInt64)
  | consumeFront (fn : Object Value → Bool)
  | consume {State : Type} (fn : ConsumeFn State (Object Value)) (state : State)

/-- The objects constructed from an array, numbered from `start` on. -/
def objectsFrom (start : ℕ) : List Value → List (Object Value)
  | [] => []
  | value :: rest => ⟨start, value⟩ :: objectsFrom (start + 1) rest

/-- The ring after a consumption. -/
def LiveRing.after (live : LiveRing Value) (done : Consumption State (Object Value)) :
    LiveRing Value :=
  { live with shared := done.shared, destroyed := live.destroyed ++ done.destroyed }

/-- One call, `none` when it constructs on a live slot, or shows or destroys a dead one. -/
def RingSize.callStep (ring : RingSize) (live : LiveRing Value) :
    RingCall Value → Option (LiveRing Value)
  | .push (.single value) => do
    let objects := objectsFrom live.constructed.length [value]
    let (shared, accepted) ← ring.tryPush live.shared ⟨live.constructed.length, value⟩
    some { live with
      shared, constructed := live.constructed ++ if accepted then objects else [] }
  | .push (.batch values _) => do
    let objects := objectsFrom live.constructed.length values
    let (shared, cnt) ← ring.tryPushBatch live.shared objects
    some { live with shared, constructed := live.constructed ++ objects.take cnt }
  | .pop => (ring.tryPop live.shared).map live.after
  | .popBatch sz => (ring.tryPopBatch live.shared sz).map live.after
  | .consumeFront fn => (ring.tryConsumeFront fn live.shared).map live.after
  | .consume fn state => (ring.tryConsume fn live.shared state).map live.after

/-- Every sequence of calls. -/
def RingSize.callMachine (ring : RingSize) (Value : Type) :
    Machine (LiveRing Value) (RingCall Value) where
  step := ring.callStep

/-- The loop of `~spsc_ring`: `try_pop` into an array of `min(16, size)` until it returns 0.
The fuel bounds the number of its rounds. -/
def RingSize.drain (ring : RingSize) : ℕ → LiveRing Value → Option (LiveRing Value)
  | 0, _ => none
  | fuel + 1, live => do
    let done ← ring.tryPopBatch live.shared (min 16 ring.size)
    if done.consumed > 0 then ring.drain fuel (live.after done) else some (live.after done)

theorem objectsFrom_take (start cnt : ℕ) (values : List Value) :
    (objectsFrom start values).take cnt = objectsFrom start (values.take cnt) := by
  induction values generalizing start cnt with
  | nil => rw [List.take_nil, objectsFrom, List.take_nil]
  | cons value rest inductionHypothesis =>
    cases cnt with
    | zero => rfl
    | succ cnt =>
      rw [objectsFrom, List.take_succ_cons, List.take_succ_cons, objectsFrom,
        inductionHypothesis]

theorem objectsFrom_length (start : ℕ) (values : List Value) :
    (objectsFrom start values).length = values.length := by
  induction values generalizing start with
  | nil => rfl
  | cons value rest inductionHypothesis =>
    rw [objectsFrom, List.length_cons, List.length_cons, inductionHypothesis]

/-- The numbers of the objects constructed from an array are consecutive. -/
theorem objectsFrom_numbers (start : ℕ) (values : List Value) :
    (objectsFrom start values).map Object.number = List.range' start values.length := by
  induction values generalizing start with
  | nil => rfl
  | cons value rest inductionHypothesis =>
    rw [objectsFrom, List.map_cons, inductionHypothesis, List.length_cons, List.range'_succ]

/-- What holds between two calls: the ring shows the constructed objects, numbered in order,
and those destroyed are the first of them. -/
structure RingSize.Alive (ring : RingSize) (live : LiveRing Value) : Prop where
  view : ring.View live.shared live.constructed live.constructed.length live.destroyed.length
  cachedTail : ring.AdmissibleTail live.shared live.shared.prodTail
  cachedHead : live.shared.AdmissibleHead live.shared.consHead
  destroyed : live.destroyed = live.constructed.take live.destroyed.length
  numbers : live.constructed.map Object.number = List.range live.constructed.length

theorem RingSize.alive_init (ring : RingSize) : ring.Alive ({} : LiveRing Value) := by
  have view : ring.View ({} : SpscRing (Object Value)) [] 0 0 :=
    ⟨rfl, rfl, le_rfl, le_rfl, Nat.zero_le _, Circular.shows_empty _⟩
  exact {
    view := view
    cachedTail := view.admissible_self
    cachedHead := ⟨0, Nat.zero_le _, (UInt64.add_zero _).symm⟩
    destroyed := rfl
    numbers := rfl }

variable {live : LiveRing Value}

/-- A push constructs its objects behind the others. -/
theorem RingSize.Alive.pushed (alive : ring.Alive live) {next : SpscRing (Object Value)}
    {accepted : List Value}
    (pushed : ring.Pushed live.shared next live.constructed live.destroyed.length
      (objectsFrom live.constructed.length accepted)) :
    ring.Alive { live with
      shared := next
      constructed := live.constructed ++ objectsFrom live.constructed.length accepted } where
  view := pushed.view
  cachedTail := pushed.cached
  cachedHead := by
    obtain ⟨ahead, within, stale⟩ := alive.cachedHead
    have used := alive.view.used_eq
    refine ⟨ahead, ?_, ?_⟩
    · show ahead ≤ next.used
      rw [pushed.view.used_eq, List.length_append]
      omega
    · show next.consHead = next.atomicTail + _
      rw [pushed.consHead, stale, pushed.view.tail, alive.view.tail]
  destroyed := by
    show live.destroyed = _
    rw [List.take_append_of_le_length alive.view.ordered]
    exact alive.destroyed
  numbers := by
    rw [List.map_append, alive.numbers, objectsFrom_numbers, List.length_append,
      objectsFrom_length, List.range_eq_range', List.range_eq_range', ← List.range'_append_1,
      Nat.zero_add]

/-- A consumption destroys the oldest objects. -/
theorem RingSize.Alive.after (alive : ring.Alive live) {done : Consumption State (Object Value)}
    (consumed : ring.Consumed live.shared done live.constructed live.constructed.length
      live.destroyed.length) :
    ring.Alive (live.after done) := by
  have ordered := consumed.view.ordered
  have queue : queueOf live.constructed live.constructed.length live.destroyed.length =
      live.constructed.drop live.destroyed.length := by
    rw [queueOf, List.take_length]
  have destroyed := consumed.destroyed
  rw [queue] at destroyed
  have length : (live.after done).destroyed.length = live.destroyed.length + done.consumed := by
    rw [LiveRing.after, List.length_append, destroyed, List.length_take, List.length_drop]
    omega
  exact {
    view := by
      rw [length]
      exact consumed.view
    cachedTail := by
      obtain ⟨back, stale, room⟩ := alive.cachedTail
      refine ⟨back + done.consumed, ?_, ?_⟩
      · show done.shared.prodTail = done.shared.atomicTail - _
        rw [consumed.prodTail, stale, alive.view.tail, consumed.view.tail,
          Circular.ofNat_add_sub_add]
      · show done.shared.used + _ ≤ _
        rw [alive.view.used_eq] at room
        rw [consumed.view.used_eq]
        omega
    cachedHead := consumed.cached
    destroyed := by
      show live.destroyed ++ done.destroyed =
        live.constructed.take (live.after done).destroyed.length
      rw [length, destroyed, List.take_add, ← alive.destroyed]
    numbers := alive.numbers }

/-- No call constructs on a live slot, or shows or destroys a dead one. -/
theorem RingSize.Alive.step (alive : ring.Alive live) (call : RingCall Value) :
    ∃ next, ring.callStep live call = some next ∧ ring.Alive next := by
  have consumption {State : Type} {result : Option (Consumption State (Object Value))}
      (consumes : ∃ done, result = some done ∧ ring.Consumed live.shared done live.constructed
        live.constructed.length live.destroyed.length) :
      ∃ next, result.map live.after = some next ∧ ring.Alive next := by
    obtain ⟨done, rfl, consumed⟩ := consumes
    exact ⟨_, rfl, alive.after consumed⟩
  cases call with
  | push call =>
    cases call with
    | single value =>
      obtain ⟨next, pushes, pushed⟩ :=
        alive.view.tryPush alive.cachedTail ⟨live.constructed.length, value⟩
      rw [RingSize.callStep, pushes, Option.bind_eq_bind, Option.bind_some]
      refine ⟨_, rfl, ?_⟩
      by_cases more : live.shared.used < ring.size.toNat
      · rw [if_pos more] at pushed
        rw [decide_eq_true more]
        exact alive.pushed (show ring.Pushed _ _ _ _ (objectsFrom _ [value]) from pushed)
      · rw [if_neg more] at pushed
        rw [decide_eq_false more]
        exact alive.pushed (show ring.Pushed _ _ _ _ (objectsFrom _ []) from pushed)
    | batch values fits =>
      have fits' : (objectsFrom live.constructed.length values).length < 2 ^ 64 := by
        rw [objectsFrom_length]
        exact fits
      obtain ⟨next, pushes, pushed⟩ := alive.view.tryPushBatch alive.cachedTail fits'
      rw [objectsFrom_take] at pushed
      rw [RingSize.callStep, pushes, Option.bind_eq_bind, Option.bind_some]
      dsimp only
      rw [objectsFrom_take]
      exact ⟨_, rfl, alive.pushed pushed⟩
  | pop => exact consumption (alive.view.tryConsumeFront alive.cachedHead _)
  | popBatch sz =>
    obtain ⟨done, consumes, -, consumed⟩ :=
      alive.view.tryConsume alive.cachedHead popInto (sz.toNat, [])
    exact consumption ⟨done, consumes, consumed⟩
  | consumeFront fn => exact consumption (alive.view.tryConsumeFront alive.cachedHead fn)
  | consume fn state =>
    obtain ⟨done, consumes, -, consumed⟩ := alive.view.tryConsume alive.cachedHead fn state
    exact consumption ⟨done, consumes, consumed⟩

theorem RingSize.Alive.run (alive : ring.Alive live) (calls : List (RingCall Value)) :
    ∃ next, (ring.callMachine Value).run live calls = some next ∧ ring.Alive next := by
  induction calls generalizing live with
  | nil => exact ⟨live, rfl, alive⟩
  | cons call rest inductionHypothesis =>
    obtain ⟨middle, step, alive'⟩ := alive.step call
    obtain ⟨next, run, alive''⟩ := inductionHypothesis alive'
    refine ⟨next, ?_, alive''⟩
    rw [Machine.run_cons]
    exact Option.bind_eq_some_iff.mpr ⟨middle, step, run⟩

/-! ### The destructor -/

/-- A `try_pop` that wants something takes something as long as the ring is not empty. -/
theorem RingSize.ConsumesPrefix.pops {queue : List Value} {sz : ℕ}
    {done : Consumption (ℕ × List Value) Value}
    (consumes : ring.ConsumesPrefix popInto shared (sz, []) queue done) (wanted : 0 < sz)
    (some : queue ≠ []) : 0 < done.consumed := by
  obtain ⟨first, head, nonempty, -, taken⟩ := consumes.first some
  rw [popInto_call] at taken
  have length := List.length_pos_of_ne_nil nonempty
  cases offered : done.offered with
  | nil =>
    rw [offered] at head
    exact absurd head (Option.not_mem_none _)
  | cons range rest =>
    rw [offered] at head
    obtain rfl := Option.mem_some.mp head
    rw [consumes.consumed, offered, List.map_cons, List.sum_cons, taken]
    show 0 < min sz range.values.length + _
    omega

/-- The loop of the destructor ends with the ring empty. -/
theorem RingSize.Alive.drain (alive : ring.Alive live) {fuel : ℕ}
    (enough : live.shared.used < fuel) :
    ∃ final, ring.drain fuel live = some final ∧ ring.Alive final ∧ final.shared.used = 0 ∧
      final.constructed = live.constructed := by
  induction fuel generalizing live with
  | zero => exact absurd enough (Nat.not_lt_zero _)
  | succ fuel inductionHypothesis =>
    obtain ⟨done, pops, consumes, consumed⟩ := alive.view.tryConsume alive.cachedHead popInto
      ((min 16 ring.size).toNat, [])
    have alive' := alive.after consumed
    have used := alive.view.used_eq
    have used' := consumed.view.used_eq
    rw [RingSize.drain, RingSize.tryPopBatch, pops, Option.bind_eq_bind, Option.bind_some]
    by_cases more : done.consumed > 0
    · rw [if_pos more]
      obtain ⟨final, drains, rest⟩ := inductionHypothesis alive' (show done.shared.used < fuel by
        have ordered := consumed.view.ordered
        omega)
      exact ⟨final, drains, rest⟩
    · rw [if_neg more]
      refine ⟨_, rfl, alive', ?_, rfl⟩
      by_contra held
      refine more (consumes.pops ?_ fun empty => held ?_)
      · have positive := ring.size_pos
        rw [UInt64.toNat_min]
        exact Nat.lt_min.mpr ⟨by decide, positive⟩
      · have length := alive.view.queue_length
        rw [empty, List.length_nil] at length
        show done.shared.used = 0
        omega

/-- More fuel changes nothing once the loop has ended. -/
theorem RingSize.drain_of_le {fuel more : ℕ} {final : LiveRing Value}
    (drains : ring.drain fuel live = some final) (enough : fuel ≤ more) :
    ring.drain more live = some final := by
  induction fuel generalizing live more with
  | zero => exact absurd drains (by simp [RingSize.drain])
  | succ fuel inductionHypothesis =>
    obtain ⟨more, rfl⟩ : ∃ fewer, more = fewer + 1 := ⟨more - 1, by omega⟩
    rw [RingSize.drain, Option.bind_eq_bind, Option.bind_eq_some_iff] at drains ⊢
    obtain ⟨done, pops, rest⟩ := drains
    refine ⟨done, pops, ?_⟩
    split at rest
    · next taken =>
      rw [if_pos taken]
      exact inductionHypothesis rest (Nat.le_of_succ_le_succ enough)
    · next nothing =>
      rw [if_neg nothing]
      exact rest

/-! ### Consumption and lifetimes -/

/-- Whatever admissible head the consumer has cached, its own one included, and whatever the
callable does, a batched consumption of the ring hands over and destroys live elements only, as
`ConsumesPrefix` says, and the later ones stay. -/
def RingSize.ConsumesWell (ring : RingSize) (shared : SpscRing Value) : Prop :=
  ∃ queue, ring.stored shared = queue.map some ∧ shared.AdmissibleHead shared.consHead ∧
    ∀ stale, shared.AdmissibleHead stale →
      ∀ (State : Type) (fn : ConsumeFn State Value) (state : State), ∃ done,
        ring.tryConsume fn { shared with consHead := stale } state = some done ∧
        ring.ConsumesPrefix fn { shared with consHead := stale } state queue done ∧
        ring.stored done.shared = (queue.drop done.consumed).map some

theorem RingSize.View.consumesWell (view : ring.View shared log published popped)
    (cached : shared.AdmissibleHead shared.consHead) : ring.ConsumesWell shared := by
  refine ⟨queueOf log published popped, view.stored_eq, cached, fun stale admissible => ?_⟩
  intro State fn state
  obtain ⟨done, consumes, offered, consumed⟩ :=
    (view.setConsHead stale).tryConsume admissible fn state
  refine ⟨done, consumes, offered, ?_⟩
  rw [consumed.view.stored_eq, queueOf, List.drop_drop]

/-- Once the consumer has caught up every object that was constructed is destroyed, and none is
left in a slot. -/
theorem RingSize.Alive.of_empty (alive : ring.Alive live) (empty : live.shared.used = 0) :
    live.destroyed = live.constructed ∧
      ∀ slot < ring.size.toNat, live.shared.buff slot = none := by
  have ordered := alive.view.ordered
  have slots := alive.view.slots
  rw [alive.view.used_eq] at empty
  have all : live.destroyed.length = live.constructed.length := by omega
  have destroyed := alive.destroyed
  rw [all, List.take_length] at destroyed
  rw [all] at slots
  exact ⟨destroyed, fun slot inside => slots.all_empty inside⟩

theorem RingSize.Alive.nodup (alive : ring.Alive live) :
    (live.constructed.map Object.number).Nodup := by
  rw [alive.numbers]
  exact List.nodup_range

/-- In every reachable state, the producer anywhere in its call, a batched consumption hands over
and destroys live elements only. Every sequence of calls constructs on empty slots only, and
after it the destructor's loop ends, with an empty ring, and with every constructed object
destroyed exactly once. -/
theorem spsc_lifetimes (ring : RingSize) (Value : Type) :
    (∀ labels threads, (ring.machine Value).run {} labels = some threads →
      threads.consumer = .idle → ring.ConsumesWell threads.shared) ∧
    ∀ calls : List (RingCall Value), ∃ live final,
      (ring.callMachine Value).run {} calls = some live ∧ ring.ConsumesWell live.shared ∧
      (∀ fuel > live.shared.used, ring.drain fuel live = some final) ∧
      final.constructed = live.constructed ∧ final.destroyed = final.constructed ∧
      (final.constructed.map Object.number).Nodup ∧ final.shared.used = 0 ∧
      ∀ slot < ring.size.toNat, final.shared.buff slot = none := by
  constructor
  · intro labels threads run resting
    have invariant := ring.invariant_of_run run
    exact (invariant.view resting).consumesWell (invariant.admissibleHead resting)
  · intro calls
    obtain ⟨live, run, alive⟩ := ring.alive_init.run calls
    obtain ⟨final, drains, alive', empty, constructed⟩ :=
      alive.drain (Nat.lt_succ_self live.shared.used)
    obtain ⟨destroyed, free⟩ := alive'.of_empty empty
    exact ⟨live, final, run, alive.view.consumesWell alive.cachedHead,
      fun fuel enough => RingSize.drain_of_le drains enough, constructed, destroyed, alive'.nodup,
      empty, free⟩

end TrafficGenerator
