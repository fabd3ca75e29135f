/-
This file compares the two ways to push an array: one batched `try_push`, and
`try_push` of one value after the other until the first refusal.

Here a call runs from its first load to its last store while the consumer does
nothing, so it is a function on the ring. An object is constructed with a check
that its slot holds none, so a result says that the check passed each time. The
batched call looks at the true tail as soon as the cached one leaves less room
than the array needs, the single one only when the cached one leaves none; a view
of the ring that does not mention the cached tail shows that both accept the same
values. Every whole call is also a run of the producer's steps of the ring with
two threads.
-/

import TrafficGenerator.SpscFifo

namespace TrafficGenerator

variable {Value : Type} (ring : RingSize)

/-! ### The producer's calls from start to end -/

/-- The construction loop: each object into a slot that must not hold one. -/
def RingSize.constructEach (ring : RingSize) (buff : ℕ → Option Value) (prodHead : UInt64) :
    List Value → Option (ℕ → Option Value)
  | [] => some buff
  | value :: rest => do
    let buff ← Circular.construct buff (ring.slot prodHead) value
    ring.constructEach buff (prodHead + 1) rest

/-- What both `try_push` do with a ring that has room for `values`: they construct them and
store the head. -/
def RingSize.pushAt (ring : RingSize) (shared : SpscRing Value) (prodHead : UInt64)
    (values : List Value) : Option (SpscRing Value) := do
  let buff ← ring.constructEach shared.buff prodHead values
  some { shared with buff, atomicHead := prodHead + UInt64.ofNat values.length }

/-- `try_push` of one value. -/
def RingSize.tryPush (ring : RingSize) (shared : SpscRing Value) (value : Value) :
    Option (SpscRing Value × Bool) :=
  let prodHead := shared.atomicHead
  if prodHead - shared.prodTail = ring.size then
    let shared := { shared with prodTail := shared.atomicTail }
    if prodHead - shared.prodTail = ring.size then some (shared, false)
    else do
      let shared ← ring.pushAt shared prodHead [value]
      some (shared, true)
  else do
    let shared ← ring.pushAt shared prodHead [value]
    some (shared, true)

/-- `try_push` of an array: `values` are the `sz` objects from `from` on. -/
def RingSize.tryPushBatch (ring : RingSize) (shared : SpscRing Value) (values : List Value) :
    Option (SpscRing Value × ℕ) :=
  let prodHead := shared.atomicHead
  let sz := UInt64.ofNat values.length
  let cntAvail := ring.cntAvail prodHead shared.prodTail
  if cntAvail < sz then
    let shared := { shared with prodTail := shared.atomicTail }
    let cntAvail := ring.cntAvail prodHead shared.prodTail
    if cntAvail = 0 then some (shared, 0)
    else do
      let sz := (min sz cntAvail).toNat
      let shared ← ring.pushAt shared prodHead (values.take sz)
      some (shared, sz)
  else do
    let sz := (min sz cntAvail).toNat
    let shared ← ring.pushAt shared prodHead (values.take sz)
    some (shared, sz)

/-- `try_push` of one value of the array after the other, until one is refused. -/
def RingSize.pushEach (ring : RingSize) (shared : SpscRing Value) :
    List Value → Option (SpscRing Value × ℕ)
  | [] => some (shared, 0)
  | value :: rest => do
    let (shared, accepted) ← ring.tryPush shared value
    if accepted then
      let (shared, cnt) ← ring.pushEach shared rest
      some (shared, cnt + 1)
    else some (shared, 0)

/-! ### What a ring shows -/

/-- The occupancy of the ring: `head - tail`. -/
def SpscRing.used (shared : SpscRing Value) : ℕ := (shared.atomicHead - shared.atomicTail).toNat

/-- What the slots from the tail up to the head hold. -/
def RingSize.stored (ring : RingSize) (shared : SpscRing Value) : List (Option Value) :=
  (List.range shared.used).map fun offset =>
    shared.buff (ring.slot (shared.atomicTail + UInt64.ofNat offset))

/-- A tail the producer may still have cached: the true one was that far back when the head
was at most the size ahead of it. -/
def RingSize.AdmissibleTail (ring : RingSize) (shared : SpscRing Value) (stale : UInt64) : Prop :=
  ∃ back, stale = shared.atomicTail - UInt64.ofNat back ∧ shared.used + back ≤ ring.size.toNat

/-- A head the consumer may still have cached: one between the true tail and the true head. -/
def SpscRing.AdmissibleHead (shared : SpscRing Value) (stale : UInt64) : Prop :=
  ∃ ahead ≤ shared.used, stale = shared.atomicTail + UInt64.ofNat ahead

/-- The ring stands for a log of values: the first `popped` are gone, and the first `published`
are counted by the head. Values behind those are under construction. -/
structure RingSize.View (ring : RingSize) (shared : SpscRing Value) (log : List Value)
    (published popped : ℕ) : Prop where
  head : shared.atomicHead = UInt64.ofNat published
  tail : shared.atomicTail = UInt64.ofNat popped
  ordered : popped ≤ published
  within : published ≤ log.length
  bounded : log.length ≤ popped + ring.size.toNat
  slots : Circular.Shows ring.size.toNat shared.buff log popped

variable {ring} {shared next : SpscRing Value} {log : List Value} {published popped : ℕ}

theorem RingSize.View.used_eq (view : ring.View shared log published popped) :
    shared.used = published - popped := by
  have sizeLt := ring.size_lt
  have within := view.within
  have bounded := view.bounded
  rw [SpscRing.used, view.head, view.tail,
    Circular.toNat_ofNat_sub view.ordered (by omega)]

theorem RingSize.View.used_le (view : ring.View shared log published popped) :
    shared.used ≤ ring.size.toNat := by
  have within := view.within
  have bounded := view.bounded
  rw [view.used_eq]
  omega

/-- The slots between the tail and the head hold the published values that are not popped. -/
theorem RingSize.View.stored_eq (view : ring.View shared log published popped) :
    ring.stored shared = ((log.take published).drop popped).map some := by
  have ordered := view.ordered
  have within := view.within
  have bounded := view.bounded
  refine List.ext_getElem (by simp [RingSize.stored, view.used_eq]; omega) fun offset low _ => ?_
  rw [RingSize.stored, List.length_map, List.length_range, view.used_eq] at low
  simp only [RingSize.stored, List.getElem_map, List.getElem_range, List.getElem_drop,
    List.getElem_take]
  rw [view.tail, ofNat_add_ofNat, ring.slot_ofNat]
  exact view.slots.read (Nat.le_add_right _ _) (by omega) (by omega)

/-- A cached tail measures the occupancy and how far it is behind. -/
theorem RingSize.AdmissibleTail.toNat_sub {stale : UInt64} {back : ℕ}
    (cached : stale = shared.atomicTail - UInt64.ofNat back)
    (room : shared.used + back ≤ ring.size.toNat) :
    (shared.atomicHead - stale).toNat = shared.used + back := by
  have sizeLt := ring.size_lt
  rw [SpscRing.used] at room ⊢
  rw [cached, UInt64.toNat_sub, UInt64.toNat_sub, UInt64.toNat_ofNat']
  rw [UInt64.toNat_sub] at room ⊢
  have head := shared.atomicHead.toNat_lt
  have tail := shared.atomicTail.toNat_lt
  omega

/-- A cached tail stays admissible when the tail moves on. -/
theorem RingSize.AdmissibleTail.of_log {old : ℕ} (view : ring.View shared log published popped)
    (order : old ≤ popped) (room : published ≤ old + ring.size.toNat) :
    ring.AdmissibleTail shared (UInt64.ofNat old) := by
  have ordered := view.ordered
  refine ⟨popped - old, ?_, by rw [view.used_eq]; omega⟩
  rw [view.tail, ← UInt64.ofNat_sub (Nat.sub_le _ _), Nat.sub_sub_self order]

/-- Between the calls of the consumer the ring with two threads shows such a log. -/
theorem RingSize.Invariant.view {threads : SpscThreads Value} (invariant : ring.Invariant threads)
    (resting : threads.consumer = .idle) :
    ring.View threads.shared (threads.pushed ++ threads.producer.constructed)
      threads.pushed.length threads.popped.length where
  head := invariant.head
  tail := invariant.tail
  ordered := Nat.le_of_add_right_le invariant.ordered
  within := by rw [List.length_append]; exact Nat.le_add_right _ _
  bounded := by
    obtain ⟨old, oldLe, -, room⟩ := invariant.prodTail
    have constructedLe : threads.producer.constructed.length ≤
        threads.producer.promised.length := by
      cases threads.producer <;> simp [Producer.constructed, Producer.promised]
    rw [List.length_append]
    omega
  slots := by
    have slots := invariant.slots
    rw [SpscThreads.inFlight, resting] at slots
    exact slots

theorem RingSize.Invariant.admissibleTail {threads : SpscThreads Value}
    (invariant : ring.Invariant threads) (resting : threads.consumer = .idle) :
    ring.AdmissibleTail threads.shared threads.shared.prodTail := by
  obtain ⟨old, oldLe, cached, room⟩ := invariant.prodTail
  rw [cached]
  exact .of_log (invariant.view resting) oldLe (by omega)

theorem RingSize.Invariant.admissibleHead {threads : SpscThreads Value}
    (invariant : ring.Invariant threads) (resting : threads.consumer = .idle) :
    threads.shared.AdmissibleHead threads.shared.consHead := by
  obtain ⟨old, oldLe, cached, claimed⟩ := invariant.consHead
  have view := invariant.view resting
  refine ⟨old - threads.popped.length, ?_, ?_⟩
  · rw [view.used_eq]
    omega
  · rw [cached, view.tail, ofNat_add_ofNat, Nat.add_sub_cancel' (by omega)]

/-! ### What the pushes do -/

/-- The construction loop finds its slots empty while there is room. -/
theorem RingSize.constructEach_eq {buff : ℕ → Option Value} (values : List Value)
    (shown : Circular.Shows ring.size.toNat buff log popped) (after : popped ≤ log.length)
    (room : log.length + values.length ≤ popped + ring.size.toNat) :
    ring.constructEach buff (UInt64.ofNat log.length) values =
      some (ring.constructAt buff (UInt64.ofNat log.length) values) := by
  induction values generalizing buff log with
  | nil => rfl
  | cons value rest inductionHypothesis =>
    rw [List.length_cons] at room
    have free := shown.free after (by omega)
    have written := shown.write value after (by omega)
    have length : (log ++ [value]).length = log.length + 1 := List.length_append
    have next := inductionHypothesis written (by omega) (by omega)
    rw [length, ← ofNat_add_ofNat] at next
    rw [RingSize.constructEach, RingSize.constructAt, ring.slot_ofNat,
      Circular.construct_of_none value free, Option.bind_eq_bind, Option.bind_some]
    exact next

/-- What a push of `values` leaves: they are in the slots behind the old head, the head is past
them, and the consumer's side is as it was. -/
structure RingSize.Pushed (ring : RingSize) (shared next : SpscRing Value) (log : List Value)
    (popped : ℕ) (values : List Value) : Prop where
  view : ring.View next (log ++ values) (log ++ values).length popped
  cached : ring.AdmissibleTail next next.prodTail
  buff : next.buff = ring.constructAt shared.buff (UInt64.ofNat log.length) values
  consHead : next.consHead = shared.consHead

/-- Whatever tail is cached, the view is the same. -/
theorem RingSize.View.setProdTail (view : ring.View shared log published popped)
    (stale : UInt64) : ring.View { shared with prodTail := stale } log published popped :=
  ⟨view.head, view.tail, view.ordered, view.within, view.bounded, view.slots⟩

theorem RingSize.View.admissible_self (view : ring.View shared log published popped) :
    ring.AdmissibleTail shared shared.atomicTail :=
  ⟨0, (UInt64.sub_zero _).symm, view.used_le⟩

/-- A push that accepts nothing. -/
theorem RingSize.View.pushed_nil (view : ring.View shared log log.length popped) {stale : UInt64}
    (cached : ring.AdmissibleTail shared stale) :
    ring.Pushed shared { shared with prodTail := stale } log popped [] where
  view := by
    rw [List.append_nil]
    exact view.setProdTail stale
  cached := cached
  buff := rfl
  consHead := rfl

/-- With room behind the cached tail the objects are constructed and published. -/
theorem RingSize.View.pushAt (view : ring.View shared log log.length popped) (values : List Value)
    {back : ℕ} (cached : shared.prodTail = shared.atomicTail - UInt64.ofNat back)
    (room : shared.used + back + values.length ≤ ring.size.toNat) :
    ∃ next, ring.pushAt shared shared.atomicHead values = some next ∧
      ring.Pushed shared next log popped values := by
  have used := view.used_eq
  have ordered := view.ordered
  have fits : log.length + values.length ≤ popped + ring.size.toNat := by omega
  have constructs := ring.constructEach_eq values view.slots ordered fits
  have length : (log ++ values).length = log.length + values.length := List.length_append
  rw [RingSize.pushAt, view.head, constructs]
  refine ⟨_, rfl, ?_⟩
  have after : ring.View { shared with
      buff := ring.constructAt shared.buff (UInt64.ofNat log.length) values
      atomicHead := UInt64.ofNat log.length + UInt64.ofNat values.length }
      (log ++ values) (log ++ values).length popped := {
    head := by rw [length, ← ofNat_add_ofNat]
    tail := view.tail
    ordered := by omega
    within := le_rfl
    bounded := by omega
    slots := ring.constructAt_shows values view.slots ordered fits }
  exact {
    view := after
    cached := ⟨back, cached, by rw [after.used_eq]; omega⟩
    buff := rfl
    consHead := rfl }

theorem RingSize.Pushed.of_setProdTail {stale : UInt64} {values : List Value}
    (pushed : ring.Pushed { shared with prodTail := stale } next log popped values) :
    ring.Pushed shared next log popped values :=
  ⟨pushed.view, pushed.cached, pushed.buff, pushed.consHead⟩

/-- The head is the size ahead of a tail exactly when there is no room behind it. -/
theorem RingSize.AdmissibleTail.sub_eq_size_iff {stale : UInt64} {back : ℕ}
    (cached : stale = shared.atomicTail - UInt64.ofNat back)
    (room : shared.used + back ≤ ring.size.toNat) :
    shared.atomicHead - stale = ring.size ↔ shared.used + back = ring.size.toNat := by
  rw [← UInt64.toNat_inj, AdmissibleTail.toNat_sub cached room]

/-- `try_push` of one value accepts it exactly when the ring is not full, whatever tail is
cached. -/
theorem RingSize.View.tryPush (view : ring.View shared log log.length popped)
    (cached : ring.AdmissibleTail shared shared.prodTail) (value : Value) :
    ∃ next, ring.tryPush shared value = some (next, decide (shared.used < ring.size.toNat)) ∧
      ring.Pushed shared next log popped
        (if shared.used < ring.size.toNat then [value] else []) := by
  obtain ⟨back, stale, room⟩ := cached
  unfold RingSize.tryPush
  by_cases none : shared.used + back = ring.size.toNat
  · rw [if_pos ((AdmissibleTail.sub_eq_size_iff stale room).mpr none)]
    have true_tail := AdmissibleTail.sub_eq_size_iff (UInt64.sub_zero _).symm view.used_le
    by_cases full : shared.used = ring.size.toNat
    · rw [if_pos (true_tail.mpr full), if_neg (by omega), decide_eq_false (by omega)]
      exact ⟨_, rfl, view.pushed_nil view.admissible_self⟩
    · have more : shared.used < ring.size.toNat := Nat.lt_of_le_of_ne view.used_le full
      obtain ⟨next, pushes, pushed⟩ := (view.setProdTail shared.atomicTail).pushAt [value]
        (UInt64.sub_zero _).symm more
      rw [if_neg (full ∘ true_tail.mp), pushes, if_pos more, decide_eq_true more]
      exact ⟨next, rfl, pushed.of_setProdTail⟩
  · have more : shared.used + back < ring.size.toNat := Nat.lt_of_le_of_ne room none
    obtain ⟨next, pushes, pushed⟩ := view.pushAt [value] stale more
    rw [if_neg (none ∘ (AdmissibleTail.sub_eq_size_iff stale room).mp), pushes,
      if_pos (by omega), decide_eq_true (by omega)]
    exact ⟨next, rfl, pushed⟩

/-- The room computed from a cached tail. -/
theorem RingSize.AdmissibleTail.cntAvail {stale : UInt64} {back : ℕ}
    (cached : stale = shared.atomicTail - UInt64.ofNat back)
    (room : shared.used + back ≤ ring.size.toNat) :
    (ring.cntAvail shared.atomicHead stale).toNat = ring.size.toNat - (shared.used + back) := by
  have measured := AdmissibleTail.toNat_sub cached room
  rw [RingSize.cntAvail, UInt64.toNat_sub_of_le _ _ (UInt64.le_iff_toNat_le.mpr (by omega)),
    measured]

/-- The batched `try_push` accepts as many values as there is room for, whatever tail is
cached. -/
theorem RingSize.View.tryPushBatch (view : ring.View shared log log.length popped)
    (cached : ring.AdmissibleTail shared shared.prodTail) {values : List Value}
    (fits : values.length < 2 ^ 64) :
    ∃ next, ring.tryPushBatch shared values =
        some (next, min values.length (ring.size.toNat - shared.used)) ∧
      ring.Pushed shared next log popped
        (values.take (min values.length (ring.size.toNat - shared.used))) := by
  obtain ⟨back, stale, room⟩ := cached
  have avail := AdmissibleTail.cntAvail stale room
  have length : (UInt64.ofNat values.length).toNat = values.length := by
    rw [UInt64.toNat_ofNat', Nat.mod_eq_of_lt fits]
  unfold RingSize.tryPushBatch
  by_cases short : ring.cntAvail shared.atomicHead shared.prodTail < UInt64.ofNat values.length
  · have room' := AdmissibleTail.cntAvail (UInt64.sub_zero _).symm view.used_le
    rw [if_pos short]
    rw [Nat.add_zero] at room'
    by_cases full : ring.cntAvail shared.atomicHead shared.atomicTail = 0
    · rw [full, UInt64.toNat_zero] at room'
      rw [if_pos full, ← room', Nat.min_zero, List.take_zero]
      exact ⟨_, rfl, view.pushed_nil view.admissible_self⟩
    · obtain ⟨next, pushes, pushed⟩ := (view.setProdTail shared.atomicTail).pushAt
        (values.take (min values.length (ring.size.toNat - shared.used)))
        (UInt64.sub_zero _).symm (by
          have used := view.used_le
          rw [List.length_take]
          show shared.used + 0 + _ ≤ _
          omega)
      rw [if_neg full, UInt64.toNat_min, length, room']
      dsimp only at pushes ⊢
      rw [pushes]
      exact ⟨next, rfl, pushed.of_setProdTail⟩
  · have enough : values.length ≤ ring.size.toNat - (shared.used + back) := by
      rw [UInt64.lt_iff_toNat_lt, avail, length] at short
      exact Nat.le_of_not_lt short
    obtain ⟨next, pushes, pushed⟩ := view.pushAt values stale (by omega)
    rw [if_neg short, UInt64.toNat_min, length, avail, Nat.min_eq_left enough,
      Nat.min_eq_left (show values.length ≤ ring.size.toNat - shared.used by omega)]
    dsimp only
    rw [List.take_length, pushes]
    exact ⟨next, rfl, pushed⟩

theorem RingSize.constructAt_append (ring : RingSize) (buff : ℕ → Option Value)
    (prodHead : UInt64) (first second : List Value) :
    ring.constructAt buff prodHead (first ++ second) =
      ring.constructAt (ring.constructAt buff prodHead first)
        (prodHead + UInt64.ofNat first.length) second := by
  induction first generalizing buff prodHead with
  | nil => exact congrArg (ring.constructAt buff · second) (UInt64.add_zero prodHead).symm
  | cons value rest inductionHypothesis =>
    rw [List.cons_append, RingSize.constructAt, RingSize.constructAt, inductionHypothesis,
      List.length_cons, Nat.add_comm, ← ofNat_add_ofNat, UInt64.add_assoc]
    rfl

/-- Two pushes, one after the other. -/
theorem RingSize.Pushed.trans {middle : SpscRing Value} {first second : List Value}
    (pushed : ring.Pushed shared middle log popped first)
    (then_ : ring.Pushed middle next (log ++ first) popped second) :
    ring.Pushed shared next log popped (first ++ second) where
  view := by
    rw [← List.append_assoc]
    exact then_.view
  cached := then_.cached
  buff := by
    rw [then_.buff, pushed.buff, RingSize.constructAt_append, List.length_append,
      ofNat_add_ofNat]
  consHead := then_.consHead.trans pushed.consHead

/-- Pushing one value after the other accepts as many as there is room for. -/
theorem RingSize.View.pushEach (view : ring.View shared log log.length popped)
    (cached : ring.AdmissibleTail shared shared.prodTail) (values : List Value) :
    ∃ next, ring.pushEach shared values =
        some (next, min values.length (ring.size.toNat - shared.used)) ∧
      ring.Pushed shared next log popped
        (values.take (min values.length (ring.size.toNat - shared.used))) := by
  induction values generalizing shared log with
  | nil =>
    rw [List.length_nil, Nat.zero_min, List.take_nil]
    exact ⟨shared, rfl, view.pushed_nil cached⟩
  | cons value rest inductionHypothesis =>
    obtain ⟨middle, pushes, pushed⟩ := view.tryPush cached value
    rw [RingSize.pushEach, pushes, Option.bind_eq_bind, Option.bind_some]
    by_cases more : shared.used < ring.size.toNat
    · rw [if_pos more] at pushed
      obtain ⟨next, others, pushed'⟩ := inductionHypothesis pushed.view pushed.cached
      have used : middle.used = shared.used + 1 := by
        rw [pushed.view.used_eq, view.used_eq, List.length_append, List.length_singleton]
        have ordered := view.ordered
        omega
      rw [used] at others pushed'
      have count : min (value :: rest).length (ring.size.toNat - shared.used) =
          min rest.length (ring.size.toNat - (shared.used + 1)) + 1 := by
        rw [List.length_cons]
        omega
      rw [decide_eq_true more, count, List.take_succ_cons]
      dsimp only
      rw [if_pos rfl, others]
      exact ⟨next, rfl, pushed.trans pushed'⟩
    · rw [if_neg more] at pushed
      rw [decide_eq_false more, Nat.sub_eq_zero_of_le (Nat.le_of_not_lt more), Nat.min_zero,
        List.take_zero]
      exact ⟨middle, rfl, pushed⟩

/-! ### The calls as runs of the producer's steps -/

variable {threads : SpscThreads Value} {values : List Value} {prodHead : UInt64}

theorem RingSize.constructEach_eq_some {buff buff' : ℕ → Option Value}
    (result : ring.constructEach buff prodHead values = some buff') :
    buff' = ring.constructAt buff prodHead values := by
  induction values generalizing buff prodHead with
  | nil => exact (Option.some.inj result).symm
  | cons value rest inductionHypothesis =>
    rw [RingSize.constructEach, Option.bind_eq_bind, Option.bind_eq_some_iff] at result
    obtain ⟨written, constructs, others⟩ := result
    rw [inductionHypothesis others, Circular.construct_eq_some constructs, RingSize.constructAt]

/-- The last two steps of a push. -/
theorem RingSize.pushAt_run (threads : SpscThreads Value) (idle : threads.producer = .idle)
    (result : ring.pushAt threads.shared prodHead values = some shared) :
    (ring.machine Value).run { threads with producer := .construct values prodHead }
        [.producer, .producer] =
      some { threads with shared, pushed := threads.pushed ++ values } := by
  rw [RingSize.pushAt, Option.bind_eq_bind, Option.bind_eq_some_iff] at result
  obtain ⟨buff, constructs, stored⟩ := result
  rw [constructEach_eq_some constructs] at stored
  rw [← Option.some.inj stored]
  simp only [Machine.run_cons, Machine.run_nil, RingSize.machine, RingSize.threadsStep,
    RingSize.producerStep, Option.bind_some, ← idle]

/-- The result a push returns with the ring it leaves. -/
theorem RingSize.pushAt_bind_eq_some {Result : Type} {returned result : Result}
    (pushes : (ring.pushAt shared prodHead values).bind (fun left => some (left, returned)) =
      some (next, result)) :
    ring.pushAt shared prodHead values = some next ∧ returned = result := by
  obtain ⟨left, stored, both⟩ := Option.bind_eq_some_iff.mp pushes
  obtain ⟨rfl, same⟩ := Prod.mk.inj (Option.some.inj both)
  exact ⟨stored, same⟩

/-- The load of the tail that some pushes begin with. -/
theorem RingSize.loadTail_run (threads : SpscThreads Value) (call : PushCall Value)
    (rest : List (SpscLabel Value)) :
    (ring.machine Value).run { threads with producer := .loadTail call prodHead }
        (.producer :: rest) = (ring.machine Value).run { threads with
      shared := { threads.shared with prodTail := threads.shared.atomicTail }
      producer := ring.afterTail threads.shared.atomicTail prodHead call } rest := by
  rw [Machine.run_cons, RingSize.machine]
  simp only [RingSize.threadsStep, RingSize.producerStep, Option.bind_some]

theorem RingSize.push_run {call : PushCall Value} (idle : threads.producer = .idle)
    (rest : List (SpscLabel Value)) :
    (ring.machine Value).run threads (.push call :: rest) = (ring.machine Value).run
      { threads with producer := ring.beginPush threads.shared call } rest := by
  rw [Machine.run_cons, RingSize.machine]
  simp only [RingSize.threadsStep, idle, Option.bind_some]

/-- A whole `try_push` of one value is a run of the producer alone. -/
theorem RingSize.tryPush_run (idle : threads.producer = .idle) {value : Value} {accepted : Bool}
    (result : ring.tryPush threads.shared value = some (shared, accepted)) :
    ∃ steps, (ring.machine Value).run threads (.push (.single value) ::
        List.replicate steps .producer) = some { threads with
      shared, pushed := threads.pushed ++ if accepted then [value] else [] } := by
  unfold RingSize.tryPush at result
  dsimp only at result
  split at result
  · next cachedFull =>
    split at result
    · next full =>
      obtain ⟨rfl, rfl⟩ := Prod.mk.inj (Option.some.inj result)
      refine ⟨1, ?_⟩
      rw [push_run idle, RingSize.beginPush, if_pos cachedFull]
      rw [List.replicate_one, loadTail_run, RingSize.afterTail, if_pos full]
      simp only [Machine.run_nil, Bool.false_eq_true, if_false, List.append_nil, ← idle]
    · next more =>
      obtain ⟨pushes, rfl⟩ := pushAt_bind_eq_some result
      refine ⟨3, ?_⟩
      rw [push_run idle, RingSize.beginPush, if_pos cachedFull]
      rw [List.replicate_succ, loadTail_run, RingSize.afterTail, if_neg more]
      exact pushAt_run { threads with shared.prodTail := threads.shared.atomicTail } idle pushes
  · next more =>
    obtain ⟨pushes, rfl⟩ := pushAt_bind_eq_some result
    refine ⟨2, ?_⟩
    rw [push_run idle, RingSize.beginPush, if_neg more]
    exact pushAt_run threads idle pushes

/-- So is a whole batched `try_push`. -/
theorem RingSize.tryPushBatch_run (idle : threads.producer = .idle) {cnt : ℕ}
    (fits : values.length < 2 ^ 64)
    (result : ring.tryPushBatch threads.shared values = some (shared, cnt)) :
    ∃ steps, (ring.machine Value).run threads (.push (.batch values fits) ::
        List.replicate steps .producer) = some { threads with
      shared, pushed := threads.pushed ++ values.take cnt } := by
  have length : (UInt64.ofNat values.length).toNat = values.length := by
    rw [UInt64.toNat_ofNat', Nat.mod_eq_of_lt fits]
  unfold RingSize.tryPushBatch at result
  dsimp only at result
  split at result
  · next short =>
    split at result
    · next full =>
      obtain ⟨rfl, rfl⟩ := Prod.mk.inj (Option.some.inj result)
      refine ⟨1, ?_⟩
      rw [push_run idle, RingSize.beginPush, if_pos short]
      rw [List.replicate_one, loadTail_run, RingSize.afterTail, if_pos full]
      simp only [Machine.run_nil, List.take_zero, List.append_nil, ← idle]
    · next more =>
      obtain ⟨pushes, rfl⟩ := pushAt_bind_eq_some result
      rw [UInt64.toNat_min, length] at pushes ⊢
      refine ⟨3, ?_⟩
      rw [push_run idle, RingSize.beginPush, if_pos short]
      rw [List.replicate_succ, loadTail_run, RingSize.afterTail, if_neg more]
      exact pushAt_run { threads with shared.prodTail := threads.shared.atomicTail } idle pushes
  · next enough =>
    obtain ⟨pushes, rfl⟩ := pushAt_bind_eq_some result
    refine ⟨2, ?_⟩
    have all : values.take (min (UInt64.ofNat values.length)
        (ring.cntAvail threads.shared.atomicHead threads.shared.prodTail)).toNat = values := by
      rw [UInt64.lt_iff_toNat_lt] at enough
      rw [UInt64.toNat_min, Nat.min_eq_left (Nat.le_of_not_lt enough), length, List.take_length]
    rw [all] at pushes ⊢
    rw [push_run idle, RingSize.beginPush, if_neg enough]
    exact pushAt_run threads idle pushes

/-! ### The two ways to push an array -/

/-- The batched push of `values` and the pushes of one after the other end with the same number
of values accepted, as many as the ring has room for, the same head and tail, and the same
values stored behind those that were there. -/
def RingSize.PushesAlike (ring : RingSize) (shared : SpscRing Value) (values : List Value) :
    Prop :=
  ∃ batch each cnt, ring.tryPushBatch shared values = some (batch, cnt) ∧
    ring.pushEach shared values = some (each, cnt) ∧
    cnt = min values.length (ring.size.toNat - shared.used) ∧
    batch.atomicHead = each.atomicHead ∧ batch.atomicTail = each.atomicTail ∧
    ring.stored batch = ring.stored each ∧
    ring.stored batch = ring.stored shared ++ (values.take cnt).map some

theorem RingSize.Pushed.stored_eq (view : ring.View shared log log.length popped)
    (pushed : ring.Pushed shared next log popped values) :
    ring.stored next = ring.stored shared ++ values.map some := by
  rw [pushed.view.stored_eq, view.stored_eq, List.take_length, List.take_length,
    List.drop_append_of_le_length view.ordered, List.map_append]

theorem RingSize.View.pushesAlike (view : ring.View shared log log.length popped)
    (cached : ring.AdmissibleTail shared shared.prodTail) (fits : values.length < 2 ^ 64) :
    ring.PushesAlike shared values := by
  obtain ⟨batch, pushes, pushed⟩ := view.tryPushBatch cached fits
  obtain ⟨each, pushes', pushed'⟩ := view.pushEach cached values
  refine ⟨batch, each, _, pushes, pushes', rfl, ?_, ?_, ?_, pushed.stored_eq view⟩
  · rw [pushed.view.head, pushed'.view.head]
  · rw [pushed.view.tail, pushed'.view.tail]
  · rw [pushed.stored_eq view, pushed'.stored_eq view]

/-- In every reachable state in which neither thread is inside a call, whatever admissible tail
the producer has cached, its own one included, a batched push agrees with pushing the values
one after the other. -/
theorem tryPushBatch_eq_pushEach (ring : RingSize) {labels : List (SpscLabel Value)}
    {threads : SpscThreads Value} (run : (ring.machine Value).run {} labels = some threads)
    (idle : threads.producer = .idle) (resting : threads.consumer = .idle) {values : List Value}
    (fits : values.length < 2 ^ 64) :
    ring.PushesAlike threads.shared values ∧ ∀ stale, ring.AdmissibleTail threads.shared stale →
      ring.PushesAlike { threads.shared with prodTail := stale } values := by
  have invariant := ring.invariant_of_run run
  have view := invariant.view resting
  rw [idle, Producer.constructed, List.append_nil] at view
  exact ⟨view.pushesAlike (invariant.admissibleTail resting) fits,
    fun stale cached => (view.setProdTail stale).pushesAlike cached fits⟩

/-- Two slots, one of them taken: of three values one is accepted. -/
theorem tryPushBatch_eq_pushEach_twoSlots : ∃ threads,
    (twoSlots.machine ℕ).run {} [.push (.single 7), .producer, .producer] = some threads ∧
    twoSlots.PushesAlike threads.shared [8, 9, 10] ∧
      ∀ stale, twoSlots.AdmissibleTail threads.shared stale →
        twoSlots.PushesAlike { threads.shared with prodTail := stale } [8, 9, 10] :=
  ⟨_, rfl, tryPushBatch_eq_pushEach twoSlots
    (show (twoSlots.machine ℕ).run {} [.push (.single 7), .producer, .producer] = some _ from rfl)
    rfl rfl (by decide)⟩

end TrafficGenerator
