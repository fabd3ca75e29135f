/-
This file proves that the system over rings refines the system over queues. A
call of `try_push` or `try_pop` takes effect at one of its steps, the store of
the head or of the tail or the load that finds no room; every other step of the
call changes nothing of the queue the ring stands for. The handler around the
call is taken to happen at that step as well.
-/

import TrafficGenerator.RingSystem
import TrafficGenerator.SpscFifo
import TrafficGenerator.Matching

namespace TrafficGenerator

/-! ### One call of `try_push` -/

section Calls

variable {Value : Type} {ring : RingSize} {threads next : SpscThreads Value}

/-- The producer is in a `try_push` of one value. -/
def Producer.Pushing (value : Value) : Producer Value → Prop
  | .idle => False
  | .loadTail call _ => call = .single value
  | .construct values _ | .storeHead values _ => values = [value]

/-- What a step of a `try_push` does, by what it returns. -/
inductive PushStep (ring : RingSize) (value : Value) (threads next : SpscThreads Value) :
    Option Bool → Prop
  | inside (place : next.producer.Pushing value) (queue : next.queue = threads.queue) :
      PushStep ring value threads next none
  | accepted (idle : next.producer = .idle) (room : threads.queue.length < ring.size.toNat)
      (queue : next.queue = threads.queue ++ [value]) :
      PushStep ring value threads next (some true)
  | refused (idle : next.producer = .idle) (full : threads.queue.length = ring.size.toNat)
      (queue : next.queue = threads.queue) :
      PushStep ring value threads next (some false)

/-- A call that has returned has left the ring. -/
theorem PushStep.producer_idle {ring : RingSize} {value : Value} {threads next : SpscThreads Value}
    {accepted : Bool} (pushed : PushStep ring value threads next (some accepted)) :
    next.producer = .idle := by
  cases pushed with
  | accepted idle | refused idle => exact idle

theorem RingSize.beginPush_pushing (ring : RingSize) (shared : SpscRing Value) (value : Value) :
    (ring.beginPush shared (.single value)).Pushing value := by
  unfold RingSize.beginPush
  split
  · next call same =>
    obtain rfl := PushCall.single.inj same
    split <;> rfl
  · next same => exact absurd same (by simp)

theorem RingSize.afterTail_pushing (ring : RingSize) (prodTail prodHead : UInt64)
    (value : Value) :
    ring.afterTail prodTail prodHead (.single value) = .idle ∨
      (ring.afterTail prodTail prodHead (.single value)).Pushing value := by
  unfold RingSize.afterTail
  split
  · next call same =>
    obtain rfl := PushCall.single.inj same
    split
    · exact .inl rfl
    · exact .inr rfl
  · next same => exact absurd same (by simp)

/-- A call in which the store of the head is next has room for its value. -/
theorem RingSize.Invariant.room (invariant : ring.Invariant threads) {value : Value}
    {prodHead : UInt64} (place : threads.producer = .storeHead [value] prodHead) :
    threads.queue.length < ring.size.toNat := by
  obtain ⟨old, oldLe, -, room⟩ := invariant.prodTail
  rw [place] at room
  simp only [Producer.promised, List.length_singleton] at room
  have length := invariant.queue_length
  have ordered := invariant.ordered
  omega

/-- A step of a `try_push` of one value. -/
theorem RingSize.pushStep_spec {value : Value} {returned : Option Bool}
    (invariant : ring.Invariant threads) (pushing : threads.producer.Pushing value)
    (run : ring.pushStep threads = some (next, returned)) :
    ring.Invariant next ∧ next.consumer = threads.consumer ∧
      PushStep ring value threads next returned := by
  obtain ⟨moved, step, same⟩ := Option.map_eq_some_iff.mp run
  obtain ⟨rfl, rfl⟩ := Prod.mk.inj same
  refine ⟨invariant.step .producer step, ?_⟩
  cases RingSize.threadsStep_spec step with
  | loadTail call prodHead place =>
    rw [place] at pushing
    obtain rfl : call = .single value := pushing
    refine ⟨rfl, ?_⟩
    simp only [place, Producer.accepts]
    split
    · next idle =>
      exact .refused idle (invariant.full_of_refused place step idle) rfl
    · next busy =>
      refine .inside ?_ rfl
      exact (ring.afterTail_pushing _ _ value).resolve_left busy
  | construct values prodHead place =>
    rw [place] at pushing
    exact ⟨rfl, .inside pushing rfl⟩
  | storeHead values prodHead place =>
    rw [place] at pushing
    obtain rfl : values = [value] := pushing
    have ordered := invariant.ordered
    refine ⟨rfl, ?_⟩
    simp only [place, Producer.accepts]
    refine .accepted rfl (invariant.room place) ?_
    exact List.drop_append_of_le_length (Nat.le_of_add_right_le ordered)

/-! ### One call of `try_pop` -/

/-- The consumer is in a batched `try_pop` of at most `most` values. -/
def Consumer.Popping (most : ℕ) : Consumer Value → Prop
  | .idle => False
  | .loadHead call _ | .consume call _ => ∃ sz : UInt64, call = .batch sz ∧ sz.toNat ≤ most
  | .storeTail values _ => values.length ≤ most

/-- What a step of a `try_pop` does, by what it returns. -/
inductive PopStep (most : ℕ) (threads next : SpscThreads Value) : Option (List Value) → Prop
  | inside (place : next.consumer.Popping most) (queue : next.queue = threads.queue) :
      PopStep most threads next none
  | returned (idle : next.consumer = .idle) (values : List Value) (few : values.length ≤ most)
      (queue : threads.queue = values ++ next.queue) :
      PopStep most threads next (some values)

theorem beginPop_popping (shared : SpscRing Value) (sz : UInt64) :
    (beginPop shared (.batch sz) : Consumer Value).Popping sz.toNat := by
  unfold beginPop
  split <;> exact ⟨sz, rfl, Nat.le_refl _⟩

/-- The callable of `try_pop` writes no more than it still wants. -/
theorem popInto_few (state : ℕ × List Value) {most : ℕ} (offered : List Value)
    (few : state.2.length + state.1 ≤ most) :
    (popInto.call state offered).1.2.length + (popInto.call state offered).1.1 ≤ most := by
  simp only [popInto, List.length_append, List.length_take]
  omega

theorem RingSize.consumeCall_few {shared : SpscRing Value} {consTail sz : UInt64}
    {buff : ℕ → Option Value} {values : List Value}
    (result : ring.consumeCall shared consTail (.batch sz) = some (buff, values)) :
    values.length ≤ sz.toNat := by
  have first (offered : List Value) := popInto_few (sz.toNat, []) offered
    (Nat.le_of_eq (Nat.zero_add sz.toNat))
  simp only [RingSize.consumeCall, Option.bind_eq_bind, Option.bind_eq_some_iff] at result
  obtain ⟨⟨buff', state, cnt⟩, consumed, same⟩ := result
  obtain ⟨rfl, rfl⟩ := Prod.mk.inj (Option.some.inj same)
  simp only [RingSize.consumeRanges, Option.bind_eq_bind] at consumed
  split at consumed
  · obtain ⟨offered, -, same⟩ := Option.bind_eq_some_iff.mp consumed
    obtain ⟨-, rfl, -⟩ := Option.some.inj same
    exact Nat.le_of_add_right_le (first offered)
  · obtain ⟨offered, -, rest⟩ := Option.bind_eq_some_iff.mp consumed
    split at rest
    · obtain ⟨more, -, same⟩ := Option.bind_eq_some_iff.mp rest
      obtain ⟨-, rfl, -⟩ := Option.some.inj same
      exact Nat.le_of_add_right_le (popInto_few _ more (first offered))
    · obtain ⟨-, rfl, -⟩ := Option.some.inj rest
      exact Nat.le_of_add_right_le (first offered)

/-- A step of a batched `try_pop`. -/
theorem RingSize.popStep_spec {most : ℕ} {returned : Option (List Value)}
    (invariant : ring.Invariant threads) (popping : threads.consumer.Popping most)
    (run : ring.popStep threads = some (next, returned)) :
    ring.Invariant next ∧ next.producer = threads.producer ∧
      PopStep most threads next returned := by
  obtain ⟨moved, step, same⟩ := Option.map_eq_some_iff.mp run
  obtain ⟨rfl, rfl⟩ := Prod.mk.inj same
  refine ⟨invariant.step .consumer step, ?_⟩
  cases RingSize.threadsStep_spec step with
  | loadHead call consTail place =>
    rw [place] at popping
    refine ⟨rfl, ?_⟩
    split
    · next idle =>
      have nothing : threads.inFlight = [] := by rw [SpscThreads.inFlight, place]
      rw [nothing]
      exact .returned idle [] (Nat.zero_le _) rfl
    · next busy =>
      refine .inside ?_ rfl
      unfold afterHead
      unfold afterHead at busy
      split
      · next empty => exact absurd (if_pos empty) busy
      · exact popping
  | consume call consTail buff values place result =>
    rw [place] at popping
    obtain ⟨sz, rfl, few⟩ := popping
    exact ⟨rfl, .inside (Nat.le_trans (RingSize.consumeCall_few result) few) rfl⟩
  | fault call consTail place nothing =>
    rw [place] at popping
    refine ⟨rfl, ?_⟩
    simp only [place]
    exact .inside popping rfl
  | storeTail values consTail place =>
    have flight : threads.inFlight = values := by rw [SpscThreads.inFlight, place]
    obtain ⟨rest, pushed⟩ := invariant.fifo
    rw [place] at popping
    rw [flight] at pushed
    refine ⟨rfl, ?_⟩
    rw [flight]
    refine .returned rfl values popping ?_
    simp only [SpscThreads.queue, ← pushed, List.append_assoc, List.drop_left]
    rw [List.length_append, ← List.drop_drop, List.drop_left, List.drop_left]

/-- The start of a `try_push` of one value. -/
theorem RingSize.push_starts {value : Value} (invariant : ring.Invariant threads)
    (step : ring.threadsStep threads (.push (.single value)) = some next) :
    ring.Invariant next ∧ next.consumer = threads.consumer ∧ next.producer.Pushing value ∧
      next.queue = threads.queue := by
  refine ⟨invariant.step _ step, ?_⟩
  cases RingSize.threadsStep_spec step with
  | push call idle => exact ⟨rfl, ring.beginPush_pushing _ value, rfl⟩

/-- The start of a batched `try_pop`. -/
theorem RingSize.pop_starts {sz : UInt64} (invariant : ring.Invariant threads)
    (step : ring.threadsStep threads (.pop (.batch sz)) = some next) :
    ring.Invariant next ∧ next.producer = threads.producer ∧ next.consumer.Popping sz.toNat ∧
      next.queue = threads.queue := by
  refine ⟨invariant.step _ step, ?_⟩
  cases RingSize.threadsStep_spec step with
  | pop call idle => exact ⟨rfl, beginPop_popping _ sz, rfl⟩

end Calls

variable {env : Env} {mgmtEnv : MgmtEnv}

/-! ### The handlers of the management -/

/-- The rest of a handler when the queue is a list. -/
def HttpPlan.finish (cb : ℕ) (manager : MgmtManager) (queue : ReqQueue) :
    HttpPlan → MgmtManager × ReqQueue
  | .answer status body => (manager.answer (some cb) status body, queue)
  | .enqueue msg => enqueueReq msg.kind cb msg manager queue

/-- Cutting the handlers at their call of `enqueue` changes nothing. -/
theorem onHttpRequest_eq (mgmtEnv : MgmtEnv) (cb : ℕ) (target req : String)
    (manager : MgmtManager) (queue : ReqQueue) :
    onHttpRequest mgmtEnv cb target req manager queue =
      (httpPlan mgmtEnv target req manager).finish cb manager queue := by
  unfold onHttpRequest httpPlan
  split
  · unfold onReqStartGen
    split
    · rfl
    · cases mgmtEnv.parseCfg req <;> rfl
  · split
    · unfold onReqStopGen
      split <;> rfl
    · split
      · unfold onReqGetStats
        split <;> rfl
      · rfl

theorem enqueueReq_of_room {cb : ℕ} {msg : ReqMsg} {manager : MgmtManager} {queue : ReqQueue}
    (room : queue.length < reqCapacity) :
    enqueueReq msg.kind cb msg manager queue =
      (afterEnqueue cb msg true manager, queue ++ [⟨some cb, msg⟩]) := by
  unfold enqueueReq
  rw [BoundedFifo.push_of_le (by rw [List.length_singleton]; exact room)]
  rfl

theorem enqueueReq_of_full {cb : ℕ} {msg : ReqMsg} {manager : MgmtManager} {queue : ReqQueue}
    (full : queue.length = reqCapacity) :
    enqueueReq msg.kind cb msg manager queue = (afterEnqueue cb msg false manager, queue) := by
  unfold enqueueReq
  rw [BoundedFifo.push, if_neg (by rw [full, List.length_singleton]; exact Nat.lt_irrefl _)]
  rfl

/-! ### What holds between two steps -/

/-- Where the management thread is in the rings, for each place of its own. -/
inductive MgmtPlaced (mgmtEnv : MgmtEnv) (mgmt : MgmtManager) (batch : List (Tagged ResMsg))
    (requests : ℕ) : MgmtPlace → Producer (Tagged ReqMsg) → Consumer (Tagged ResMsg) → Prop
  | idle : MgmtPlaced mgmtEnv mgmt batch requests .idle .idle .idle
  | enqueueing {producer : Producer (Tagged ReqMsg)} (target req : String) (msg : ReqMsg)
      (plan : httpPlan mgmtEnv target req mgmt = .enqueue msg) (nothing : batch = [])
      (pushing : producer.Pushing ⟨some requests, msg⟩) :
      MgmtPlaced mgmtEnv mgmt batch requests (.enqueueing target req msg) producer .idle
  | dequeueing {consumer : Consumer (Tagged ResMsg)} (nothing : batch = [])
      (popping : consumer.Popping (dequeueBatch resCapacity)) :
      MgmtPlaced mgmtEnv mgmt batch requests .dequeueing .idle consumer

theorem MgmtPlaced.of_idle {mgmt : MgmtManager} {batch : List (Tagged ResMsg)} {requests : ℕ}
    {producer : Producer (Tagged ReqMsg)} {consumer : Consumer (Tagged ResMsg)}
    (placed : MgmtPlaced mgmtEnv mgmt batch requests .idle producer consumer) :
    producer = .idle ∧ consumer = .idle := by
  cases placed
  exact ⟨rfl, rfl⟩

theorem MgmtPlaced.of_enqueueing {mgmt : MgmtManager} {batch : List (Tagged ResMsg)}
    {requests : ℕ} {producer : Producer (Tagged ReqMsg)} {consumer : Consumer (Tagged ResMsg)}
    {target req : String} {msg : ReqMsg}
    (placed : MgmtPlaced mgmtEnv mgmt batch requests (.enqueueing target req msg) producer
      consumer) :
    httpPlan mgmtEnv target req mgmt = .enqueue msg ∧ batch = [] ∧
      producer.Pushing ⟨some requests, msg⟩ ∧ consumer = .idle := by
  cases placed with
  | enqueueing target req msg plan nothing pushing => exact ⟨plan, nothing, pushing, rfl⟩

theorem MgmtPlaced.of_dequeueing {mgmt : MgmtManager} {batch : List (Tagged ResMsg)}
    {requests : ℕ} {producer : Producer (Tagged ReqMsg)} {consumer : Consumer (Tagged ResMsg)}
    (placed : MgmtPlaced mgmtEnv mgmt batch requests .dequeueing producer consumer) :
    batch = [] ∧ producer = .idle ∧ consumer.Popping (dequeueBatch resCapacity) := by
  cases placed with
  | dequeueing nothing popping => exact ⟨nothing, rfl, popping⟩

/-- Where the generation thread is. What it enqueues is the rest of what its handler offers. -/
inductive GenPlaced (env : Env) (gen : GenState) :
    GenCall → Producer (Tagged ResMsg) → Consumer (Tagged ReqMsg) → Prop
  | idle : GenPlaced env gen .idle .idle .idle
  | enqueueing {producer : Producer (Tagged ResMsg)} (label : GenLabel) (next : GenState)
      (msg : Tagged ResMsg) (rest : List (Tagged ResMsg))
      (notDequeue : ∀ msgs, label ≠ .dequeue msgs) (step : genStep env gen label = some next)
      (offered : (gen.offered next).map (Tagged.mk (gen.serves label)) = msg :: rest)
      (pushing : producer.Pushing msg) : GenPlaced env gen (.enqueueing next rest) producer .idle
  | dequeueing {consumer : Consumer (Tagged ReqMsg)} (free : gen.place = .idle)
      (popping : consumer.Popping (dequeueBatch reqCapacity)) :
      GenPlaced env gen .dequeueing .idle consumer

theorem GenPlaced.of_idle {gen : GenState} {producer : Producer (Tagged ResMsg)}
    {consumer : Consumer (Tagged ReqMsg)} (placed : GenPlaced env gen .idle producer consumer) :
    producer = .idle ∧ consumer = .idle := by
  cases placed
  exact ⟨rfl, rfl⟩

theorem GenPlaced.of_enqueueing {gen next : GenState} {rest : List (Tagged ResMsg)}
    {producer : Producer (Tagged ResMsg)} {consumer : Consumer (Tagged ReqMsg)}
    (placed : GenPlaced env gen (.enqueueing next rest) producer consumer) :
    consumer = .idle ∧ ∃ label msg, (∀ msgs, label ≠ .dequeue msgs) ∧
      genStep env gen label = some next ∧
      (gen.offered next).map (Tagged.mk (gen.serves label)) = msg :: rest ∧
      producer.Pushing msg := by
  cases placed with
  | enqueueing label next msg rest notDequeue step offered pushing =>
    exact ⟨rfl, label, msg, notDequeue, step, offered, pushing⟩

theorem GenPlaced.of_dequeueing {gen : GenState} {producer : Producer (Tagged ResMsg)}
    {consumer : Consumer (Tagged ReqMsg)}
    (placed : GenPlaced env gen .dequeueing producer consumer) :
    gen.place = .idle ∧ producer = .idle ∧ consumer.Popping (dequeueBatch reqCapacity) := by
  cases placed with
  | dequeueing free popping => exact ⟨free, rfl, popping⟩

/-- The invariant of the system over rings. -/
structure RingSystem.Sound (env : Env) (mgmtEnv : MgmtEnv) (system : RingSystem) : Prop where
  gen : system.gen.Sound
  reqs : reqRing.Invariant system.reqs
  ress : resRing.Invariant system.ress
  mgmtPlaced : MgmtPlaced mgmtEnv system.mgmt system.mgmtBatch system.requests system.mgmtPlace
    system.reqs.producer system.ress.consumer
  genPlaced : GenPlaced env system.gen system.genCall system.ress.producer system.reqs.consumer

theorem RingSystem.sound_init (workingDir : String) :
    (RingSystem.init workingDir).Sound env mgmtEnv where
  gen := GenState.sound_init workingDir
  reqs := reqRing.invariant_init
  ress := resRing.invariant_init
  mgmtPlaced := .idle
  genPlaced := .idle

/-! ### One step -/

section Steps

variable {system next : RingSystem}

theorem reaches_of_eq {before after : System} (same : after = before) :
    (systemMachine env mgmtEnv).Reachable before after := by
  rw [same]
  exact Machine.Reachable.refl _ before

/-- What a step of the system over rings has to be shown. -/
def Refined (env : Env) (mgmtEnv : MgmtEnv) (system next : RingSystem) : Prop :=
  next.Sound env mgmtEnv ∧ (systemMachine env mgmtEnv).Reachable system.view next.view

theorem refined_http {target req : String} (sound : system.Sound env mgmtEnv)
    (running : (system.mgmt.aborted || system.gen.manager.ops.aborted) = false)
    (step : system.mgmtStep mgmtEnv (.http target req) = some next) :
    Refined env mgmtEnv system next := by
  have placed := sound.mgmtPlaced
  rw [RingSystem.mgmtStep] at step
  split at step
  · next place batch =>
    rw [place] at placed
    obtain ⟨producer, consumer⟩ := placed.of_idle
    split at step
    · next status body plan =>
      obtain rfl := Option.some.inj step
      refine ⟨{ sound with mgmtPlaced := ?_ }, reaches_of_mgmtStep running
        (show system.view.mgmtStep mgmtEnv (.http target req) = some _ from ?_)⟩
      · rw [place, producer, consumer]
        exact .idle
      · rw [System.mgmtStep, if_pos (show system.view.mgmtBatch = [] from batch),
          onHttpRequest_eq, show httpPlan mgmtEnv target req system.view.mgmt = _ from plan]
        rfl
    · next msg plan =>
      obtain ⟨reqs, pushed, rfl⟩ := Option.map_eq_some_iff.mp step
      obtain ⟨invariant, others, pushing, queue⟩ := RingSize.push_starts sound.reqs pushed
      refine ⟨{ sound with reqs := invariant, mgmtPlaced := ?_, genPlaced := ?_ }, reaches_of_eq ?_⟩
      · rw [consumer]
        exact .enqueueing target req msg plan batch pushing
      · exact others ▸ sound.genPlaced
      · show ({ system.view with reqQueue := reqs.queue } : System) = system.view
        rw [queue]
        rfl
  · exact absurd step (by simp)

theorem refined_mgmtDequeue (sound : system.Sound env mgmtEnv)
    (step : system.mgmtStep mgmtEnv .mgmtDequeue = some next) :
    Refined env mgmtEnv system next := by
  have placed := sound.mgmtPlaced
  rw [RingSystem.mgmtStep] at step
  split at step
  · next place batch =>
    rw [place] at placed
    obtain ⟨producer, consumer⟩ := placed.of_idle
    obtain ⟨ress, popped, rfl⟩ := Option.map_eq_some_iff.mp step
    obtain ⟨invariant, others, popping, queue⟩ := RingSize.pop_starts sound.ress popped
    refine ⟨{ sound with ress := invariant, mgmtPlaced := ?_, genPlaced := ?_ }, reaches_of_eq ?_⟩
    · rw [producer]
      exact .dequeueing batch popping
    · exact others ▸ sound.genPlaced
    · show ({ system.view with resQueue := ress.queue } : System) = system.view
      rw [queue]
      rfl
  · exact absurd step (by simp)

theorem refined_mgmtHandle (sound : system.Sound env mgmtEnv)
    (running : (system.mgmt.aborted || system.gen.manager.ops.aborted) = false)
    (step : system.mgmtStep mgmtEnv .mgmtHandle = some next) :
    Refined env mgmtEnv system next := by
  have placed := sound.mgmtPlaced
  rw [RingSystem.mgmtStep] at step
  split at step
  · next msg rest place batch =>
    rw [place] at placed
    obtain ⟨producer, consumer⟩ := placed.of_idle
    obtain rfl := Option.some.inj step
    refine ⟨{ sound with mgmtPlaced := ?_ }, reaches_of_mgmtStep running
      (show system.view.mgmtStep mgmtEnv .mgmtHandle = some _ from ?_)⟩
    · rw [place, producer, consumer]
      exact .idle
    · rw [System.mgmtStep, show system.view.mgmtBatch = msg :: rest from batch]
      rfl
  · exact absurd step (by simp)

/-- The return of the `enqueue` of a handler is the step over queues. -/
theorem refined_enqueued {target req : String} {msg : ReqMsg} {accepted : Bool}
    {reqs : SpscThreads (Tagged ReqMsg)} (sound : system.Sound env mgmtEnv)
    (running : (system.mgmt.aborted || system.gen.manager.ops.aborted) = false)
    (plan : httpPlan mgmtEnv target req system.mgmt = .enqueue msg)
    (batch : system.mgmtBatch = []) (idle : system.ress.consumer = .idle)
    (invariant : reqRing.Invariant reqs) (others : reqs.consumer = system.reqs.consumer)
    (pushed : PushStep reqRing ⟨some system.requests, msg⟩ system.reqs reqs (some accepted)) :
    Refined env mgmtEnv system { system with
      mgmt := afterEnqueue system.requests msg accepted system.mgmt
      mgmtPlace := .idle
      reqs := reqs
      requests := system.requests + 1 } := by
  have handled : ∀ queue, enqueueReq msg.kind system.requests msg system.mgmt system.reqs.queue =
      (afterEnqueue system.requests msg accepted system.mgmt, queue) →
      system.view.mgmtStep mgmtEnv (.http target req) = some { system.view with
        mgmt := afterEnqueue system.requests msg accepted system.mgmt
        reqQueue := queue
        requests := system.requests + 1 } := by
    intro queue result
    rw [System.mgmtStep, if_pos (show system.view.mgmtBatch = [] from batch), onHttpRequest_eq,
      show httpPlan mgmtEnv target req system.view.mgmt = _ from plan]
    rw [show HttpPlan.finish system.view.requests system.view.mgmt system.view.reqQueue
      (.enqueue msg) = _ from result]
    rfl
  have step : system.view.mgmtStep mgmtEnv (.http target req) = some { system.view with
      mgmt := afterEnqueue system.requests msg accepted system.mgmt
      reqQueue := reqs.queue
      requests := system.requests + 1 } := by
    cases pushed with
    | accepted idle room queue =>
      rw [queue]
      exact handled _ (enqueueReq_of_room room)
    | refused idle full queue =>
      rw [queue]
      exact handled _ (enqueueReq_of_full full)
  refine ⟨{ sound with reqs := invariant, mgmtPlaced := ?_, genPlaced := ?_ },
    reaches_of_mgmtStep running step⟩
  · rw [pushed.producer_idle, idle]
    exact .idle
  · exact others ▸ sound.genPlaced

/-- So is that of the `dequeue` of the management. -/
theorem refined_mgmtDequeued {msgs : List (Tagged ResMsg)} {ress : SpscThreads (Tagged ResMsg)}
    (sound : system.Sound env mgmtEnv)
    (running : (system.mgmt.aborted || system.gen.manager.ops.aborted) = false)
    (batch : system.mgmtBatch = []) (idle : system.reqs.producer = .idle)
    (invariant : resRing.Invariant ress) (others : ress.producer = system.ress.producer)
    (popped : PopStep (dequeueBatch resCapacity) system.ress ress (some msgs)) :
    Refined env mgmtEnv system
      { system with mgmtPlace := .idle, mgmtBatch := msgs, ress } := by
  cases popped with
  | returned idle' msgs few queue =>
    refine ⟨{ sound with ress := invariant, mgmtPlaced := ?_, genPlaced := ?_ },
      reaches_of_mgmtStep running
        (show system.view.mgmtStep mgmtEnv (.mgmtDequeue msgs.length) = some _ from ?_)⟩
    · rw [idle, idle']
      exact .idle
    · exact others ▸ sound.genPlaced
    · rw [System.mgmtStep, if_pos ⟨batch, few⟩,
        BoundedFifo.pop_eq_some.mpr ⟨(show system.view.resQueue = _ from queue), rfl⟩]
      rfl

theorem refined_mgmtRing (sound : system.Sound env mgmtEnv)
    (running : (system.mgmt.aborted || system.gen.manager.ops.aborted) = false)
    (step : system.mgmtStep mgmtEnv .mgmtRing = some next) :
    Refined env mgmtEnv system next := by
  have placed := sound.mgmtPlaced
  rw [RingSystem.mgmtStep] at step
  split at step
  · exact absurd step (by simp)
  · next target req msg place =>
    rw [place] at placed
    obtain ⟨plan, batch, pushing, consumer⟩ := placed.of_enqueueing
    obtain ⟨⟨reqs, returned⟩, moved, same⟩ := Option.map_eq_some_iff.mp step
    obtain ⟨invariant, others, pushed⟩ := RingSize.pushStep_spec sound.reqs pushing moved
    cases returned with
    | none =>
      obtain rfl := same
      cases pushed with
      | inside pushing queue =>
        refine ⟨{ sound with reqs := invariant, mgmtPlaced := ?_, genPlaced := ?_ },
          reaches_of_eq ?_⟩
        · rw [place, consumer]
          exact .enqueueing target req msg plan batch pushing
        · exact others ▸ sound.genPlaced
        · show ({ system.view with reqQueue := reqs.queue } : System) = system.view
          rw [queue]
          rfl
    | some accepted =>
      obtain rfl := same
      exact refined_enqueued sound running plan batch consumer invariant others pushed
  · next place =>
    rw [place] at placed
    obtain ⟨batch, producer, popping⟩ := placed.of_dequeueing
    obtain ⟨⟨ress, returned⟩, moved, same⟩ := Option.map_eq_some_iff.mp step
    obtain ⟨invariant, others, popped⟩ := RingSize.popStep_spec sound.ress popping moved
    cases returned with
    | none =>
      obtain rfl := same
      cases popped with
      | inside popping queue =>
        refine ⟨{ sound with ress := invariant, mgmtPlaced := ?_, genPlaced := ?_ },
          reaches_of_eq ?_⟩
        · rw [place, producer]
          exact .dequeueing batch popping
        · exact others ▸ sound.genPlaced
        · show ({ system.view with resQueue := ress.queue } : System) = system.view
          rw [queue]
          rfl
    | some msgs =>
      obtain rfl := same
      exact refined_mgmtDequeued sound running batch producer invariant others popped

theorem GenPlace.between_iff {place : GenPlace} : place.between = true ↔ place = .idle := by
  cases place <;> simp [GenPlace.between]

theorem refined_genDequeue (sound : system.Sound env mgmtEnv)
    (step : system.genStep env .genDequeue = some next) :
    Refined env mgmtEnv system next := by
  have placed := sound.genPlaced
  rw [RingSystem.genStep] at step
  split at step
  · next call =>
    rw [call] at placed
    obtain ⟨producer, consumer⟩ := placed.of_idle
    split at step
    · next between =>
      obtain ⟨reqs, popped, rfl⟩ := Option.map_eq_some_iff.mp step
      obtain ⟨invariant, others, popping, queue⟩ := RingSize.pop_starts sound.reqs popped
      refine ⟨{ sound with reqs := invariant, mgmtPlaced := ?_, genPlaced := ?_ },
        reaches_of_eq ?_⟩
      · exact others ▸ sound.mgmtPlaced
      · rw [producer]
        exact .dequeueing (GenPlace.between_iff.mp between) popping
      · show ({ system.view with reqQueue := reqs.queue } : System) = system.view
        rw [queue]
        rfl
    · exact absurd step (by simp)
  · exact absurd step (by simp)

/-- The end of a handler of the generator is the step over queues. -/
theorem reaches_handled {label : GenLabel} {gen : GenState} {queue : ResQueue}
    (running : (system.mgmt.aborted || system.gen.manager.ops.aborted) = false)
    (notDequeue : ∀ msgs, label ≠ .dequeue msgs) (moved : genStep env system.gen label = some gen)
    (offered : ((system.gen.offered gen).map (Tagged.mk (system.gen.serves label))).foldl offer
      system.ress.queue = queue) :
    (systemMachine env mgmtEnv).Reachable system.view
      { system.view with gen := gen, resQueue := queue } := by
  refine reaches_of_genStep running
    (show system.view.genStep env (.gen label) = some _ from ?_)
  unfold System.genStep
  split
  · next same => exact absurd same (by simp)
  · next msgs same =>
    obtain rfl := SystemLabel.gen.inj same
    exact absurd rfl (notDequeue msgs)
  · next label' _ same =>
    obtain rfl := SystemLabel.gen.inj same
    rw [show genStep env system.view.gen label = _ from moved, ← offered]
    rfl
  · next noDequeue _ noLabel => exact absurd rfl (noLabel label)

theorem refined_gen {label : GenLabel} (sound : system.Sound env mgmtEnv)
    (running : (system.mgmt.aborted || system.gen.manager.ops.aborted) = false)
    (step : system.genStep env (.gen label) = some next) :
    Refined env mgmtEnv system next := by
  have placed := sound.genPlaced
  unfold RingSystem.genStep at step
  split at step
  · next same => exact absurd same (by simp)
  · exact absurd step (by simp)
  · next label' notDequeue same =>
    obtain rfl := RingLabel.gen.inj same
    split at step
    · next call =>
      rw [call] at placed
      obtain ⟨producer, consumer⟩ := placed.of_idle
      obtain ⟨gen, moved, step⟩ := Option.bind_eq_some_iff.mp step
      have soundGen : gen.Sound := GenState.Sound.step sound.gen
        (show (genMachine env).step system.gen label = some gen from moved)
      have noDequeue : ∀ msgs, label ≠ .dequeue msgs := by
        rintro msgs rfl
        exact notDequeue msgs rfl
      cases offered : (system.gen.offered gen).map (Tagged.mk (system.gen.serves label)) with
      | nil =>
        rw [offered] at step
        obtain rfl := Option.some.inj step
        refine ⟨{ sound with gen := soundGen, genPlaced := ?_ },
          reaches_handled running noDequeue moved (by rw [offered]; rfl)⟩
        rw [producer, consumer]
        exact .idle
      | cons msg rest =>
        rw [offered] at step
        obtain ⟨ress, pushed, rfl⟩ := Option.map_eq_some_iff.mp step
        obtain ⟨invariant, others, pushing, queue⟩ := RingSize.push_starts sound.ress pushed
        refine ⟨{ sound with ress := invariant, mgmtPlaced := ?_, genPlaced := ?_ },
          reaches_of_eq ?_⟩
        · exact others ▸ sound.mgmtPlaced
        · rw [consumer]
          exact .enqueueing label gen msg rest noDequeue moved offered pushing
        · show ({ system.view with resQueue := ress.queue } : System) = system.view
          rw [queue]
          rfl
    · exact absurd step (by simp)
  · next same => exact absurd same (by simp)
  · next noLabel _ => exact absurd rfl (noLabel label)

/-- The return of its `enqueue` ends a handler of the generator. -/
theorem refined_genEnqueued {label : GenLabel} {msg : Tagged ResMsg} {gen : GenState}
    {accepted : Bool} {ress : SpscThreads (Tagged ResMsg)} (sound : system.Sound env mgmtEnv)
    (running : (system.mgmt.aborted || system.gen.manager.ops.aborted) = false)
    (notDequeue : ∀ msgs, label ≠ .dequeue msgs) (moved : genStep env system.gen label = some gen)
    (offered : (system.gen.offered gen).map (Tagged.mk (system.gen.serves label)) = [msg])
    (idle : system.reqs.consumer = .idle) (invariant : resRing.Invariant ress)
    (others : ress.consumer = system.ress.consumer)
    (pushed : PushStep resRing msg system.ress ress (some accepted)) :
    Refined env mgmtEnv system { system with gen, genCall := .idle, ress } := by
  have queue : offer system.ress.queue msg = ress.queue := by
    rw [offer_eq]
    cases pushed with
    | accepted idle room queue =>
      rw [if_pos (show system.ress.queue.length < resCapacity from room), queue]
    | refused idle full queue =>
      rw [if_neg (show ¬ system.ress.queue.length < resCapacity from
        Nat.not_lt.mpr (Nat.le_of_eq full.symm)), queue]
  refine ⟨{ sound with
      gen := GenState.Sound.step sound.gen
        (show (genMachine env).step system.gen label = some gen from moved)
      ress := invariant
      mgmtPlaced := others ▸ sound.mgmtPlaced
      genPlaced := ?_ },
    reaches_handled running notDequeue moved (by rw [offered]; exact queue)⟩
  rw [pushed.producer_idle, idle]
  exact .idle

/-- The return of its `dequeue` is the step of the generator that takes the messages. -/
theorem refined_genDequeued {msgs : List (Tagged ReqMsg)} {gen : GenState}
    {reqs : SpscThreads (Tagged ReqMsg)} (sound : system.Sound env mgmtEnv)
    (running : (system.mgmt.aborted || system.gen.manager.ops.aborted) = false)
    (moved : genStep env system.gen (.dequeue msgs) = some gen)
    (idle : system.ress.producer = .idle) (invariant : reqRing.Invariant reqs)
    (others : reqs.producer = system.reqs.producer)
    (popped : PopStep (dequeueBatch reqCapacity) system.reqs reqs (some msgs)) :
    Refined env mgmtEnv system { system with gen, genCall := .idle, reqs } := by
  cases popped with
  | returned idle' msgs few queue =>
    refine ⟨{ sound with
        gen := GenState.Sound.step sound.gen
          (show (genMachine env).step system.gen (.dequeue msgs) = some gen from moved)
        reqs := invariant
        mgmtPlaced := others ▸ sound.mgmtPlaced
        genPlaced := ?_ },
      reaches_of_genStep running
        (show system.view.genStep env (.genDequeue msgs.length) = some _ from ?_)⟩
    · rw [idle, idle']
      exact .idle
    · rw [System.genStep,
        BoundedFifo.pop_eq_some.mpr ⟨(show system.view.reqQueue = _ from queue), rfl⟩,
        Option.bind_some, show TrafficGenerator.genStep env system.view.gen _ = _ from moved]
      rfl

theorem refined_genRing (sound : system.Sound env mgmtEnv)
    (running : (system.mgmt.aborted || system.gen.manager.ops.aborted) = false)
    (step : system.genStep env .genRing = some next) :
    Refined env mgmtEnv system next := by
  have placed := sound.genPlaced
  rw [RingSystem.genStep] at step
  split at step
  · exact absurd step (by simp)
  · next gen rest call =>
    rw [call] at placed
    obtain ⟨consumer, label, msg, notDequeue, moved, offered, pushing⟩ := placed.of_enqueueing
    obtain rfl : rest = [] := by
      have short := offered_short sound.gen
        (show (genMachine env).step system.gen label = some gen from moved) notDequeue
      have length := congrArg List.length offered
      rw [List.length_map, List.length_cons] at length
      exact List.length_eq_zero_iff.mp (by omega)
    obtain ⟨⟨ress, returned⟩, pushed, step⟩ := Option.bind_eq_some_iff.mp step
    obtain ⟨invariant, others, pushed⟩ := RingSize.pushStep_spec sound.ress pushing pushed
    cases returned with
    | none =>
      obtain rfl := Option.some.inj step
      cases pushed with
      | inside pushing queue =>
        refine ⟨{ sound with ress := invariant, mgmtPlaced := ?_, genPlaced := ?_ },
          reaches_of_eq ?_⟩
        · exact others ▸ sound.mgmtPlaced
        · rw [call, consumer]
          exact .enqueueing label gen msg [] notDequeue moved offered pushing
        · show ({ system.view with resQueue := ress.queue } : System) = system.view
          rw [queue]
          rfl
    | some accepted =>
      obtain rfl := Option.some.inj step
      exact refined_genEnqueued sound running notDequeue moved offered consumer invariant others
        pushed
  · next call =>
    rw [call] at placed
    obtain ⟨free, producer, popping⟩ := placed.of_dequeueing
    obtain ⟨⟨reqs, returned⟩, popped, step⟩ := Option.bind_eq_some_iff.mp step
    obtain ⟨invariant, others, popped⟩ := RingSize.popStep_spec sound.reqs popping popped
    cases returned with
    | none =>
      obtain rfl := Option.some.inj step
      cases popped with
      | inside popping queue =>
        refine ⟨{ sound with reqs := invariant, mgmtPlaced := ?_, genPlaced := ?_ },
          reaches_of_eq ?_⟩
        · exact others ▸ sound.mgmtPlaced
        · rw [call, producer]
          exact .dequeueing free popping
        · show ({ system.view with reqQueue := reqs.queue } : System) = system.view
          rw [queue]
          rfl
    | some msgs =>
      obtain ⟨gen, moved, rfl⟩ := Option.map_eq_some_iff.mp step
      exact refined_genDequeued sound running moved producer invariant others popped

/-! ### Every run -/

theorem RingSystem.Sound.step {label : RingLabel} (sound : system.Sound env mgmtEnv)
    (step : (ringMachine env mgmtEnv).step system label = some next) :
    Refined env mgmtEnv system next := by
  simp only [ringMachine, RingSystem.step] at step
  split at step
  · exact absurd step (by simp)
  · next running =>
    have running := Bool.eq_false_iff.mpr running
    cases label with
    | http target req => exact refined_http sound running step
    | mgmtDequeue => exact refined_mgmtDequeue sound step
    | mgmtHandle => exact refined_mgmtHandle sound running step
    | mgmtRing => exact refined_mgmtRing sound running step
    | genDequeue => exact refined_genDequeue sound step
    | gen label => exact refined_gen sound running step
    | genRing => exact refined_genRing sound running step

end Steps

theorem RingSystem.sound_of_run {workingDir : String} {labels : List RingLabel}
    {system : RingSystem}
    (run : (ringMachine env mgmtEnv).run (RingSystem.init workingDir) labels = some system) :
    system.Sound env mgmtEnv :=
  (ringMachine env mgmtEnv).run_invariant (RingSystem.Sound env mgmtEnv)
    (fun _ _ _ sound step => (sound.step step).1) (RingSystem.sound_init workingDir) run

/-- However the atomic loads and stores of the two threads interleave inside their calls of
`enqueue` and `dequeue`, the two managers over the rings do what they do over two bounded FIFO
queues, and neither ring is read where it holds nothing. -/
theorem ringSystem_refines_system (env : Env) (mgmtEnv : MgmtEnv) (workingDir : String)
    {labels : List RingLabel} {system : RingSystem}
    (run : (ringMachine env mgmtEnv).run (RingSystem.init workingDir) labels = some system) :
    (systemMachine env mgmtEnv).Reachable (System.init workingDir) system.view ∧
      system.reqs.fault = false ∧ system.ress.fault = false := by
  have sound := RingSystem.sound_of_run run
  refine ⟨?_, sound.reqs.noFault, sound.ress.noFault⟩
  exact (ringMachine env mgmtEnv).run_project (systemMachine env mgmtEnv) RingSystem.view
    (RingSystem.Sound env mgmtEnv) (fun _ _ _ sound step => (sound.step step).1)
    (fun _ _ _ sound step => (sound.step step).2) (RingSystem.sound_init workingDir) run

/-- A request for the statistics whose two messages are each looked for before they are there. -/
def overlappingStats : List RingLabel :=
  [.http "/get_stats" "", .genDequeue, .mgmtRing, .genRing, .gen (.tick (tickAt 0 0)), .mgmtRing,
    .genDequeue, .genRing, .genRing, .genRing, .gen (.handle {}), .mgmtDequeue, .genRing, .mgmtRing,
    .genRing, .mgmtDequeue, .mgmtRing, .mgmtRing, .mgmtRing, .mgmtHandle]

theorem ringSystem_refines_system_overlappingStats : ∃ system,
    (ringMachine (sampleEnv samplePool) sampleMgmt).run (RingSystem.init "") overlappingStats =
      some system ∧
    system.mgmt.answers.length = 1 ∧
    (systemMachine (sampleEnv samplePool) sampleMgmt).Reachable (System.init "") system.view ∧
      system.reqs.fault = false ∧ system.ress.fault = false := by
  have runs : ((ringMachine (sampleEnv samplePool) sampleMgmt).run (RingSystem.init "")
      overlappingStats).map (fun system => system.mgmt.answers.length) = some 1 := by
    decide +kernel
  obtain ⟨system, run, length⟩ := Option.map_eq_some_iff.mp runs
  exact ⟨system, run, length,
    ringSystem_refines_system (sampleEnv samplePool) sampleMgmt "" run⟩

end TrafficGenerator
