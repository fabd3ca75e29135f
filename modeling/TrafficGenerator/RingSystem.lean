/-
This file puts the two managers together over the rings behind their queues. A
call of `enqueue` is a `try_push` and a call of `dequeue` a batched `try_pop`
(`mgmt/messages.h`), and both are taken one atomic load or store at a time while
the other thread goes on.

What a handler does besides its call of `enqueue` reads and writes what only its
own thread has, so it is one step. A handler of the management is cut in two at
the call, since it looks at the result; the generator ignores the result, so the
outcome of its handler is kept aside until the call returns.
-/

import TrafficGenerator.SpscRing
import TrafficGenerator.System

namespace TrafficGenerator

variable {Value : Type} (env : Env) (mgmtEnv : MgmtEnv)

/-! ### The queues -/

/-- The ring of `out_messages_queue`. -/
def reqRing : RingSize := ⟨32, by decide, by decide⟩

/-- The ring of `inc_messages_queue`. -/
def resRing : RingSize := ⟨256, by decide, by decide⟩

/-- Whether `try_push` returns true when its next step is its last one: the store of the head is
the only step it returns true after. -/
def Producer.accepts : Producer Value → Bool
  | .storeHead _ _ => true
  | .idle | .loadTail _ _ | .construct _ _ => false

/-- The next step of a `try_push`, with what it returns if it does. -/
def RingSize.pushStep (ring : RingSize) (threads : SpscThreads Value) :
    Option (SpscThreads Value × Option Bool) :=
  (ring.threadsStep threads .producer).map fun next =>
    (next, match next.producer with
      | .idle => some threads.producer.accepts
      | _ => none)

/-- The next step of a `try_pop`, with the values it returns if it does. -/
def RingSize.popStep (ring : RingSize) (threads : SpscThreads Value) :
    Option (SpscThreads Value × Option (List Value)) :=
  (ring.threadsStep threads .consumer).map fun next =>
    (next, match next.consumer with
      | .idle => some threads.inFlight
      | _ => none)

/-! ### The handlers of the management -/

/-- What `on_http_request` comes to before a call of `enqueue`: an answer, or the message to
enqueue. -/
inductive HttpPlan where
  | answer (status : HttpStatus) (body : String)
  | enqueue (msg : ReqMsg)

/-- The three request handlers up to their call of `enqueue`. -/
def httpPlan (target req : String) (manager : MgmtManager) : HttpPlan :=
  if target = "/start_gen" then
    if manager.startCb.isSome then
      .answer .preconditionFailed (makeResponseBody "Start already in progress")
    else
      match mgmtEnv.parseCfg req with
      | .ok cfg => .enqueue (.startGeneration cfg)
      | .error what =>
        .answer .badRequest (makeResponseBody s!"Invalid generation configuration: {what}")
  else if target = "/stop_gen" then
    if manager.stopCb.isSome then
      .answer .preconditionFailed (makeResponseBody "Stop already in progress")
    else .enqueue .stopGeneration
  else if target = "/get_stats" then
    if manager.statsCb.isSome then
      .answer .preconditionFailed (makeResponseBody "Stats request already in progress")
    else .enqueue .statsReport
  else .answer .notFound (makeResponseBody s!"Invalid target: {target}")

/-- The rest of the handlers, with the result of `enqueue`. -/
def afterEnqueue (cb : ℕ) (msg : ReqMsg) (accepted : Bool) (manager : MgmtManager) :
    MgmtManager :=
  if accepted then manager.setCb (some cb) msg.kind
  else manager.answer (some cb) .internalServerError
    (makeResponseBody "Failed to enqueue request")

/-! ### The state -/

/-- Where the management thread is. -/
inductive MgmtPlace where
  | idle
  /-- Inside the `enqueue` of `on_http_request(target, req)`. -/
  | enqueueing (target req : String) (msg : ReqMsg)
  | dequeueing

/-- Where the generation thread is. -/
inductive GenCall where
  | idle
  /-- Inside an `enqueue`: how its handler leaves the manager, and what it enqueues next. -/
  | enqueueing (next : GenState) (rest : List (Tagged ResMsg))
  | dequeueing

/-- The two managers and the two rings. -/
structure RingSystem where
  mgmt : MgmtManager := {}
  mgmtPlace : MgmtPlace := .idle
  mgmtBatch : List (Tagged ResMsg) := []
  gen : GenState
  genCall : GenCall := .idle
  reqs : SpscThreads (Tagged ReqMsg) := {}
  ress : SpscThreads (Tagged ResMsg) := {}
  requests : ℕ := 0

/-- The system as it starts. -/
def RingSystem.init (workingDir : String) : RingSystem where
  gen := GenState.init workingDir

/-- What starts a step of one thread, or the next step of the call it is in. -/
inductive RingLabel where
  | http (target req : String)
  | mgmtDequeue
  | mgmtHandle
  | mgmtRing
  | genDequeue
  | gen (label : GenLabel)
  | genRing

/-! ### The steps -/

/-- The generation thread is between two calls of `process_events`. -/
def GenPlace.between : GenPlace → Bool
  | .idle => true
  | .handling _ => false
  | .timers => false

/-- A step of the management thread. -/
def RingSystem.mgmtStep (system : RingSystem) : RingLabel → Option RingSystem
  | .http target req =>
    match system.mgmtPlace, system.mgmtBatch with
    | .idle, [] =>
      match httpPlan mgmtEnv target req system.mgmt with
      | .answer status body => some { system with
          mgmt := system.mgmt.answer (some system.requests) status body
          requests := system.requests + 1 }
      | .enqueue msg =>
        (reqRing.threadsStep system.reqs (.push (.single ⟨some system.requests, msg⟩))).map
          fun reqs => { system with mgmtPlace := .enqueueing target req msg, reqs }
    | _, _ => none
  | .mgmtDequeue =>
    match system.mgmtPlace, system.mgmtBatch with
    | .idle, [] =>
      (resRing.threadsStep system.ress
          (.pop (.batch (UInt64.ofNat (dequeueBatch resCapacity))))).map
        fun ress => { system with mgmtPlace := .dequeueing, ress }
    | _, _ => none
  | .mgmtHandle =>
    match system.mgmtPlace, system.mgmtBatch with
    | .idle, msg :: rest => some { system with
        mgmt := onResMsg mgmtEnv system.mgmt msg.msg
        mgmtBatch := rest }
    | _, _ => none
  | .mgmtRing =>
    match system.mgmtPlace with
    | .idle => none
    | .enqueueing _ _ msg =>
      (reqRing.pushStep system.reqs).map fun moved =>
        match moved.2 with
        | none => { system with reqs := moved.1 }
        | some accepted => { system with
            mgmt := afterEnqueue system.requests msg accepted system.mgmt
            mgmtPlace := .idle
            reqs := moved.1
            requests := system.requests + 1 }
    | .dequeueing =>
      (resRing.popStep system.ress).map fun moved =>
        match moved.2 with
        | none => { system with ress := moved.1 }
        | some msgs => { system with
            mgmtPlace := .idle
            mgmtBatch := msgs
            ress := moved.1 }
  | _ => none

/-- The generation thread goes on to the next `enqueue` of its handler, or out of it. -/
def RingSystem.enqueueNext (system : RingSystem) (next : GenState) :
    List (Tagged ResMsg) → Option RingSystem
  | [] => some { system with gen := next, genCall := .idle }
  | msg :: rest =>
    (resRing.threadsStep system.ress (.push (.single msg))).map fun ress =>
      { system with genCall := .enqueueing next rest, ress }

/-- A step of the generation thread. -/
def RingSystem.genStep (system : RingSystem) : RingLabel → Option RingSystem
  | .genDequeue =>
    match system.genCall with
    | .idle =>
      if system.gen.place.between then
        (reqRing.threadsStep system.reqs
            (.pop (.batch (UInt64.ofNat (dequeueBatch reqCapacity))))).map
          fun reqs => { system with genCall := .dequeueing, reqs }
      else none
    | _ => none
  | .gen (.dequeue _) => none
  | .gen label =>
    match system.genCall with
    | .idle =>
      (TrafficGenerator.genStep env system.gen label).bind fun next =>
        system.enqueueNext next
          ((system.gen.offered next).map (Tagged.mk (system.gen.serves label)))
    | _ => none
  | .genRing =>
    match system.genCall with
    | .idle => none
    | .enqueueing next rest =>
      (resRing.pushStep system.ress).bind fun moved =>
        match moved.2 with
        | none => some { system with ress := moved.1 }
        | some _ => { system with ress := moved.1 }.enqueueNext next rest
    | .dequeueing =>
      (reqRing.popStep system.reqs).bind fun moved =>
        match moved.2 with
        | none => some { system with reqs := moved.1 }
        | some msgs => (TrafficGenerator.genStep env system.gen (.dequeue msgs)).map fun gen =>
            { system with gen, genCall := .idle, reqs := moved.1 }
  | _ => none

/-- A step of the system; when one thread aborts, both end. -/
def RingSystem.step (system : RingSystem) (label : RingLabel) : Option RingSystem :=
  if system.mgmt.aborted || system.gen.manager.ops.aborted then none
  else match label with
    | .genDequeue | .gen _ | .genRing => system.genStep env label
    | _ => system.mgmtStep mgmtEnv label

/-- The two managers over the two rings as a machine. -/
def ringMachine : Machine RingSystem RingLabel where
  step := RingSystem.step env mgmtEnv

/-! ### The queues the rings stand for -/

/-- The system over queues that this one stands for. -/
def RingSystem.view (system : RingSystem) : System where
  mgmt := system.mgmt
  mgmtBatch := system.mgmtBatch
  gen := system.gen
  reqQueue := system.reqs.pushed.drop system.reqs.popped.length
  resQueue := system.ress.pushed.drop system.ress.popped.length
  requests := system.requests

end TrafficGenerator
