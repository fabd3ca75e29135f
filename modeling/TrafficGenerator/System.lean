/-
This file puts the two managers and the two queues between them together. Each
manager runs on a thread of its own, so a step of the system is a step of one of
them: an HTTP request, messages taken off a queue, the handler of one message, a
part of the generator's `process_events`.

The queues are bounded FIFO queues, which is what the rings behind them are
(`RingSize.refines_boundedFifo`). A thread that takes messages off a ring may
see fewer than there are, so it may take any number up to the batch.

Every message is tagged with the HTTP request it serves. The tags are no part of
the program; they say which request a response answers.
-/

import TrafficGenerator.GenManager
import TrafficGenerator.MgmtManager

namespace TrafficGenerator

variable (env : Env) (mgmtEnv : MgmtEnv)

/-- The queue of the generator's messages. -/
abbrev ResQueue := List (Tagged ResMsg)

/-- The two managers, the two queues, the messages the management has taken off its queue and
not handled, and the number of HTTP requests so far. -/
structure System where
  mgmt : MgmtManager := {}
  mgmtBatch : List (Tagged ResMsg) := []
  gen : GenState
  reqQueue : ReqQueue := []
  resQueue : ResQueue := []
  requests : ℕ := 0

/-- The system as it starts. -/
def System.init (workingDir : String) : System where
  gen := GenState.init workingDir

/-- The requests the generator has taken off its queue and not handled. -/
def GenState.batch (state : GenState) : List (Tagged ReqMsg) :=
  match state.place with
  | .handling msgs => msgs
  | _ => []

/-- The HTTP request the generator serves when it takes a step: that of the message it
handles. -/
def GenState.serves (state : GenState) (label : GenLabel) : Option ℕ :=
  match state.batch, label with
  | msg :: _, .handle _ => msg.request
  | _, _ => none

/-- `enqueue` of one message whose result is ignored: it is lost when the queue is full. -/
def offer (queue : ResQueue) (msg : Tagged ResMsg) : ResQueue :=
  (BoundedFifo.push resCapacity queue [msg]).getD queue

/-- The messages the generator has offered from one state to another. -/
def GenState.offered (before after : GenState) : List ResMsg :=
  after.manager.ops.outMsgs.drop before.manager.ops.outMsgs.length

inductive SystemLabel where
  | http (target req : String)
  | mgmtDequeue (count : ℕ)
  | mgmtHandle
  | genDequeue (count : ℕ)
  | gen (label : GenLabel)

/-- A step of the management thread. `poll_one` comes before `dequeue`, so no HTTP request is
handled while a batch is. -/
def System.mgmtStep (system : System) : SystemLabel → Option System
  | .http target req =>
    if system.mgmtBatch = [] then
      let next := onHttpRequest mgmtEnv system.requests target req system.mgmt system.reqQueue
      some { system with
        mgmt := next.1
        reqQueue := next.2
        requests := system.requests + 1 }
    else none
  | .mgmtDequeue count =>
    if system.mgmtBatch = [] ∧ count ≤ dequeueBatch resCapacity then
      (BoundedFifo.pop system.resQueue count).map fun popped =>
        { system with mgmtBatch := popped.1, resQueue := popped.2 }
    else none
  | .mgmtHandle =>
    match system.mgmtBatch with
    | [] => none
    | msg :: rest => some { system with
        mgmt := onResMsg mgmtEnv system.mgmt msg.msg
        mgmtBatch := rest }
  | _ => none

/-- A step of the generation thread. -/
def System.genStep (system : System) : SystemLabel → Option System
  | .genDequeue count =>
    (BoundedFifo.pop system.reqQueue count).bind fun popped =>
      (TrafficGenerator.genStep env system.gen (.dequeue popped.1)).map fun gen =>
        { system with gen, reqQueue := popped.2 }
  | .gen (.dequeue _) => none
  | .gen label =>
    (TrafficGenerator.genStep env system.gen label).map fun gen =>
      { system with
        gen
        resQueue := ((system.gen.offered gen).map (Tagged.mk (system.gen.serves label))).foldl
          offer system.resQueue }
  | _ => none

/-- A step of the system. The two threads are in one process: when one aborts, both end. -/
def System.step (system : System) (label : SystemLabel) : Option System :=
  if system.mgmt.aborted || system.gen.manager.ops.aborted then none
  else match label with
    | .genDequeue _ | .gen _ => system.genStep env label
    | _ => system.mgmtStep mgmtEnv label

/-- The system as a machine. -/
def systemMachine : Machine System SystemLabel where
  step := System.step env mgmtEnv

end TrafficGenerator
