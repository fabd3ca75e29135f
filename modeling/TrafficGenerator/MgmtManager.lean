/-
This file models `mgmt/manager.cpp`: the handlers of the HTTP requests, which
send a message to the generator and keep the callback, and the handlers of the
generator's messages, which call it.

An HTTP callback is the number of the request it belongs to, and calling it is
an entry of the list of answers. An entry without a number is a call of an
empty callback.
-/

import TrafficGenerator.BoundedFifo
import TrafficGenerator.Messages

namespace TrafficGenerator

/-- `bhttp::status`, the codes in use. -/
inductive HttpStatus where
  | ok
  | badRequest
  | notFound
  | preconditionFailed
  | internalServerError
deriving DecidableEq

/-- One call of an HTTP callback. -/
structure HttpAnswer where
  request : Option ℕ
  status : HttpStatus
  body : String
deriving DecidableEq

/-- What is outside the management manager: `TG_ENFORCE`, the clock frequency, and the
constructor of `gen_config` with the text of the exception it throws. -/
structure MgmtEnv where
  enforce : Bool → Bool
  hz : UInt64
  parseCfg : String → Except String GenConfig

/-- The three requests, each with a callback of its own. -/
inductive ReqKind where
  | start
  | stop
  | stats
deriving DecidableEq

/-- `mgmt::manager_impl`. -/
structure MgmtManager where
  startCb : Option ℕ := none
  stopCb : Option ℕ := none
  statsCb : Option ℕ := none
  answers : List HttpAnswer := []
  aborted : Bool := false

def MgmtManager.cb (manager : MgmtManager) : ReqKind → Option ℕ
  | .start => manager.startCb
  | .stop => manager.stopCb
  | .stats => manager.statsCb

def MgmtManager.setCb (manager : MgmtManager) (cb : Option ℕ) : ReqKind → MgmtManager
  | .start => { manager with startCb := cb }
  | .stop => { manager with stopCb := cb }
  | .stats => { manager with statsCb := cb }

/-- `cb(status, body)`. -/
def MgmtManager.answer (manager : MgmtManager) (request : Option ℕ) (status : HttpStatus)
    (body : String) : MgmtManager :=
  { manager with answers := manager.answers ++ [{ request, status, body }] }

/-- The queue of the requests to the generator. -/
abbrev ReqQueue := List (Tagged ReqMsg)

/-! ### The bodies -/

/-- `make_response_body`. -/
def makeResponseBody (text : String) : String := "\x7b\"result\": \"" ++ text ++ "\"\x7d"

/-- The members of a JSON object, without the comma after the last one. -/
def jsonMembers (members : List (String × String)) : String :=
  String.intercalate "," (members.map fun entry => "\"" ++ entry.1 ++ "\":" ++ entry.2)

/-- The counters as JSON members. -/
def statsMembers (stats : Stats) : String :=
  jsonMembers (stats.visit.map fun entry => (entry.1, toString entry.2))

/-- The members of one entry of the summary; `count()` of a duration is signed. -/
def entryMembers (hz : UInt64) (ent : SummaryEntry) : String :=
  jsonMembers [("gen_idx", toString ent.genIdx), ("flow_idx", toString ent.flowIdx),
    ("cnt_pkts", toString ent.cntPkts), ("cnt_bytes", toString ent.cntBytes),
    ("duration_usec",
      toString (Cycles.toDuration hz .microseconds ent.duration).toInt64.toInt)]

/-- The body `on_inc_msg(res_stop_generation)` builds. -/
def stopBody (hz : UInt64) (res : SummaryStats) : String :=
  "\x7b\"result\": \x7b" ++ statsMembers res.summary ++ "\x7d, \"detailed\": [" ++
    String.intercalate "," (res.detailed.map fun ent => "\x7b" ++ entryMembers hz ent ++ "\x7d") ++
    "]\x7d"

/-- The body `on_inc_msg(res_stats_report)` builds. -/
def statsBody (res : Stats) : String := "\x7b\"result\": \x7b" ++ statsMembers res ++ "\x7d\x7d"

/-! ### HTTP requests -/

variable (env : MgmtEnv)

/-- `if (out_queue_->enqueue(msg))`: the callback is kept when the message fits. -/
def enqueueReq (kind : ReqKind) (cb : ℕ) (msg : ReqMsg) (manager : MgmtManager)
    (queue : ReqQueue) : MgmtManager × ReqQueue :=
  match BoundedFifo.push reqCapacity queue [{ request := some cb, msg }] with
  | some queue => (manager.setCb (some cb) kind, queue)
  | none => (manager.answer (some cb) .internalServerError
      (makeResponseBody "Failed to enqueue request"), queue)

/-- `on_req_start_gen`. -/
def onReqStartGen (cb : ℕ) (req : String) (manager : MgmtManager) (queue : ReqQueue) :
    MgmtManager × ReqQueue :=
  if manager.startCb.isSome then
    (manager.answer (some cb) .preconditionFailed
      (makeResponseBody "Start already in progress"), queue)
  else
    match env.parseCfg req with
    | .ok cfg => enqueueReq .start cb (.startGeneration cfg) manager queue
    | .error what => (manager.answer (some cb) .badRequest
        (makeResponseBody s!"Invalid generation configuration: {what}"), queue)

/-- `on_req_stop_gen`. -/
def onReqStopGen (cb : ℕ) (manager : MgmtManager) (queue : ReqQueue) : MgmtManager × ReqQueue :=
  if manager.stopCb.isSome then
    (manager.answer (some cb) .preconditionFailed
      (makeResponseBody "Stop already in progress"), queue)
  else enqueueReq .stop cb .stopGeneration manager queue

/-- `on_req_get_stats`. -/
def onReqGetStats (cb : ℕ) (manager : MgmtManager) (queue : ReqQueue) : MgmtManager × ReqQueue :=
  if manager.statsCb.isSome then
    (manager.answer (some cb) .preconditionFailed
      (makeResponseBody "Stats request already in progress"), queue)
  else enqueueReq .stats cb .statsReport manager queue

/-- `on_http_request`, with the table of `init_req_handlers`. -/
def onHttpRequest (cb : ℕ) (target req : String) (manager : MgmtManager) (queue : ReqQueue) :
    MgmtManager × ReqQueue :=
  if target = "/start_gen" then onReqStartGen env cb req manager queue
  else if target = "/stop_gen" then onReqStopGen cb manager queue
  else if target = "/get_stats" then onReqGetStats cb manager queue
  else (manager.answer (some cb) .notFound
    (makeResponseBody s!"Invalid target: {target}"), queue)

/-! ### Messages of the generator -/

/-- The end of the three response handlers: `TG_ENFORCE(cb)`, the call, `cb = {}`. -/
def respond (kind : ReqKind) (status : HttpStatus) (body : String) (manager : MgmtManager) :
    MgmtManager :=
  let cb := manager.cb kind
  let manager := { manager with aborted := manager.aborted || env.enforce cb.isSome }
  (manager.answer cb status body).setCb none kind

/-- `on_inc_msg(mgmt::res_start_generation&&)`. -/
def onResStartGeneration (res : Except String Unit) (manager : MgmtManager) : MgmtManager :=
  match res with
  | .ok () => respond env .start .ok (makeResponseBody "Generation started") manager
  | .error text => respond env .start .preconditionFailed
      (makeResponseBody s!"Failed to start generation: {text}\n") manager

/-- `on_inc_msg(mgmt::res_stop_generation&&)`. -/
def onResStopGeneration (res : SummaryStats) (manager : MgmtManager) : MgmtManager :=
  respond env .stop .ok (stopBody env.hz res) manager

/-- `on_inc_msg(mgmt::res_stats_report&&)`. -/
def onResStatsReport (res : Stats) (manager : MgmtManager) : MgmtManager :=
  respond env .stats .ok (statsBody res) manager

/-- `on_inc_msg`; a generation report is dropped. -/
def onResMsg (manager : MgmtManager) : ResMsg → MgmtManager
  | .startGeneration res => onResStartGeneration env res manager
  | .stopGeneration res => onResStopGeneration env res manager
  | .statsReport res => onResStatsReport env res manager
  | .generationReport _ => manager

/-- The request a message asks for. -/
def ReqMsg.kind : ReqMsg → ReqKind
  | .startGeneration _ => .start
  | .stopGeneration => .stop
  | .statsReport => .stats

/-- The request a message answers, `none` for a report. -/
def ResMsg.kind : ResMsg → Option ReqKind
  | .startGeneration _ => some .start
  | .stopGeneration _ => some .stop
  | .statsReport _ => some .stats
  | .generationReport _ => none

/-! ### The machine of the manager alone -/

/-- The manager and the queue its requests wait in. -/
structure MgmtState where
  manager : MgmtManager := {}
  queue : ReqQueue := []

/-- An HTTP request arrives, a message of the generator is handled, or the generator takes
requests off the queue. -/
inductive MgmtLabel where
  | http (cb : ℕ) (target req : String)
  | handle (msg : ResMsg)
  | drain (count : ℕ)

/-- One step; an aborted process takes no more of them. -/
def mgmtStep (state : MgmtState) (label : MgmtLabel) : Option MgmtState :=
  if state.manager.aborted then none
  else match label with
    | .http cb target req =>
      let next := onHttpRequest env cb target req state.manager state.queue
      some ⟨next.1, next.2⟩
    | .handle msg => some { state with manager := onResMsg env state.manager msg }
    | .drain count => (BoundedFifo.pop state.queue count).map fun popped =>
        { state with queue := popped.2 }

/-- The management manager as a machine. -/
def mgmtMachine : Machine MgmtState MgmtLabel where
  step := mgmtStep env

end TrafficGenerator
