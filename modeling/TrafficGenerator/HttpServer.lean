/-
This file models `mgmt/priv/http_server.cpp`: the loop that accepts connections,
and the coroutine of a connection, which reads one request, waits for the
callback it hands to the request's handler, and writes the response.

The coroutines are run by `io_ctx_.poll_one()`, so each of their steps is a step
of the management thread while it handles no messages. What the network does is
chosen by the labels.
-/

import TrafficGenerator.System

namespace TrafficGenerator

/-- `bhttp::request`, as far as it is read. -/
structure HttpRequest where
  target : String
  body : String
  version : ℕ
deriving DecidableEq

/-- `bhttp::response`, as `process_request` fills it. -/
structure HttpResponse where
  status : HttpStatus
  version : ℕ
  server : String
  contentType : String
  body : String
  contentLength : ℕ
deriving DecidableEq

/-- The response of `process_request`. Its last field is set by `prepare_payload`; a character of a
body is a byte of the source's string. -/
def makeResponse (beastVersion : String) (req : HttpRequest) (answer : HttpAnswer) :
    HttpResponse where
  status := answer.status
  version := req.version
  server := beastVersion
  contentType := "text/json"
  body := answer.body
  contentLength := answer.body.length

/-- Where `process_request` is for one connection; the number is that of its callback. -/
inductive Connection where
  | reading
  | waiting (id : ℕ) (req : HttpRequest)
  | writing (id : ℕ) (req : HttpRequest) (response : HttpResponse)
  | failed
  | done (id : ℕ) (req : HttpRequest) (response : HttpResponse)
deriving DecidableEq

/-- The callback of `get_response` is called: its coroutine goes on to write. -/
def Connection.resume (beastVersion : String) (connection : Connection) (answer : HttpAnswer) :
    Connection :=
  match connection with
  | .waiting id req =>
    if answer.request = some id then .writing id req (makeResponse beastVersion req answer)
    else .waiting id req
  | other => other

/-- `http_server`: the connections in the order they were accepted, and what the error handler
has been told. -/
structure HttpServer where
  connections : List Connection := []
  errors : List String := []

/-- The system with the server in front of it. -/
structure Service where
  system : System
  server : HttpServer := {}

/-- The service as it starts. -/
def Service.init (workingDir : String) : Service where
  system := System.init workingDir

/-- What happens on the network, or anything else the system does. -/
inductive ServiceLabel where
  | accept (ok : Bool)
  | read (pos : ℕ) (req : Option HttpRequest)
  | written (pos : ℕ) (ok : Bool)
  | inside (label : SystemLabel)

section Steps

variable (env : Env) (mgmtEnv : MgmtEnv) (beastVersion : String)

/-- The connections after a step of the system: its calls of callbacks resume them. -/
def HttpServer.resume (server : HttpServer) (before after : System) : HttpServer :=
  let calls := after.mgmt.answers.drop before.mgmt.answers.length
  { server with
    connections := server.connections.map fun connection =>
      calls.foldl (Connection.resume beastVersion) connection }

/-- A step of `accept_connections` or `process_request`. -/
def Service.poll (service : Service) : ServiceLabel → Option Service
  | .accept true => some { service with
      server := { service.server with
        connections := service.server.connections ++ [.reading] } }
  | .accept false => some { service with
      server := { service.server with errors := service.server.errors ++ ["accept failed"] } }
  | .read pos req =>
    match service.server.connections[pos]?, req with
    | some .reading, none => some { service with
        server := {
          connections := service.server.connections.set pos .failed
          errors := service.server.errors ++ ["receive failed"] } }
    | some .reading, some req =>
      ((systemMachine env mgmtEnv).step service.system (.http req.target req.body)).map
        fun system =>
          let server := { service.server with
            connections := service.server.connections.set pos
              (.waiting service.system.requests req) }
          { system, server := server.resume beastVersion service.system system }
    | _, _ => none
  | .written pos ok =>
    match service.server.connections[pos]? with
    | some (.writing id req response) => some { service with
        server := {
          connections := service.server.connections.set pos (.done id req response)
          errors := if ok then service.server.errors
            else service.server.errors ++ ["send failed"] } }
    | _ => none
  | .inside _ => none

/-- A step of the service. -/
def Service.step (service : Service) : ServiceLabel → Option Service
  | .inside (.http _ _) => none
  | .inside label =>
    ((systemMachine env mgmtEnv).step service.system label).map fun system =>
      { system, server := service.server.resume beastVersion service.system system }
  | label =>
    if service.system.mgmt.aborted || service.system.gen.manager.ops.aborted then none
    else if service.system.mgmtBatch = [] then service.poll env mgmtEnv beastVersion label
    else none

/-- The service as a machine. -/
def serviceMachine : Machine Service ServiceLabel where
  step := Service.step env mgmtEnv beastVersion

end Steps

end TrafficGenerator
