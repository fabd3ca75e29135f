/-
This file follows the HTTP connections through the runs of the whole service. A
request read from a connection gets the next number, its callback is called at
most once, and only that call lets the coroutine of the connection go on. The
callbacks the management keeps are therefore those of the connections that wait,
and what a connection is sent is the answer to its own request.
-/

import TrafficGenerator.HttpServer
import TrafficGenerator.Matching

namespace TrafficGenerator

variable {env : Env} {mgmtEnv : MgmtEnv} {beastVersion : String}

/-! ### One connection -/

theorem System.Matched.answered_lt {system : System} (matched : system.Matched) {id : ℕ}
    (answered : some id ∈ system.mgmt.answers.map HttpAnswer.request) : id < system.requests := by
  obtain ⟨other, below, same⟩ := List.mem_map.mp
    (matched.callbacks.mem_iff.mp (List.mem_append_left _ answered))
  rw [← Option.some.inj same]
  exact List.mem_range.mp below

/-- The number of the callback a connection has handed over. -/
def Connection.id : Connection → Option ℕ
  | .waiting id _ | .writing id _ _ | .done id _ _ => some id
  | .reading | .failed => none

/-- A connection agrees with the calls of the callbacks: it waits when its own was not called,
and responds with what its own was called with. -/
inductive Connection.Agrees (beastVersion : String) (answers : List HttpAnswer) :
    Connection → Prop
  | reading : Agrees beastVersion answers .reading
  | waiting (id : ℕ) (req : HttpRequest)
      (unanswered : some id ∉ answers.map HttpAnswer.request) :
      Agrees beastVersion answers (.waiting id req)
  | writing (id : ℕ) (req : HttpRequest) (answer : HttpAnswer) (called : answer ∈ answers)
      (own : answer.request = some id) :
      Agrees beastVersion answers (.writing id req (makeResponse beastVersion req answer))
  | failed : Agrees beastVersion answers .failed
  | done (id : ℕ) (req : HttpRequest) (answer : HttpAnswer) (called : answer ∈ answers)
      (own : answer.request = some id) :
      Agrees beastVersion answers (.done id req (makeResponse beastVersion req answer))

theorem Connection.id_resume (connection : Connection) (answer : HttpAnswer) :
    (connection.resume beastVersion answer).id = connection.id := by
  unfold Connection.resume
  split
  · split <;> rfl
  · rfl

theorem Connection.id_resumes (calls : List HttpAnswer) (connection : Connection) :
    (calls.foldl (Connection.resume beastVersion) connection).id = connection.id := by
  induction calls generalizing connection with
  | nil => rfl
  | cons answer rest inductionHypothesis =>
    rw [List.foldl_cons, inductionHypothesis, Connection.id_resume]

theorem Connection.Agrees.resume {answers : List HttpAnswer} {connection : Connection}
    (agrees : connection.Agrees beastVersion answers) (answer : HttpAnswer) :
    (connection.resume beastVersion answer).Agrees beastVersion (answers ++ [answer]) := by
  cases agrees with
  | reading => exact .reading
  | failed => exact .failed
  | writing id req before called own =>
    exact .writing id req before (List.mem_append_left _ called) own
  | done id req before called own =>
    exact .done id req before (List.mem_append_left _ called) own
  | waiting id req unanswered =>
    unfold Connection.resume
    split
    · next id' req' same =>
      obtain ⟨rfl, rfl⟩ := Connection.waiting.inj same
      split
      · next own =>
        exact .writing id req answer (List.mem_append_right _ (List.mem_singleton_self _)) own
      · next other =>
        refine .waiting id req ?_
        rw [List.map_append, List.mem_append, not_or]
        exact ⟨unanswered, fun own => other (List.mem_singleton.mp own).symm⟩
    · next notWaiting => exact absurd rfl (notWaiting id req)

theorem Connection.Agrees.resumes {answers : List HttpAnswer} {connection : Connection}
    (agrees : connection.Agrees beastVersion answers) (calls : List HttpAnswer) :
    (calls.foldl (Connection.resume beastVersion) connection).Agrees beastVersion
      (answers ++ calls) := by
  induction calls generalizing answers connection with
  | nil =>
    rw [List.append_nil]
    exact agrees
  | cons answer rest inductionHypothesis =>
    rw [List.foldl_cons, List.append_cons]
    exact inductionHypothesis (agrees.resume answer)

/-! ### The invariant -/

/-- The numbers of the callbacks the connections have handed over. -/
def HttpServer.ids (server : HttpServer) : List ℕ := server.connections.filterMap Connection.id

/-- Every request belongs to one connection, and the connections agree with the calls. -/
structure Service.Sound (beastVersion : String) (service : Service) : Prop where
  matched : service.system.Matched
  ids : service.server.ids.Perm (List.range service.system.requests)
  agrees : ∀ connection ∈ service.server.connections,
    connection.Agrees beastVersion service.system.mgmt.answers

theorem Service.sound_init (workingDir : String) :
    (Service.init workingDir).Sound beastVersion where
  matched := System.matched_init workingDir
  ids := List.Perm.refl _
  agrees _ member := absurd member List.not_mem_nil

theorem HttpServer.ids_resume (server : HttpServer) (before after : System) :
    (server.resume beastVersion before after).ids = server.ids := by
  unfold HttpServer.resume HttpServer.ids
  rw [List.filterMap_map]
  exact congrArg (List.filterMap · server.connections)
    (funext fun connection => Connection.id_resumes _ connection)

/-- A step of the system resumes the connections whose callbacks it calls. -/
theorem HttpServer.agrees_resume {server : HttpServer} {before after : System}
    {label : SystemLabel} (step : SystemStep mgmtEnv before label after)
    (agrees : ∀ connection ∈ server.connections,
      connection.Agrees beastVersion before.mgmt.answers) :
    ∀ connection ∈ (server.resume beastVersion before after).connections,
      connection.Agrees beastVersion after.mgmt.answers := by
  obtain ⟨calls, grew⟩ := answers_grow step
  intro connection member
  obtain ⟨old, among, rfl⟩ := List.mem_map.mp member
  rw [grew, List.drop_left]
  exact (agrees old among).resumes calls

/-- The numbers after one connection has moved on. -/
theorem filterMap_set {Item Other : Type} (select : Item → Option Other) {items : List Item}
    {pos : ℕ} {before : Item} (found : items[pos]? = some before) (after : Item) :
    ∃ front back, items.filterMap select = front ++ (select before).toList ++ back ∧
      (items.set pos after).filterMap select = front ++ (select after).toList ++ back := by
  obtain ⟨bound, rfl⟩ := List.getElem?_eq_some_iff.mp found
  have each (item : Item) (rest : List Item) :
      (item :: rest).filterMap select = (select item).toList ++ rest.filterMap select := by
    rw [List.filterMap_cons]
    cases select item <;> rfl
  refine ⟨(items.take pos).filterMap select, (items.drop (pos + 1)).filterMap select, ?_, ?_⟩
  · conv_lhs => rw [← List.take_append_drop pos items, List.drop_eq_getElem_cons bound]
    rw [List.filterMap_append, each, List.append_assoc]
  · rw [List.set_eq_take_append_cons_drop, if_pos bound, List.filterMap_append, each,
      List.append_assoc]

section Steps

variable {service next : Service}

/-- Replacing a connection by one with the same number. -/
theorem Service.Sound.replace {pos : ℕ} {before after : Connection} {errors : List String}
    (sound : service.Sound beastVersion)
    (found : service.server.connections[pos]? = some before) (same : after.id = before.id)
    (agrees : after.Agrees beastVersion service.system.mgmt.answers) :
    Service.Sound beastVersion { service with
      server := { connections := service.server.connections.set pos after, errors } } where
  matched := sound.matched
  ids := by
    obtain ⟨front, back, old, new⟩ := filterMap_set Connection.id found after
    show (List.filterMap Connection.id (service.server.connections.set pos after)).Perm _
    rw [new, same, ← old]
    exact sound.ids
  agrees connection member := by
    rcases List.mem_or_eq_of_mem_set member with among | rfl
    · exact sound.agrees connection among
    · exact agrees

/-- A request read from a connection. -/
theorem Service.Sound.request {pos : ℕ} {req : HttpRequest} {system : System}
    (sound : service.Sound beastVersion)
    (found : service.server.connections[pos]? = some .reading)
    (step : (systemMachine env mgmtEnv).step service.system (.http req.target req.body) =
      some system) :
    Service.Sound beastVersion {
      system
      server := HttpServer.resume beastVersion { service.server with
        connections := service.server.connections.set pos
          (.waiting service.system.requests req) } service.system system } := by
  obtain ⟨spec, -⟩ := systemStep_spec sound.matched.gen step
  refine { matched := sound.matched.step step, ids := ?_, agrees := ?_ }
  · obtain ⟨front, back, old, new⟩ := filterMap_set Connection.id found
      (.waiting service.system.requests req)
    rw [HttpServer.ids_resume, requests_http spec, List.range_succ]
    show (List.filterMap Connection.id (service.server.connections.set pos _)).Perm _
    rw [new]
    have before := sound.ids
    rw [HttpServer.ids, old] at before
    refine List.Perm.trans ?_ (before.append_right _)
    show (front ++ [service.system.requests] ++ back).Perm (front ++ [] ++ back ++ _)
    rw [List.append_nil, List.append_assoc, List.append_assoc]
    exact List.perm_append_comm.append_left _
  · refine HttpServer.agrees_resume spec fun connection member => ?_
    rcases List.mem_or_eq_of_mem_set member with among | rfl
    · exact sound.agrees connection among
    · exact .waiting _ req fun answered => Nat.lt_irrefl _ (sound.matched.answered_lt answered)

theorem Service.Sound.poll {label : ServiceLabel} (sound : service.Sound beastVersion)
    (step : service.poll env mgmtEnv beastVersion label = some next) :
    next.Sound beastVersion := by
  unfold Service.poll at step
  split at step
  · obtain rfl := Option.some.inj step
    refine { sound with ids := ?_, agrees := fun connection member => ?_ }
    · show (List.filterMap Connection.id (service.server.connections ++ [.reading])).Perm _
      rw [List.filterMap_append]
      exact List.append_nil _ ▸ sound.ids
    · rcases List.mem_append.mp member with among | new
      · exact sound.agrees connection among
      · rw [List.mem_singleton.mp new]
        exact .reading
  · obtain rfl := Option.some.inj step
    exact ⟨sound.matched, sound.ids, sound.agrees⟩
  · next pos req =>
    split at step
    · next found =>
      obtain rfl := Option.some.inj step
      exact sound.replace found rfl .failed
    · next req found =>
      obtain ⟨system, moved, rfl⟩ := Option.map_eq_some_iff.mp step
      exact sound.request found moved
    · exact absurd step (by simp)
  · next pos ok =>
    split at step
    · next id req response found =>
      obtain rfl := Option.some.inj step
      refine sound.replace found rfl ?_
      cases sound.agrees _ (List.mem_of_getElem? found) with
      | writing id req answer called own => exact .done id req answer called own
    · exact absurd step (by simp)
  · exact absurd step (by simp)

theorem Service.Sound.step {label : ServiceLabel} (sound : service.Sound beastVersion)
    (step : (serviceMachine env mgmtEnv beastVersion).step service label = some next) :
    next.Sound beastVersion := by
  simp only [serviceMachine, Service.step] at step
  split at step
  · exact absurd step (by simp)
  · next label noHttp =>
    obtain ⟨system, moved, rfl⟩ := Option.map_eq_some_iff.mp step
    obtain ⟨spec, -⟩ := systemStep_spec sound.matched.gen moved
    refine {
      matched := sound.matched.step moved
      ids := ?_
      agrees := HttpServer.agrees_resume spec sound.agrees }
    rw [HttpServer.ids_resume]
    rcases requests_step spec with ⟨⟨target, req, rfl⟩, -⟩ | same
    · exact absurd rfl (noHttp target req)
    · show service.server.ids.Perm (List.range system.requests)
      rw [same]
      exact sound.ids
  · split at step
    · exact absurd step (by simp)
    · split at step
      · exact sound.poll step
      · exact absurd step (by simp)

end Steps

theorem Service.sound_of_run {workingDir : String} {labels : List ServiceLabel}
    {service : Service} (run : (serviceMachine env mgmtEnv beastVersion).run
      (Service.init workingDir) labels = some service) : service.Sound beastVersion :=
  (serviceMachine env mgmtEnv beastVersion).run_invariant (Service.Sound beastVersion)
    (fun _ _ _ sound step => sound.step step) (Service.sound_init workingDir) run

/-! ### What the clients see -/

/-- The number of the callback a connection waits for. -/
def Connection.waitsFor : Connection → Option ℕ
  | .waiting id _ => some id
  | _ => none

/-- The request a connection has read and the response it has for it. -/
def Connection.responds : Connection → Option (ℕ × HttpRequest × HttpResponse)
  | .writing id req response | .done id req response => some (id, req, response)
  | _ => none

theorem HttpServer.waits_sublist (server : HttpServer) :
    (server.connections.filterMap Connection.waitsFor).Sublist server.ids := by
  unfold HttpServer.ids
  induction server.connections with
  | nil => exact List.Sublist.refl _
  | cons connection rest inductionHypothesis =>
    rw [List.filterMap_cons, List.filterMap_cons]
    cases connection with
    | waiting id req => exact inductionHypothesis.cons_cons id
    | writing id req response | done id req response => exact inductionHypothesis.cons id
    | reading | failed => exact inductionHypothesis

theorem MgmtManager.pending_length (manager : MgmtManager) : manager.pending.length ≤ 3 := by
  have start := manager.awaited_length .start
  have stop := manager.awaited_length .stop
  have stats := manager.awaited_length .stats
  simp only [MgmtManager.pending, List.length_append]
  omega

theorem MgmtManager.mem_pending {manager : MgmtManager} {id : ℕ} :
    some id ∈ manager.pending ↔ ∃ kind, manager.cb kind = some id := by
  have awaited (kind : ReqKind) : some id ∈ manager.awaited kind ↔ manager.cb kind = some id := by
    rw [MgmtManager.awaited]
    cases manager.cb kind <;> simp [eq_comm]
  simp only [MgmtManager.pending, List.mem_append, awaited]
  constructor
  · rintro (start | stop | stats)
    · exact ⟨.start, start⟩
    · exact ⟨.stop, stop⟩
    · exact ⟨.stats, stats⟩
  · rintro ⟨kind, kept⟩
    cases kind with
    | start => exact .inl kept
    | stop => exact .inr (.inl kept)
    | stats => exact .inr (.inr kept)

section Clients

variable {service : Service} (sound : service.Sound beastVersion)

include sound

theorem Service.Sound.callbacks_nodup : service.system.mgmt.callbacks.Nodup :=
  sound.matched.callbacks.nodup_iff.mpr
    ((List.nodup_map_iff fun _ _ => Option.some.inj).mpr List.nodup_range)

theorem Service.Sound.ids_nodup : service.server.ids.Nodup :=
  sound.ids.nodup_iff.mpr List.nodup_range

/-- The management keeps the callbacks of the connections that wait, and no others. -/
theorem Service.Sound.kept_iff (id : ℕ) : (∃ kind, service.system.mgmt.cb kind = some id) ↔
    ∃ req, .waiting id req ∈ service.server.connections := by
  rw [← MgmtManager.mem_pending]
  constructor
  · intro kept
    have disjoint := (List.nodup_append'.mp sound.callbacks_nodup).2.2
    have below : id ∈ List.range service.system.requests := by
      obtain ⟨other, below, same⟩ := List.mem_map.mp
        (sound.matched.callbacks.mem_iff.mp (List.mem_append_right _ kept))
      rwa [Option.some.inj same] at below
    obtain ⟨connection, among, own⟩ :=
      List.mem_filterMap.mp (sound.ids.mem_iff.mpr below)
    -- a connection that responds was answered, and then its callback is not kept
    have answered : ∀ answer ∈ service.system.mgmt.answers, answer.request = some id → False :=
      fun answer called request =>
        disjoint (List.mem_map.mpr ⟨answer, called, request⟩) kept
    cases sound.agrees connection among with
    | waiting other req => exact ⟨req, Option.some.inj own ▸ among⟩
    | writing other req answer called request | done other req answer called request =>
      exact absurd (Option.some.inj own ▸ request) (answered answer called)
    | reading | failed => exact absurd own (by simp [Connection.id])
  · rintro ⟨req, among⟩
    have below : id ∈ List.range service.system.requests :=
      sound.ids.mem_iff.mp (List.mem_filterMap.mpr ⟨_, among, rfl⟩)
    have known := sound.matched.callbacks.mem_iff.mpr (List.mem_map_of_mem (f := some) below)
    cases sound.agrees _ among with
    | waiting _ _ unanswered => exact (List.mem_append.mp known).resolve_left unanswered

theorem Service.Sound.waits_length :
    (service.server.connections.filterMap Connection.waitsFor).length ≤ 3 := by
  refine Nat.le_trans ?_ service.system.mgmt.pending_length
  rw [← List.length_map (f := some)]
  refine List.Subperm.length_le (List.subperm_of_subset ?_ fun request member => ?_)
  · exact (List.nodup_map_iff fun _ _ => Option.some.inj).mpr
      (service.server.waits_sublist.nodup sound.ids_nodup)
  · obtain ⟨id, waits, rfl⟩ := List.mem_map.mp member
    obtain ⟨connection, among, same⟩ := List.mem_filterMap.mp waits
    refine MgmtManager.mem_pending.mpr ((sound.kept_iff id).mpr ?_)
    cases connection with
    | waiting other req => exact ⟨req, Option.some.inj same ▸ among⟩
    | reading | writing | failed | done => exact absurd same (by simp [Connection.waitsFor])

end Clients

/-- Every request read from a connection is that connection's own for good. The callbacks the
management keeps are those of the connections that wait, so at most three ever wait, and a
connection that does not wait any more writes the response made of the one answer its own request
was given. -/
theorem connections_answered (env : Env) (mgmtEnv : MgmtEnv) (beastVersion workingDir : String)
    {labels : List ServiceLabel} {service : Service}
    (run : (serviceMachine env mgmtEnv beastVersion).run (Service.init workingDir) labels =
      some service) :
    service.server.ids.Perm (List.range service.system.requests) ∧
    (∀ id, (∃ kind, service.system.mgmt.cb kind = some id) ↔
      ∃ req, .waiting id req ∈ service.server.connections) ∧
    (service.server.connections.filterMap Connection.waitsFor).length ≤ 3 ∧
    (service.system.mgmt.answers.map HttpAnswer.request).Nodup ∧
    ∀ connection ∈ service.server.connections, ∀ id req response,
      connection.responds = some (id, req, response) →
      ∃ answer ∈ service.system.mgmt.answers, answer.request = some id ∧
        response = makeResponse beastVersion req answer := by
  have sound := Service.sound_of_run run
  refine ⟨sound.ids, sound.kept_iff, sound.waits_length,
    (List.nodup_append'.mp sound.callbacks_nodup).1, ?_⟩
  intro connection among id req response responds
  cases sound.agrees connection among with
  | writing id' req' answer called own | done id' req' answer called own =>
    obtain ⟨rfl, same⟩ := Prod.mk.inj (Option.some.inj responds)
    obtain ⟨rfl, rfl⟩ := Prod.mk.inj same
    exact ⟨answer, called, own, rfl⟩
  | reading | waiting | failed => exact absurd responds (by simp [Connection.responds])

/-- Two clients ask for the statistics at the same time, one of them is refused; a third one
breaks off. -/
def threeClients : List ServiceLabel :=
  [.accept true, .accept true, .accept false, .accept true,
    .read 1 (some ⟨"/get_stats", "", 11⟩), .read 0 (some ⟨"/get_stats", "", 10⟩), .read 2 none,
    .written 0 true]

theorem connections_answered_threeClients : ∃ service,
    (serviceMachine (sampleEnv samplePool) sampleMgmt "Beast").run (Service.init "") threeClients =
      some service ∧
    service.server.errors = ["accept failed", "receive failed"] ∧
    (service.server.connections.filterMap Connection.waitsFor).length ≤ 3 ∧
    (∃ req, .waiting 0 req ∈ service.server.connections) := by
  have runs : ((serviceMachine (sampleEnv samplePool) sampleMgmt "Beast").run (Service.init "")
      threeClients).map (fun service => (service.server.errors, service.system.mgmt.statsCb)) =
        some (["accept failed", "receive failed"], some 0) := by
    decide +kernel
  obtain ⟨service, run, same⟩ := Option.map_eq_some_iff.mp runs
  obtain ⟨errors, kept⟩ := Prod.mk.inj same
  obtain ⟨-, waiting, few, -⟩ :=
    connections_answered (sampleEnv samplePool) sampleMgmt "Beast" "" run
  exact ⟨service, run, errors, few, (waiting 0).mp ⟨.stats, kept⟩⟩

end TrafficGenerator
