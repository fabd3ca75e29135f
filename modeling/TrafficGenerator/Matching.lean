/-
This file matches the responses of the generator with the requests of the
management. A request in flight is a message somewhere between the two managers:
in a queue, or taken off it and not handled yet. Of every kind at most one is in
flight, and it carries the callback that is pending for it.
-/

import TrafficGenerator.SystemSteps

namespace TrafficGenerator

variable {env : Env} {mgmtEnv : MgmtEnv}

/-! ### What is in flight -/

/-- The HTTP requests that some of the messages serve. -/
def servedBy {Msg : Type} (select : Msg → Bool) (msgs : List (Tagged Msg)) : List (Option ℕ) :=
  (msgs.filter fun msg => select msg.msg).map Tagged.request

theorem servedBy_append {Msg : Type} (select : Msg → Bool) (msgs more : List (Tagged Msg)) :
    servedBy select (msgs ++ more) = servedBy select msgs ++ servedBy select more := by
  rw [servedBy, List.filter_append, List.map_append]
  rfl

theorem servedBy_cons {Msg : Type} (select : Msg → Bool) (msg : Tagged Msg)
    (rest : List (Tagged Msg)) :
    servedBy select (msg :: rest) =
      if select msg.msg then msg.request :: servedBy select rest else servedBy select rest := by
  rw [servedBy, List.filter_cons]
  split <;> rfl

theorem servedBy_nil {Msg : Type} (select : Msg → Bool) :
    servedBy select ([] : List (Tagged Msg)) = [] := rfl

/-- The requests of a kind that the generator has not handled. -/
def System.requestsOf (system : System) (kind : ReqKind) : List (Option ℕ) :=
  servedBy (fun msg => msg.kind = kind) (system.gen.batch ++ system.reqQueue)

/-- The responses of a kind that the management has not handled. -/
def System.responsesOf (system : System) (kind : ReqKind) : List (Option ℕ) :=
  servedBy (fun msg => msg.kind = some kind) (system.mgmtBatch ++ system.resQueue)

/-- The messages of a kind in flight. -/
def System.inFlight (system : System) (kind : ReqKind) : List (Option ℕ) :=
  system.requestsOf kind ++ system.responsesOf kind

/-- The callback of a kind that is pending, as a list of at most one. -/
def MgmtManager.awaited (manager : MgmtManager) (kind : ReqKind) : List (Option ℕ) :=
  (manager.cb kind).toList.map some

theorem MgmtManager.awaited_length (manager : MgmtManager) (kind : ReqKind) :
    (manager.awaited kind).length ≤ 1 := by
  rw [awaited, List.length_map]
  cases manager.cb kind <;> simp

theorem MgmtManager.mem_awaited {manager : MgmtManager} {kind : ReqKind} {request : Option ℕ}
    (member : request ∈ manager.awaited kind) :
    ∃ id, manager.cb kind = some id ∧ request = some id := by
  obtain ⟨id, among, rfl⟩ := List.mem_map.mp member
  exact ⟨id, Option.mem_toList.mp among, rfl⟩

theorem MgmtManager.awaited_none {manager : MgmtManager} {kind : ReqKind}
    (idle : manager.cb kind = none) : manager.awaited kind = [] := by
  rw [awaited, idle]
  rfl

theorem offer_eq (queue : ResQueue) (msg : Tagged ResMsg) :
    offer queue msg = if queue.length < resCapacity then queue ++ [msg] else queue := by
  rw [offer, BoundedFifo.push, List.length_singleton]
  by_cases room : queue.length < resCapacity
  · rw [if_pos room, if_pos (show queue.length + 1 ≤ resCapacity from room)]
    rfl
  · rw [if_neg room, if_neg (show ¬ queue.length + 1 ≤ resCapacity from room)]
    rfl

/-! ### One step and one kind -/

/-- What a step does to the messages of one kind: one is sent, one is answered, one is lost
because the queue is full, or none of these. -/
inductive KindStep (kind : ReqKind) : System → SystemLabel → System → Prop
  | sent {system next : System} {label : SystemLabel} (id : ℕ)
      (free : system.mgmt.cb kind = none) (stored : next.mgmt.cb kind = some id)
      (flight : (next.inFlight kind).Perm (some id :: system.inFlight kind)) :
      KindStep kind system label next
  | answered {system next : System} {label : SystemLabel} (request : Option ℕ)
      (cleared : next.mgmt.cb kind = none)
      (called : ∃ status body, next.mgmt.answers =
        system.mgmt.answers ++ [{ request := system.mgmt.cb kind, status, body }])
      (flight : (system.inFlight kind).Perm (request :: next.inFlight kind)) :
      KindStep kind system label next
  | lost {system next : System} (input : StartIn) (request : Option ℕ)
      (full : ¬ system.resQueue.length < resCapacity)
      (same : next.mgmt.cb kind = system.mgmt.cb kind)
      (flight : (system.inFlight kind).Perm (request :: next.inFlight kind)) :
      KindStep kind system (.gen (.handle input)) next
  | kept {system next : System} {label : SystemLabel}
      (same : next.mgmt.cb kind = system.mgmt.cb kind)
      (flight : (next.inFlight kind).Perm (system.inFlight kind)) :
      KindStep kind system label next

/-- An HTTP request adds a message of its kind, if it adds one. -/
theorem kindStep_http {system : System} {target req : String} {next : MgmtManager × ReqQueue}
    (requested : Requested system.requests system.mgmt system.reqQueue next) (kind : ReqKind) :
    KindStep kind system (.http target req)
      { system with mgmt := next.1, reqQueue := next.2, requests := system.requests + 1 } := by
  cases requested with
  | enqueued msg free room =>
    let after : System := { system with
      mgmt := system.mgmt.setCb (some system.requests) msg.kind
      reqQueue := system.reqQueue ++ [⟨some system.requests, msg⟩]
      requests := system.requests + 1 }
    have flight : after.inFlight kind = system.requestsOf kind ++
        servedBy (fun msg => msg.kind = kind) [⟨some system.requests, msg⟩] ++
          system.responsesOf kind := by
      rw [System.inFlight, System.requestsOf, ← List.append_assoc, servedBy_append _ (_ ++ _)]
      rfl
    rw [servedBy_cons, servedBy_nil] at flight
    by_cases same : msg.kind = kind
    · subst same
      refine .sent system.requests free (by simp) ?_
      rw [if_pos (decide_eq_true rfl), List.append_assoc] at flight
      exact flight ▸ List.perm_middle
    · refine .kept (by simp [Ne.symm same]) ?_
      rw [if_neg (by simpa using same), List.append_nil] at flight
      exact flight ▸ List.Perm.refl _
  | full msg free noRoom => exact .kept (by simp) (List.Perm.refl _)
  | answered status body served => exact .kept (by simp) (List.Perm.refl _)

/-- The messages the management takes off its queue stay in flight until they are handled. -/
theorem kindStep_mgmtHandle {system : System} {msg : Tagged ResMsg} {rest : List (Tagged ResMsg)}
    (batch : system.mgmtBatch = msg :: rest) (kind : ReqKind) :
    KindStep kind system .mgmtHandle
      { system with mgmt := onResMsg mgmtEnv system.mgmt msg.msg, mgmtBatch := rest } := by
  have flight : system.inFlight kind = system.requestsOf kind ++
      servedBy (fun msg => msg.kind = some kind) (msg :: (rest ++ system.resQueue)) := by
    rw [System.inFlight, System.responsesOf, batch]
    rfl
  rw [servedBy_cons] at flight
  cases response : msg.msg.kind with
  | none =>
    rw [onResMsg_report mgmtEnv system.mgmt response]
    rw [if_neg (by simp [response])] at flight
    exact .kept rfl (flight ▸ List.Perm.refl _)
  | some answered =>
    obtain ⟨status, body, -, result⟩ := onResMsg_response mgmtEnv system.mgmt response
    rw [result]
    by_cases same : answered = kind
    · subst same
      rw [if_pos (by simp [response])] at flight
      refine .answered msg.request (by simp [respond_cb])
        ⟨status, body, respond_answers mgmtEnv answered status body system.mgmt⟩ ?_
      rw [flight]
      exact List.perm_middle
    · rw [if_neg (by simpa [response] using same)] at flight
      refine .kept (by simp [respond_cb, Ne.symm same]) ?_
      rw [flight]
      exact List.Perm.refl _

/-- The messages in flight when the generator is about to handle a request. -/
theorem inFlight_handling {system : System} {msg : Tagged ReqMsg} {rest : List (Tagged ReqMsg)}
    (before : system.gen.batch = msg :: rest) (kind : ReqKind) :
    system.inFlight kind = (if msg.msg.kind = kind then [msg.request] else []) ++
      (servedBy (fun msg => msg.kind = kind) (rest ++ system.reqQueue) ++
        system.responsesOf kind) := by
  rw [System.inFlight, System.requestsOf, before, List.cons_append, servedBy_cons]
  by_cases same : msg.msg.kind = kind
  · rw [if_pos (by simpa using same), if_pos same]
    rfl
  · rw [if_neg (by simpa using same), if_neg same]
    rfl

/-- The messages in flight once it has, with what the queue holds then. -/
theorem inFlight_handled (system : System) {rest : List (Tagged ReqMsg)} {gen : GenState}
    (after : gen.batch = rest) (queue : ResQueue) (kind : ReqKind) :
    System.inFlight { system with gen, resQueue := queue } kind =
      servedBy (fun msg => msg.kind = kind) (rest ++ system.reqQueue) ++
        servedBy (fun msg => msg.kind = some kind) (system.mgmtBatch ++ queue) := by
  rw [System.inFlight, System.requestsOf, System.responsesOf, after]

/-- A request handled becomes a response of its kind, or is lost. -/
theorem kindStep_genHandle {system : System} {input : StartIn} {msg : Tagged ReqMsg}
    {rest : List (Tagged ReqMsg)} {gen : GenState} {res : ResMsg}
    (before : system.gen.batch = msg :: rest) (after : gen.batch = rest)
    (answers : res.kind = some msg.msg.kind) (kind : ReqKind) :
    KindStep kind system (.gen (.handle input))
      { system with gen, resQueue := offer system.resQueue ⟨msg.request, res⟩ } := by
  have flight := inFlight_handling before kind
  rw [offer_eq]
  by_cases same : msg.msg.kind = kind
  · rw [if_pos same] at flight
    by_cases room : system.resQueue.length < resCapacity
    · refine .kept rfl ?_
      rw [if_pos room, inFlight_handled system after, flight, ← List.append_assoc,
        servedBy_append _ (_ ++ _), servedBy_cons, if_pos (by simpa [answers] using same),
        ← List.append_assoc]
      exact List.perm_append_singleton _ _
    · refine .lost input msg.request room rfl ?_
      rw [if_neg room, inFlight_handled system after, flight]
      exact List.Perm.refl _
  · rw [if_neg same] at flight
    refine .kept rfl ?_
    rw [inFlight_handled system after, flight]
    split
    · rw [← List.append_assoc, servedBy_append _ (_ ++ _), servedBy_cons,
        if_neg (by simpa [answers] using same), servedBy_nil, List.append_nil]
      exact List.Perm.refl _
    · exact List.Perm.refl _

/-- Every step of the system. -/
theorem kindStep_of_systemStep {system next : System} {label : SystemLabel}
    (step : SystemStep mgmtEnv system label next) (kind : ReqKind) :
    KindStep kind system label next := by
  cases step with
  | http target req next requested => exact kindStep_http requested kind
  | mgmtDequeue count taken rest idle queue =>
    refine .kept rfl (List.Perm.of_eq ?_)
    rw [System.inFlight, System.inFlight, System.responsesOf, System.responsesOf, idle, queue]
    rfl
  | mgmtHandle msg rest batch => exact kindStep_mgmtHandle batch kind
  | genDequeue count taken rest gen queue before after =>
    refine .kept rfl (List.Perm.of_eq ?_)
    rw [System.inFlight, System.inFlight, System.requestsOf, System.requestsOf, before, after,
      queue]
    rfl
  | genHandle input msg rest gen res before after answers =>
    exact kindStep_genHandle before after answers kind
  | genReport pos flow event gen request report same =>
    refine .kept rfl (List.Perm.of_eq ?_)
    rw [System.inFlight, System.inFlight, System.requestsOf, System.requestsOf, same,
      System.responsesOf, System.responsesOf, offer_eq]
    split
    · rw [← List.append_assoc, servedBy_append _ (_ ++ _), servedBy_cons,
        if_neg (by simp [ResMsg.kind]), servedBy_nil, List.append_nil]
    · rfl
  | genQuiet label gen noHandle same =>
    refine .kept rfl (List.Perm.of_eq ?_)
    rw [System.inFlight, System.inFlight, System.requestsOf, System.requestsOf, same]
    rfl

/-! ### The callbacks -/

/-- The callbacks that are pending. -/
def MgmtManager.pending (manager : MgmtManager) : List (Option ℕ) :=
  manager.awaited .start ++ (manager.awaited .stop ++ manager.awaited .stats)

/-- Storing or clearing a callback leaves the others pending. -/
theorem pending_setCb (manager : MgmtManager) (kind : ReqKind) :
    ∃ others, manager.pending.Perm (manager.awaited kind ++ others) ∧
      ∀ cb, (manager.setCb cb kind).pending.Perm (cb.toList.map some ++ others) := by
  cases kind with
  | start =>
    exact ⟨manager.awaited .stop ++ manager.awaited .stats, List.Perm.refl _,
      fun _ => List.Perm.refl _⟩
  | stop =>
    exact ⟨manager.awaited .start ++ manager.awaited .stats, List.perm_append_comm_assoc _ _ _,
      fun _ => List.perm_append_comm_assoc _ _ _⟩
  | stats =>
    refine ⟨manager.awaited .start ++ manager.awaited .stop, ?_, fun cb => ?_⟩
    · rw [MgmtManager.pending, ← List.append_assoc]
      exact List.perm_append_comm
    · rw [MgmtManager.pending, ← List.append_assoc]
      exact List.perm_append_comm

/-- The callbacks called so far, in order, and those pending. -/
def MgmtManager.callbacks (manager : MgmtManager) : List (Option ℕ) :=
  manager.answers.map HttpAnswer.request ++ manager.pending

/-- An HTTP request brings in one more callback. -/
theorem Requested.callbacks {cb : ℕ} {manager : MgmtManager} {queue : ReqQueue}
    {next : MgmtManager × ReqQueue} (requested : Requested cb manager queue next) :
    next.1.callbacks.Perm (manager.callbacks ++ [some cb]) := by
  have answered : ∀ status body, (manager.answer (some cb) status body).callbacks.Perm
      (manager.callbacks ++ [some cb]) := by
    intro status body
    show ((manager.answers ++ [_]).map HttpAnswer.request ++ manager.pending).Perm _
    rw [List.map_append, MgmtManager.callbacks, List.append_assoc, List.append_assoc]
    exact List.perm_append_comm.append_left _
  cases requested with
  | enqueued msg free room =>
    obtain ⟨others, before, after⟩ := pending_setCb manager msg.kind
    rw [MgmtManager.awaited_none free] at before
    rw [MgmtManager.callbacks, MgmtManager.callbacks, setCb_answers, List.append_assoc]
    refine List.Perm.append_left _ ((after (some cb)).trans ?_)
    exact List.perm_append_comm.trans (before.symm.append_right _)
  | full => exact answered _ _
  | answered status body served => exact answered status body

/-- A response calls the callback that is pending. -/
theorem respond_callbacks (kind : ReqKind) (status : HttpStatus) (body : String)
    {manager : MgmtManager} {id : ℕ} (pending : manager.cb kind = some id) :
    (respond mgmtEnv kind status body manager).callbacks.Perm manager.callbacks := by
  let middle := MgmtManager.answer { manager with
    aborted := manager.aborted || mgmtEnv.enforce (manager.cb kind).isSome }
    (manager.cb kind) status body
  have awaited : middle.awaited kind = [some id] := by
    rw [MgmtManager.awaited, show middle.cb kind = manager.cb kind from cb_answer _ _ _ _ kind,
      pending]
    rfl
  obtain ⟨others, before, after⟩ := pending_setCb middle kind
  rw [awaited] at before
  rw [MgmtManager.callbacks, MgmtManager.callbacks, respond_answers, List.map_append,
    List.append_assoc, pending]
  exact List.Perm.append_left _ (((after none).append_left _).trans before.symm)

/-! ### The invariant -/

/-- Of every kind at most one message is in flight, and it serves the pending request; every
HTTP request so far was answered once or is pending; and no request was refused because the
queue was full. -/
structure System.Matched (system : System) : Prop where
  gen : system.gen.Sound
  inFlight : ∀ kind, (system.inFlight kind).Sublist (system.mgmt.awaited kind)
  callbacks : system.mgmt.callbacks.Perm ((List.range system.requests).map some)
  served : ∀ answer ∈ system.mgmt.answers, answer.status ≠ .internalServerError

theorem System.Matched.flight_length {system : System} (matched : system.Matched)
    (kind : ReqKind) : (system.inFlight kind).length ≤ 1 :=
  Nat.le_trans (matched.inFlight kind).length_le (system.mgmt.awaited_length kind)

/-- A response taken off the queue finds the callback of the request it answers. -/
theorem System.Matched.response {system : System} (matched : system.Matched)
    {msg : Tagged ResMsg} {rest : List (Tagged ResMsg)} {kind : ReqKind}
    (batch : system.mgmtBatch = msg :: rest) (response : msg.msg.kind = some kind) :
    ∃ id, system.mgmt.cb kind = some id ∧ msg.request = some id := by
  refine MgmtManager.mem_awaited ((matched.inFlight kind).subset ?_)
  rw [System.inFlight, System.responsesOf, batch, List.cons_append, servedBy_cons,
    if_pos (by simpa using response)]
  exact List.mem_append_right _ List.mem_cons_self

/-- The queue of the requests holds one message of every kind at most. -/
theorem length_servedBy (msgs : List (Tagged ReqMsg)) :
    msgs.length = (servedBy (fun msg => msg.kind = .start) msgs).length +
      (servedBy (fun msg => msg.kind = .stop) msgs).length +
      (servedBy (fun msg => msg.kind = .stats) msgs).length := by
  induction msgs with
  | nil => rfl
  | cons msg rest inductionHypothesis =>
    rw [servedBy_cons, servedBy_cons, servedBy_cons, List.length_cons, inductionHypothesis]
    cases msg.msg <;> simp only [ReqMsg.kind, reduceCtorEq, decide_true, decide_false, if_true,
      Bool.false_eq_true, if_false, List.length_cons] <;> omega

theorem System.Matched.requests_length {system : System} (matched : system.Matched) :
    (system.gen.batch ++ system.reqQueue).length ≤ 3 := by
  have each : ∀ kind, (system.requestsOf kind).length ≤ 1 := by
    intro kind
    have flight := matched.flight_length kind
    rw [System.inFlight, List.length_append] at flight
    omega
  have start := each .start
  have stop := each .stop
  have stats := each .stats
  rw [length_servedBy]
  simp only [System.requestsOf] at start stop stats
  omega

theorem System.matched_init (workingDir : String) : (System.init workingDir).Matched where
  gen := GenState.sound_init workingDir
  inFlight kind := by cases kind <;> exact List.Sublist.refl _
  callbacks := List.Perm.refl _
  served _ member := absurd member List.not_mem_nil

theorem eq_of_perm_of_length_le {Item : Type} {items others : List Item}
    (perm : items.Perm others) (short : others.length ≤ 1) : items = others := by
  match others, short with
  | [], _ => exact perm.eq_nil
  | [_], _ => exact List.perm_singleton.mp perm

/-- The messages of one kind after a step. -/
theorem System.Matched.kindStep {system next : System} {label : SystemLabel} {kind : ReqKind}
    (matched : system.Matched) (step : KindStep kind system label next) :
    (next.inFlight kind).Sublist (next.mgmt.awaited kind) := by
  have bound := matched.flight_length kind
  cases step with
  | sent id free stored flight =>
    have none := matched.inFlight kind
    rw [MgmtManager.awaited_none free, List.sublist_nil] at none
    rw [none, List.perm_singleton] at flight
    rw [flight, MgmtManager.awaited, stored]
    exact List.Sublist.refl _
  | answered request cleared called flight | lost input request full same flight =>
    rw [flight.length_eq, List.length_cons] at bound
    rw [List.length_eq_zero_iff.mp (Nat.le_zero.mp (Nat.le_of_succ_le_succ bound))]
    exact List.nil_sublist _
  | kept same flight =>
    rw [eq_of_perm_of_length_le flight bound, MgmtManager.awaited, same]
    exact matched.inFlight kind

/-- Every step keeps the requests and the responses matched. -/
theorem System.Matched.step {system next : System} {label : SystemLabel}
    (matched : system.Matched) (step : (systemMachine env mgmtEnv).step system label = some next) :
    next.Matched := by
  obtain ⟨spec, gen⟩ := systemStep_spec matched.gen step
  refine {
    gen := gen
    inFlight := fun kind => matched.kindStep (kindStep_of_systemStep spec kind)
    callbacks := ?_
    served := ?_ }
  · cases spec with
    | http target req next requested =>
      rw [List.range_succ, List.map_append]
      exact requested.callbacks.trans (matched.callbacks.append_right _)
    | mgmtHandle msg rest batch =>
      cases response : msg.msg.kind with
      | none =>
        rw [onResMsg_report mgmtEnv system.mgmt response]
        exact matched.callbacks
      | some kind =>
        obtain ⟨id, pending, -⟩ := matched.response batch response
        obtain ⟨status, body, -, result⟩ := onResMsg_response mgmtEnv system.mgmt response
        rw [result]
        exact (respond_callbacks kind status body pending).trans matched.callbacks
    | mgmtDequeue | genDequeue | genHandle | genReport | genQuiet => exact matched.callbacks
  · cases spec with
    | http target req next requested =>
      cases requested with
      | enqueued msg free room =>
        rw [setCb_answers]
        exact matched.served
      | full msg free noRoom =>
        -- three messages leave room for one more
        have length := matched.requests_length
        rw [List.length_append] at length
        exact absurd (Nat.lt_of_le_of_lt (Nat.le_of_add_left_le length) (by decide)) noRoom
      | answered status body served =>
        intro answer member
        rcases List.mem_append.mp member with before | now
        · exact matched.served answer before
        · rw [List.mem_singleton.mp now]
          exact served
    | mgmtHandle msg rest batch =>
      cases response : msg.msg.kind with
      | none =>
        rw [onResMsg_report mgmtEnv system.mgmt response]
        exact matched.served
      | some kind =>
        obtain ⟨status, body, served, result⟩ := onResMsg_response mgmtEnv system.mgmt response
        rw [result, respond_answers]
        intro answer member
        rcases List.mem_append.mp member with before | now
        · exact matched.served answer before
        · rw [List.mem_singleton.mp now]
          exact served
    | mgmtDequeue | genDequeue | genHandle | genReport | genQuiet => exact matched.served

theorem System.matched_of_run {workingDir : String} {labels : List SystemLabel} {system : System}
    (run : (systemMachine env mgmtEnv).run (System.init workingDir) labels = some system) :
    system.Matched :=
  (systemMachine env mgmtEnv).run_invariant System.Matched (fun _ _ _ matched step =>
    matched.step step) (System.matched_init workingDir) run

/-- The requests and the responses match in every run of the system. Of every kind at most one
message is in flight, and none without a pending callback; a response finds the callback of the
HTTP request it answers; a pending callback stays until it is called; no callback is called
twice, or without a request; and the requests always fit in their queue. -/
theorem requests_matched (env : Env) (mgmtEnv : MgmtEnv) (workingDir : String)
    {labels : List SystemLabel} {system : System}
    (run : (systemMachine env mgmtEnv).run (System.init workingDir) labels = some system) :
    (∀ kind, (system.requestsOf kind).length + (system.responsesOf kind).length ≤ 1 ∧
      (system.mgmt.cb kind = none →
        (system.requestsOf kind).length + (system.responsesOf kind).length = 0)) ∧
    (∀ msg rest kind, system.mgmtBatch = msg :: rest → msg.msg.kind = some kind →
      ∃ id, system.mgmt.cb kind = some id ∧ msg.request = some id) ∧
    (∀ label next, (systemMachine env mgmtEnv).step system label = some next →
      ∀ kind id, system.mgmt.cb kind = some id → next.mgmt.cb kind = some id ∨
        next.mgmt.cb kind = none ∧ ∃ status body,
          next.mgmt.answers = system.mgmt.answers ++ [{ request := some id, status, body }]) ∧
    (system.mgmt.answers.map HttpAnswer.request).Nodup ∧
    (∀ answer ∈ system.mgmt.answers, ∃ id < system.requests, answer.request = some id) ∧
    (system.gen.batch ++ system.reqQueue).length ≤ 3 ∧
    ∀ answer ∈ system.mgmt.answers, answer.status ≠ .internalServerError := by
  have matched := System.matched_of_run run
  have nodup : ((List.range system.requests).map some).Nodup :=
    (List.nodup_map_iff fun _ _ => Option.some.inj).mpr List.nodup_range
  refine ⟨fun kind => ⟨?_, fun idle => ?_⟩, fun msg rest kind => matched.response, ?_, ?_, ?_,
    matched.requests_length, matched.served⟩
  · rw [← List.length_append]
    exact matched.flight_length kind
  · have none := matched.inFlight kind
    rw [MgmtManager.awaited_none idle, List.sublist_nil] at none
    rw [← List.length_append]
    exact List.length_eq_zero_iff.mpr none
  · intro label next step kind id pending
    cases kindStep_of_systemStep (systemStep_spec matched.gen step).1 kind with
    | sent id' free => exact absurd (free.symm.trans pending) (by simp)
    | answered request cleared called => exact Or.inr ⟨cleared, pending ▸ called⟩
    | lost input request full same => exact Or.inl (same.trans pending)
    | kept same => exact Or.inl (same.trans pending)
  · exact (matched.callbacks.nodup_iff.mpr nodup).of_append_left
  · intro answer member
    have among := matched.callbacks.mem_iff.mp
      (List.mem_append_left _ (List.mem_map_of_mem (f := HttpAnswer.request) member))
    obtain ⟨id, below, same⟩ := List.mem_map.mp among
    exact ⟨id, List.mem_range.mp below, same.symm⟩

/-- A management for which every configuration is the sample one. -/
def sampleMgmt : MgmtEnv where
  enforce _ := false
  hz := 1000000
  parseCfg _ := .ok (sampleCfg [oneFlow])

/-- Three requests are made at once, and two of them handled. -/
def threeRequests : List SystemLabel :=
  [.http "/start_gen" "", .http "/stop_gen" "", .http "/get_stats" "", .genDequeue 3,
    .gen (.handle {}), .gen (.handle {}), .mgmtDequeue 2, .mgmtHandle]

/-- The start has been answered, the response to the stop is about to be handled, the request
for the statistics is on its way. -/
theorem requests_matched_threeRequests : ∃ system,
    (systemMachine (sampleEnv samplePool) sampleMgmt).run (System.init "") threeRequests =
      some system ∧
    system.mgmt.answers.length = 1 ∧
    (system.mgmt.answers.map HttpAnswer.request).Nodup ∧
    (system.requestsOf .stats).length + (system.responsesOf .stats).length ≤ 1 := by
  have runs : ((systemMachine (sampleEnv samplePool) sampleMgmt).run (System.init "")
      threeRequests).map (fun system => system.mgmt.answers.length) = some 1 := by
    decide +kernel
  obtain ⟨system, run, length⟩ := Option.map_eq_some_iff.mp runs
  obtain ⟨flight, -, -, once, -⟩ :=
    requests_matched (sampleEnv samplePool) sampleMgmt "" run
  exact ⟨system, run, length, once, (flight .stats).1⟩

end TrafficGenerator
