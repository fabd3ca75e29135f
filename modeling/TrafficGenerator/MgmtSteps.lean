/-
This file says once what the management manager does with an HTTP request and
with a message of the generator. A request is either answered at once or becomes
a message whose callback is kept; a response calls the callback of its kind and
clears it; a report does nothing.
-/

import TrafficGenerator.MgmtManager

namespace TrafficGenerator

variable {env : MgmtEnv}

/-! ### Callbacks -/

@[simp] theorem cb_setCb (manager : MgmtManager) (cb : Option ℕ) (kind other : ReqKind) :
    (manager.setCb cb kind).cb other = if other = kind then cb else manager.cb other := by
  cases kind <;> cases other <;> rfl

@[simp] theorem setCb_answers (manager : MgmtManager) (cb : Option ℕ) (kind : ReqKind) :
    (manager.setCb cb kind).answers = manager.answers := by
  cases kind <;> rfl

@[simp] theorem setCb_aborted (manager : MgmtManager) (cb : Option ℕ) (kind : ReqKind) :
    (manager.setCb cb kind).aborted = manager.aborted := by
  cases kind <;> rfl

@[simp] theorem cb_answer (manager : MgmtManager) (request : Option ℕ) (status : HttpStatus)
    (body : String) (kind : ReqKind) :
    (manager.answer request status body).cb kind = manager.cb kind := by
  cases kind <;> rfl

/-! ### HTTP requests -/

/-- What an HTTP request can lead to: a message with its callback kept, a refusal because the
queue is full, or another answer. -/
inductive Requested (cb : ℕ) (manager : MgmtManager) (queue : ReqQueue) :
    MgmtManager × ReqQueue → Prop
  | enqueued (msg : ReqMsg) (free : manager.cb msg.kind = none)
      (room : queue.length < reqCapacity) :
      Requested cb manager queue
        (manager.setCb (some cb) msg.kind, queue ++ [{ request := some cb, msg }])
  | full (msg : ReqMsg) (free : manager.cb msg.kind = none)
      (noRoom : ¬ queue.length < reqCapacity) :
      Requested cb manager queue (manager.answer (some cb) .internalServerError
        (makeResponseBody "Failed to enqueue request"), queue)
  | answered (status : HttpStatus) (body : String) (served : status ≠ .internalServerError) :
      Requested cb manager queue (manager.answer (some cb) status body, queue)

theorem enqueueReq_requested {cb : ℕ} {manager : MgmtManager} {queue : ReqQueue} (msg : ReqMsg)
    (free : manager.cb msg.kind = none) :
    Requested cb manager queue (enqueueReq msg.kind cb msg manager queue) := by
  rw [enqueueReq, BoundedFifo.push, List.length_singleton]
  by_cases room : queue.length < reqCapacity
  · rw [if_pos (show queue.length + 1 ≤ reqCapacity from room)]
    exact .enqueued msg free room
  · rw [if_neg (show ¬ queue.length + 1 ≤ reqCapacity from room)]
    exact .full msg free room

/-- The three handlers and the table of targets. -/
theorem onHttpRequest_requested (env : MgmtEnv) (cb : ℕ) (target req : String)
    (manager : MgmtManager) (queue : ReqQueue) :
    Requested cb manager queue (onHttpRequest env cb target req manager queue) := by
  have free {kind : ReqKind} (idle : ¬ (manager.cb kind).isSome = true) :
      manager.cb kind = none := Option.not_isSome_iff_eq_none.mp idle
  rw [onHttpRequest]
  split
  · rw [onReqStartGen]
    split
    · exact .answered _ _ (by simp)
    · next idle =>
      split
      · next cfg _ => exact enqueueReq_requested (.startGeneration cfg) (free idle)
      · exact .answered _ _ (by simp)
  · split
    · rw [onReqStopGen]
      split
      · exact .answered _ _ (by simp)
      · next idle => exact enqueueReq_requested .stopGeneration (free idle)
    · split
      · rw [onReqGetStats]
        split
        · exact .answered _ _ (by simp)
        · next idle => exact enqueueReq_requested .statsReport (free idle)
      · exact .answered _ _ (by simp)

/-- An HTTP request reaches no `TG_ENFORCE`. -/
theorem Requested.aborted {cb : ℕ} {manager : MgmtManager} {queue : ReqQueue}
    {next : MgmtManager × ReqQueue} (requested : Requested cb manager queue next) :
    next.1.aborted = manager.aborted := by
  cases requested with
  | enqueued => exact setCb_aborted _ _ _
  | full | answered => rfl

/-! ### Messages of the generator -/

/-- A response ends in the same way whatever its kind. -/
theorem onResMsg_response (env : MgmtEnv) (manager : MgmtManager) {msg : ResMsg} {kind : ReqKind}
    (response : msg.kind = some kind) :
    ∃ status body, status ≠ .internalServerError ∧
      onResMsg env manager msg = respond env kind status body manager := by
  cases msg with
  | startGeneration res =>
    obtain rfl := Option.some.inj response
    cases res with
    | ok => exact ⟨.ok, _, by simp, rfl⟩
    | error text => exact ⟨.preconditionFailed, _, by simp, rfl⟩
  | stopGeneration res =>
    obtain rfl := Option.some.inj response
    exact ⟨.ok, _, by simp, rfl⟩
  | statsReport res =>
    obtain rfl := Option.some.inj response
    exact ⟨.ok, _, by simp, rfl⟩
  | generationReport report => exact absurd response (by simp [ResMsg.kind])

theorem onResMsg_report (env : MgmtEnv) (manager : MgmtManager) {msg : ResMsg}
    (report : msg.kind = none) : onResMsg env manager msg = manager := by
  cases msg with
  | generationReport report => rfl
  | startGeneration | stopGeneration | statsReport => exact absurd report (by simp [ResMsg.kind])

/-- A response leaves the callbacks of the other kinds alone and clears its own. -/
theorem respond_cb (env : MgmtEnv) (kind other : ReqKind) (status : HttpStatus) (body : String)
    (manager : MgmtManager) :
    (respond env kind status body manager).cb other =
      if other = kind then none else manager.cb other := by
  rw [respond, cb_setCb, cb_answer]
  rfl

theorem respond_answers (env : MgmtEnv) (kind : ReqKind) (status : HttpStatus) (body : String)
    (manager : MgmtManager) :
    (respond env kind status body manager).answers =
      manager.answers ++ [{ request := manager.cb kind, status, body }] := by
  rw [respond, setCb_answers]
  rfl

theorem respond_aborted (env : MgmtEnv) (kind : ReqKind) (status : HttpStatus) (body : String)
    (manager : MgmtManager) :
    (respond env kind status body manager).aborted =
      (manager.aborted || env.enforce (manager.cb kind).isSome) := by
  rw [respond, setCb_aborted]
  rfl

end TrafficGenerator
