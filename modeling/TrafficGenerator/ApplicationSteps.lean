/-
This file says once what the threads of the application can do, and what holds
in every state they lead to: no lcore runs into `TG_UNREACHABLE`, a call of
`process_events` that is not over is one that an lcore is in, and `run` of the
application knows which lcores have been launched and which have ended.
-/

import TrafficGenerator.Application

namespace TrafficGenerator

variable {env : Env} {mgmtEnv : MgmtEnv} {eal : Eal} {cpus : Vector UInt16 2}

/-! ### One lcore for a manager -/

theorem managerOf_mgmt {lcore : ℕ} :
    managerOf cpus lcore = some .mgmt ↔ lcore = mgmtCpu cpus := by
  unfold managerOf
  split
  · next same => exact iff_of_true rfl same
  · next other =>
    split
    · exact iff_of_false (by simp) other
    · exact iff_of_false (by simp) other

theorem managerOf_genr {lcore : ℕ} : managerOf cpus lcore = some .genr ↔
    lcore = genrCpu cpus ∧ lcore ≠ mgmtCpu cpus := by
  unfold managerOf
  split
  · next same => exact iff_of_false (by simp) fun both => both.2 same
  · next other =>
    split
    · next same => exact iff_of_true rfl ⟨same, other⟩
    · next neither => exact iff_of_false (by simp) fun both => neither both.1

/-- A manager is called by one lcore only. -/
theorem managerOf_inj {lcore lcore' : ℕ} {manager : Manager}
    (first : managerOf cpus lcore = some manager) (second : managerOf cpus lcore' = some manager) :
    lcore = lcore' := by
  cases manager with
  | mgmt => rw [managerOf_mgmt.mp first, managerOf_mgmt.mp second]
  | genr => rw [(managerOf_genr.mp first).1, (managerOf_genr.mp second).1]

/-- An lcore of the option has a manager. -/
theorem Eal.RunsOn.manager (runsOn : eal.RunsOn cpus) {lcore : ℕ}
    (member : lcore ∈ eal.mainLcore :: eal.workers) :
    ∃ manager, managerOf cpus lcore = some manager := by
  unfold managerOf
  split
  · exact ⟨_, rfl⟩
  · next other =>
    rcases (runsOn.lcores lcore).mp member with same | same
    · exact absurd same other
    · exact ⟨_, if_pos same⟩

/-! ### What a part of a call does -/

/-- The parts of a call, and what they do to the messages taken off the queue and to the
generator. -/
inductive Worked (env : Env) :
    Manager → LcorePlace → SystemLabel → LcorePlace → System → System → Prop
  | http {system next : System} (target req : String) (same : next.gen = system.gen)
      (before : system.mgmtBatch = []) (after : next.mgmtBatch = []) :
      Worked env .mgmt .called (.http target req) .polled system next
  | mgmtDequeue {system next : System} (place : LcorePlace) (count : ℕ)
      (early : place = .called ∨ place = .polled) (same : next.gen = system.gen)
      (before : system.mgmtBatch = []) (batch : next.mgmtBatch.length ≤ dequeueBatch resCapacity) :
      Worked env .mgmt place (.mgmtDequeue count) .dequeued system next
  | mgmtHandle {system next : System} (msg : Tagged ResMsg) (same : next.gen = system.gen)
      (batch : system.mgmtBatch = msg :: next.mgmtBatch) :
      Worked env .mgmt .dequeued .mgmtHandle .dequeued system next
  | genDequeue {system next : System} (count : ℕ) (msgs : List (Tagged ReqMsg))
      (same : next.mgmtBatch = system.mgmtBatch)
      (part : (genMachine env).step system.gen (.dequeue msgs) = some next.gen) :
      Worked env .genr .called (.genDequeue count) .dequeued system next
  | gen {system next : System} (label : GenLabel) (same : next.mgmtBatch = system.mgmtBatch)
      (noNic : ∀ stats, label ≠ .nic stats) (noDequeue : ∀ msgs, label ≠ .dequeue msgs)
      (part : (genMachine env).step system.gen label = some next.gen) :
      Worked env .genr .dequeued (.gen label) .dequeued system next

/-- A part of the generator's call is a step of the generator. -/
theorem system_gen_part {system next : System} {label : GenLabel}
    (step : system.step env mgmtEnv (.gen label) = some next) :
    next.mgmtBatch = system.mgmtBatch ∧ (∀ msgs, label ≠ .dequeue msgs) ∧
      (genMachine env).step system.gen label = some next.gen := by
  unfold System.step at step
  split at step
  · exact absurd step (by simp)
  · dsimp only at step
    unfold System.genStep at step
    split at step
    · next same => exact absurd same (by simp)
    · exact absurd step (by simp)
    · next label' noDequeue same =>
      obtain rfl := SystemLabel.gen.inj same
      obtain ⟨gen, moved, rfl⟩ := Option.map_eq_some_iff.mp step
      exact ⟨rfl, noDequeue, moved⟩
    · next other => exact absurd rfl (other label)

theorem system_gen_dequeue {system next : System} {count : ℕ}
    (step : system.step env mgmtEnv (.genDequeue count) = some next) :
    next.mgmtBatch = system.mgmtBatch ∧
      ∃ msgs, (genMachine env).step system.gen (.dequeue msgs) = some next.gen := by
  unfold System.step at step
  split at step
  · exact absurd step (by simp)
  · obtain ⟨popped, -, step⟩ := Option.bind_eq_some_iff.mp step
    obtain ⟨gen, moved, rfl⟩ := Option.map_eq_some_iff.mp step
    exact ⟨rfl, _, moved⟩

/-- `dequeue` hands over a batch at most. -/
theorem system_mgmtDequeue {system next : System} {count : ℕ}
    (step : system.step env mgmtEnv (.mgmtDequeue count) = some next) :
    next.gen = system.gen ∧ system.mgmtBatch = [] ∧
      next.mgmtBatch.length ≤ dequeueBatch resCapacity := by
  unfold System.step at step
  split at step
  · exact absurd step (by simp)
  · simp only [System.mgmtStep] at step
    split at step
    · next few =>
      obtain ⟨⟨taken, rest⟩, popped, rfl⟩ := Option.map_eq_some_iff.mp step
      obtain ⟨-, length⟩ := BoundedFifo.pop_eq_some.mp popped
      exact ⟨rfl, few.1, length ▸ few.2⟩
    · exact absurd step (by simp)

theorem work_spec {manager : Manager} {before after : LcorePlace} {label : SystemLabel}
    {system next : System} (part : callPart manager before label = some after)
    (step : system.step env mgmtEnv label = some next) :
    Worked env manager before label after system next := by
  unfold callPart at part
  split at part
  · next target req =>
    obtain rfl := Option.some.inj part
    unfold System.step at step
    split at step
    · exact absurd step (by simp)
    · simp only [System.mgmtStep] at step
      split at step
      · next empty =>
        obtain rfl := Option.some.inj step
        exact .http target req rfl empty empty
      · exact absurd step (by simp)
  · next count =>
    obtain rfl := Option.some.inj part
    obtain ⟨same, before, few⟩ := system_mgmtDequeue step
    exact .mgmtDequeue _ count (.inl rfl) same before few
  · next count =>
    obtain rfl := Option.some.inj part
    obtain ⟨same, before, few⟩ := system_mgmtDequeue step
    exact .mgmtDequeue _ count (.inr rfl) same before few
  · obtain rfl := Option.some.inj part
    unfold System.step at step
    split at step
    · exact absurd step (by simp)
    · simp only [System.mgmtStep] at step
      split at step
      · exact absurd step (by simp)
      · next msg rest batch =>
        obtain rfl := Option.some.inj step
        exact .mgmtHandle msg rfl batch
  · next count =>
    obtain rfl := Option.some.inj part
    obtain ⟨same, msgs, moved⟩ := system_gen_dequeue step
    exact .genDequeue count msgs same moved
  · exact absurd part (by simp)
  · next label noNic =>
    obtain rfl := Option.some.inj part
    obtain ⟨same, noDequeue, moved⟩ := system_gen_part step
    exact .gen label same noNic noDequeue moved
  · exact absurd part (by simp)

/-! ### One step of the application -/

/-- The steps of the application. -/
inductive AppStep (env : Env) (mgmtEnv : MgmtEnv) (eal : Eal) (cpus : Vector UInt16 2) :
    Application → AppLabel → Application → Prop
  | signal (app : Application) (sig : Signal) :
      AppStep env mgmtEnv eal cpus app (.signal sig) { app with stopFlag := true }
  | nic (app : Application) (stats : EthStats) (system : System)
      (step : app.system.step env mgmtEnv (.gen (.nic stats)) = some system) :
      AppStep env mgmtEnv eal cpus app (.nic stats) { app with system }
  | launch (app : Application) (lcore : ℕ) (rest : List ℕ)
      (main : app.main = .launching (lcore :: rest)) :
      AppStep env mgmtEnv eal cpus app .launch
        { app.goTo lcore .launched with main := .launching rest }
  | launchMain (app : Application) (main : app.main = .launching []) :
      AppStep env mgmtEnv eal cpus app .launch
        { app.goTo eal.mainLcore .launched with main := .running }
  | joinMain (app : Application) (main : app.main = .running)
      (ended : app.place eal.mainLcore = .ended) :
      AppStep env mgmtEnv eal cpus app .join { app with main := .waiting eal.workers }
  | joinWorker (app : Application) (lcore : ℕ) (rest : List ℕ)
      (main : app.main = .waiting (lcore :: rest)) (ended : app.place lcore = .ended) :
      AppStep env mgmtEnv eal cpus app .join { app with main := .waiting rest }
  | joined (app : Application) (main : app.main = .waiting []) :
      AppStep env mgmtEnv eal cpus app .join { app with main := .returned }
  | enter (app : Application) (lcore : ℕ) (manager : Manager)
      (place : app.place lcore = .launched) (branch : managerOf cpus lcore = some manager) :
      AppStep env mgmtEnv eal cpus app (.enter lcore) (app.goTo lcore .testing)
  | unreachable (app : Application) (lcore : ℕ) (place : app.place lcore = .launched)
      (branch : managerOf cpus lcore = none) :
      AppStep env mgmtEnv eal cpus app (.enter lcore) { app with unreachable := true }
  | test (app : Application) (lcore : ℕ) (place : app.place lcore = .testing) :
      AppStep env mgmtEnv eal cpus app (.test lcore)
        (app.goTo lcore (if app.stopFlag then .ended else .called))
  | work (app : Application) (lcore : ℕ) (label : SystemLabel) (manager : Manager)
      (place : LcorePlace) (system : System) (branch : managerOf cpus lcore = some manager)
      (here : timerHere app.timerLcore lcore label = true)
      (step : app.system.step env mgmtEnv label = some system)
      (worked : Worked env manager (app.place lcore) label place app.system system) :
      AppStep env mgmtEnv eal cpus app (.work lcore label) { app.goTo lcore place with system }
  | leave (app : Application) (lcore : ℕ) (manager : Manager)
      (branch : managerOf cpus lcore = some manager) (place : app.place lcore = .dequeued)
      (finished : app.system.callOver manager = true) :
      AppStep env mgmtEnv eal cpus app (.leave lcore) (app.goTo lcore .testing)

theorem lcoreStep_spec {app next : Application} {label : AppLabel}
    (step : app.lcoreStep env mgmtEnv cpus label = some next) :
    AppStep env mgmtEnv eal cpus app label next := by
  unfold Application.lcoreStep at step
  split at step
  · next lcore =>
    split at step
    · next place =>
      split at step
      · next manager branch =>
        obtain rfl := Option.some.inj step
        exact .enter app lcore manager place branch
      · next branch =>
        obtain rfl := Option.some.inj step
        exact .unreachable app lcore place branch
    · exact absurd step (by simp)
  · next lcore =>
    split at step
    · next place =>
      obtain rfl := Option.some.inj step
      exact .test app lcore place
    · exact absurd step (by simp)
  · next lcore label =>
    obtain ⟨manager, branch, step⟩ := Option.bind_eq_some_iff.mp step
    obtain ⟨place, part, step⟩ := Option.bind_eq_some_iff.mp step
    split at step
    · next here =>
      obtain ⟨system, moved, rfl⟩ := Option.map_eq_some_iff.mp step
      exact .work app lcore label manager place system branch here moved (work_spec part moved)
    · exact absurd step (by simp)
  · next lcore =>
    obtain ⟨manager, branch, step⟩ := Option.bind_eq_some_iff.mp step
    split at step
    · next finished =>
      obtain rfl := Option.some.inj step
      exact .leave app lcore manager branch finished.1 finished.2
    · exact absurd step (by simp)
  · exact absurd step (by simp)

theorem mainStep_spec {app next : Application} {label : AppLabel}
    (step : app.mainStep eal label = some next) : AppStep env mgmtEnv eal cpus app label next := by
  unfold Application.mainStep at step
  split at step
  · split at step
    · next lcore rest main =>
      obtain rfl := Option.some.inj step
      exact .launch app lcore rest main
    · next main =>
      obtain rfl := Option.some.inj step
      exact .launchMain app main
    · exact absurd step (by simp)
  · split at step
    · next main =>
      split at step
      · next ended =>
        obtain rfl := Option.some.inj step
        exact .joinMain app main ended
      · exact absurd step (by simp)
    · next lcore rest main =>
      split at step
      · next ended =>
        obtain rfl := Option.some.inj step
        exact .joinWorker app lcore rest main ended
      · exact absurd step (by simp)
    · next main =>
      obtain rfl := Option.some.inj step
      exact .joined app main
    · exact absurd step (by simp)
  · exact absurd step (by simp)

/-- The application takes no other steps, and none after the end of the process. -/
theorem appStep_spec {app next : Application} {label : AppLabel}
    (step : (appMachine env mgmtEnv eal cpus).step app label = some next) :
    app.aborted = false ∧ AppStep env mgmtEnv eal cpus app label next := by
  simp only [appMachine, Application.step] at step
  split at step
  · exact absurd step (by simp)
  · next alive =>
    refine ⟨Bool.not_eq_true _ ▸ alive, ?_⟩
    split at step
    · next sig =>
      obtain rfl := Option.some.inj step
      cases sig with
      | sigint | sigterm => exact .signal app _
    · next stats =>
      obtain ⟨system, moved, rfl⟩ := Option.map_eq_some_iff.mp step
      exact .nic app stats system moved
    · exact mainStep_spec step
    · exact mainStep_spec step
    · exact lcoreStep_spec step
    · exact lcoreStep_spec step
    · exact lcoreStep_spec step
    · exact lcoreStep_spec step

/-! ### Steps that are taken -/

section Taken

variable {app : Application} {lcore : ℕ} (alive : app.aborted = false)

include alive

theorem step_of_lcoreStep {label : AppLabel} {next : Application}
    (step : app.lcoreStep env mgmtEnv cpus label = some next) :
    (appMachine env mgmtEnv eal cpus).step app label = some next := by
  simp only [appMachine, Application.step]
  rw [alive, if_neg Bool.false_ne_true]
  cases label with
  | enter | test | work | leave => exact step
  | signal | nic | launch | join => exact absurd step (by simp [Application.lcoreStep])

theorem step_of_mainStep {label : AppLabel} {next : Application}
    (step : app.mainStep eal label = some next) :
    (appMachine env mgmtEnv eal cpus).step app label = some next := by
  simp only [appMachine, Application.step]
  rw [alive, if_neg Bool.false_ne_true]
  cases label with
  | launch | join => exact step
  | signal | nic | enter | test | work | leave =>
    exact absurd step (by simp [Application.mainStep])

theorem step_nic {stats : EthStats} {system : System}
    (step : app.system.step env mgmtEnv (.gen (.nic stats)) = some system) :
    (appMachine env mgmtEnv eal cpus).step app (.nic stats) = some { app with system } := by
  simp only [appMachine, Application.step]
  rw [alive, if_neg Bool.false_ne_true, step]
  rfl

theorem step_launch {rest : List ℕ} (main : app.main = .launching (lcore :: rest)) :
    (appMachine env mgmtEnv eal cpus).step app .launch =
      some { app.goTo lcore .launched with main := .launching rest } := by
  refine step_of_mainStep alive ?_
  rw [Application.mainStep, main]

theorem step_launchMain (main : app.main = .launching []) :
    (appMachine env mgmtEnv eal cpus).step app .launch =
      some { app.goTo eal.mainLcore .launched with main := .running } := by
  refine step_of_mainStep alive ?_
  rw [Application.mainStep, main]

theorem step_joinMain (main : app.main = .running) (ended : app.place eal.mainLcore = .ended) :
    (appMachine env mgmtEnv eal cpus).step app .join =
      some { app with main := .waiting eal.workers } := by
  refine step_of_mainStep alive ?_
  rw [Application.mainStep, main]
  exact if_pos ended

theorem step_joinWorker {rest : List ℕ} (main : app.main = .waiting (lcore :: rest))
    (ended : app.place lcore = .ended) :
    (appMachine env mgmtEnv eal cpus).step app .join =
      some { app with main := .waiting rest } := by
  refine step_of_mainStep alive ?_
  rw [Application.mainStep, main]
  exact if_pos ended

theorem step_joined (main : app.main = .waiting []) :
    (appMachine env mgmtEnv eal cpus).step app .join = some { app with main := .returned } := by
  refine step_of_mainStep alive ?_
  rw [Application.mainStep, main]

theorem step_enter {manager : Manager} (place : app.place lcore = .launched)
    (branch : managerOf cpus lcore = some manager) :
    (appMachine env mgmtEnv eal cpus).step app (.enter lcore) =
      some (app.goTo lcore .testing) := by
  refine step_of_lcoreStep alive ?_
  rw [Application.lcoreStep, if_pos place, branch]

theorem step_test (place : app.place lcore = .testing) :
    (appMachine env mgmtEnv eal cpus).step app (.test lcore) =
      some (app.goTo lcore (if app.stopFlag then .ended else .called)) :=
  step_of_lcoreStep alive (if_pos place)

theorem step_work {manager : Manager} {label : SystemLabel} {after : LcorePlace} {system : System}
    (branch : managerOf cpus lcore = some manager)
    (part : callPart manager (app.place lcore) label = some after)
    (here : timerHere app.timerLcore lcore label = true)
    (step : app.system.step env mgmtEnv label = some system) :
    (appMachine env mgmtEnv eal cpus).step app (.work lcore label) =
      some { app.goTo lcore after with system } := by
  refine step_of_lcoreStep alive ?_
  rw [Application.lcoreStep, branch]
  show (callPart manager (app.place lcore) label).bind _ = _
  rw [part, Option.bind_some, if_pos here, step]
  rfl

theorem step_leave {manager : Manager} (branch : managerOf cpus lcore = some manager)
    (place : app.place lcore = .dequeued) (finished : app.system.callOver manager = true) :
    (appMachine env mgmtEnv eal cpus).step app (.leave lcore) =
      some (app.goTo lcore .testing) := by
  refine step_of_lcoreStep alive ?_
  rw [Application.lcoreStep, branch]
  exact if_pos ⟨place, finished⟩

end Taken

/-! ### What holds in every state -/

/-- How many parts of the call of a manager's `process_events` are left behind `dequeue`, the
callbacks of timers aside. -/
def System.callLeft (system : System) : Manager → ℕ
  | .mgmt => system.mgmtBatch.length
  | .genr =>
    match system.gen.place with
    | .idle => 0
    | .handling msgs => msgs.length + 2
    | .timers => 1

theorem callOver_eq (system : System) (manager : Manager) :
    system.callOver manager = (system.callLeft manager == 0) := by
  cases manager with
  | mgmt =>
    rw [System.callOver, System.callLeft]
    cases system.mgmtBatch <;> rfl
  | genr =>
    rw [System.callOver, System.callLeft]
    cases system.gen.place <;> rfl

/-- What `application::run` knows of the lcores at its places. -/
def MainPlace.Knows (eal : Eal) (place : ℕ → LcorePlace) : MainPlace → Prop
  | .launching rest => rest.Nodup ∧ rest ⊆ eal.workers ∧
      ∀ lcore ∈ eal.mainLcore :: eal.workers,
        place lcore = .wait ↔ lcore = eal.mainLcore ∨ lcore ∈ rest
  | .running => ∀ lcore ∈ eal.mainLcore :: eal.workers, place lcore ≠ .wait
  | .waiting rest => rest <:+ eal.workers ∧ ∀ lcore ∈ eal.mainLcore :: eal.workers,
      place lcore ≠ .wait ∧ (lcore ∉ rest → place lcore = .ended)
  | .returned => ∀ lcore ∈ eal.mainLcore :: eal.workers, place lcore = .ended

theorem Application.goTo_self (app : Application) (lcore : ℕ) (place : LcorePlace) :
    (app.goTo lcore place).place lcore = place := Function.update_self ..

theorem Application.goTo_other {lcore other : ℕ} (app : Application) (place : LcorePlace)
    (different : other ≠ lcore) : (app.goTo lcore place).place other = app.place other :=
  Function.update_of_ne different ..

/-- No lcore is at an unexpected place, a call that is not over is one that an lcore is in, and
only the flag ends a loop. -/
structure Application.Sound (eal : Eal) (cpus : Vector UInt16 2) (app : Application) : Prop where
  reachable : app.unreachable = false
  inside : ∀ lcore, app.place lcore ≠ .wait → lcore ∈ eal.mainLcore :: eal.workers
  polled : ∀ lcore, app.place lcore = .polled → managerOf cpus lcore = some .mgmt
  inCall : ∀ manager, app.system.callOver manager = false →
    ∃ lcore, managerOf cpus lcore = some manager ∧ app.place lcore = .dequeued
  flagSeen : ∀ lcore, app.place lcore = .ended → app.stopFlag = true
  knows : app.main.Knows eal app.place

theorem Application.sound_init (runsOn : eal.RunsOn cpus) (workingDir : String) :
    (Application.init eal workingDir).Sound eal cpus where
  reachable := rfl
  inside _ moved := absurd rfl moved
  polled _ place := absurd place (by simp [Application.init])
  inCall manager notOver := by
    cases manager with
    | mgmt | genr => exact absurd notOver Bool.true_eq_false_eq_False
  flagSeen _ place := absurd place (by simp [Application.init])
  knows := by
    refine ⟨(List.nodup_cons.mp runsOn.nodup).2, fun _ member => member, fun lcore member => ?_⟩
    exact iff_of_true rfl (List.mem_cons.mp member)

/-- An lcore that runs and has not ended may go on. -/
theorem MainPlace.Knows.goTo {main : MainPlace} {place : ℕ → LcorePlace} {lcore : ℕ}
    {target : LcorePlace} (knows : main.Knows eal place) (running : place lcore ≠ .wait)
    (notEnded : place lcore ≠ .ended) (runs : target ≠ .wait) :
    main.Knows eal (Function.update place lcore target) := by
  have updated (other : ℕ) :
      Function.update place lcore target other = .wait ↔ place other = .wait := by
    by_cases same : other = lcore
    · rw [same, Function.update_self]
      exact iff_of_false runs running
    · rw [Function.update_of_ne same]
  have ended (other : ℕ) (place' : place other = .ended) :
      Function.update place lcore target other = .ended := by
    rw [Function.update_of_ne fun same : other = lcore => notEnded (same ▸ place'), place']
  cases main with
  | launching rest =>
    obtain ⟨nodup, inside, waits⟩ := knows
    exact ⟨nodup, inside, fun other member => (updated other).trans (waits other member)⟩
  | running => exact fun other member => (not_congr (updated other)).mpr (knows other member)
  | waiting rest =>
    refine ⟨knows.1, fun other member => ?_⟩
    obtain ⟨launched, left⟩ := knows.2 other member
    exact ⟨(not_congr (updated other)).mpr launched, fun absent => ended other (left absent)⟩
  | returned => exact fun other member => ended other (knows other member)

/-- A thread goes on: where to, what becomes of the calls, and what `application::run` knows. -/
theorem Application.Sound.goTo {app : Application} {lcore : ℕ} {target : LcorePlace}
    {system : System} {main : MainPlace} (sound : app.Sound eal cpus)
    (member : lcore ∈ eal.mainLcore :: eal.workers)
    (polls : target = .polled → managerOf cpus lcore = some .mgmt)
    (ends : target = .ended → app.stopFlag = true)
    (calls : ∀ manager, system.callOver manager = false →
      (managerOf cpus lcore = some manager ∧ target = .dequeued) ∨
        ∃ other, other ≠ lcore ∧ managerOf cpus other = some manager ∧
          app.place other = .dequeued)
    (knows : main.Knows eal (Function.update app.place lcore target)) :
    Application.Sound eal cpus { app.goTo lcore target with system, main } where
  reachable := sound.reachable
  inside other moved := by
    by_cases same : other = lcore
    · exact same ▸ member
    · exact sound.inside other fun waits => moved ((app.goTo_other target same).trans waits)
  polled other place := by
    by_cases same : other = lcore
    · rw [same] at place ⊢
      exact polls ((app.goTo_self lcore target).symm.trans place)
    · exact sound.polled other ((app.goTo_other target same).symm.trans place)
  inCall manager notOver := by
    rcases calls manager notOver with ⟨branch, dequeued⟩ | ⟨other, different, branch, dequeued⟩
    · exact ⟨lcore, branch, (app.goTo_self lcore target).trans dequeued⟩
    · exact ⟨other, branch, (app.goTo_other target different).trans dequeued⟩
  flagSeen other place := by
    by_cases same : other = lcore
    · rw [same] at place
      exact ends ((app.goTo_self lcore target).symm.trans place)
    · exact sound.flagSeen other ((app.goTo_other target same).symm.trans place)
  knows := knows

/-- What an lcore that runs needs to go on. -/
theorem Application.Sound.moves {app : Application} {lcore : ℕ} {target : LcorePlace}
    {system : System} (sound : app.Sound eal cpus) (running : app.place lcore ≠ .wait)
    (notEnded : app.place lcore ≠ .ended) (runs : target ≠ .wait)
    (polls : target = .polled → managerOf cpus lcore = some .mgmt)
    (ends : target = .ended → app.stopFlag = true)
    (calls : ∀ manager, system.callOver manager = false →
      (managerOf cpus lcore = some manager ∧ target = .dequeued) ∨
        ∃ other, other ≠ lcore ∧ managerOf cpus other = some manager ∧
          app.place other = .dequeued) :
    Application.Sound eal cpus { app.goTo lcore target with system } :=
  sound.goTo (sound.inside lcore running) polls ends calls
    (sound.knows.goTo running notEnded runs)

/-- The lcore of a manager is the only one that its call can be over for. -/
theorem Application.Sound.elsewhere {app : Application} {lcore : ℕ} (sound : app.Sound eal cpus)
    (out : app.place lcore = .dequeued →
      ∀ manager, managerOf cpus lcore = some manager → app.system.callOver manager = true)
    {manager : Manager} (notOver : app.system.callOver manager = false) :
    ∃ other, other ≠ lcore ∧ managerOf cpus other = some manager ∧
      app.place other = .dequeued := by
  obtain ⟨other, branch, dequeued⟩ := sound.inCall manager notOver
  refine ⟨other, fun same => ?_, branch, dequeued⟩
  obtain rfl := same
  exact Bool.false_ne_true (notOver.symm.trans (out dequeued manager branch))

/-- A part of a call leaves the other manager alone. -/
theorem Worked.callLeft_other {manager other : Manager} {before after : LcorePlace}
    {label : SystemLabel} {system next : System}
    (worked : Worked env manager before label after system next) (different : other ≠ manager) :
    next.callLeft other = system.callLeft other := by
  cases worked with
  | http target req same | mgmtDequeue place count early same | mgmtHandle msg same =>
    cases other with
    | mgmt => exact absurd rfl different
    | genr => rw [System.callLeft, System.callLeft, same]
  | genDequeue count msgs same | gen label same =>
    cases other with
    | mgmt => rw [System.callLeft, System.callLeft, same]
    | genr => exact absurd rfl different

/-- Where a part of a call starts and ends. -/
theorem Worked.places {manager : Manager} {before after : LcorePlace} {label : SystemLabel}
    {system next : System} (worked : Worked env manager before label after system next) :
    before ≠ .wait ∧ before ≠ .ended ∧ after ≠ .wait ∧ after ≠ .ended ∧
      (after = .polled → manager = .mgmt) ∧
        (after = .dequeued ∨ before ≠ .dequeued ∧ next.callLeft manager = 0) := by
  cases worked with
  | http target req same before empty =>
    refine ⟨by simp, by simp, by simp, by simp, fun _ => rfl, .inr ⟨by simp, ?_⟩⟩
    rw [System.callLeft, empty]
    rfl
  | mgmtDequeue place count early =>
    rcases early with rfl | rfl
    · exact ⟨by simp, by simp, by simp, by simp, by simp, .inl rfl⟩
    · exact ⟨by simp, by simp, by simp, by simp, by simp, .inl rfl⟩
  | mgmtHandle | genDequeue | gen =>
    exact ⟨by simp, by simp, by simp, by simp, by simp, .inl rfl⟩

/-- The counters of the NIC are no part of a call. -/
theorem callLeft_nic {system next : System} {stats : EthStats}
    (step : system.step env mgmtEnv (.gen (.nic stats)) = some next) (manager : Manager) :
    next.callLeft manager = system.callLeft manager := by
  obtain ⟨batch, -, part⟩ := system_gen_part step
  cases manager with
  | mgmt => rw [System.callLeft, System.callLeft, batch]
  | genr =>
    have place : next.gen.place = system.gen.place := by
      have part := (genStep_spec part).2
      generalize system.gen = before, next.gen = after at part
      cases part with
      | nic => rfl
    simp only [System.callLeft, place]

/-! ### Every step keeps it -/

section Step

variable {app : Application} (sound : app.Sound eal cpus)

include sound

/-- A worker is launched. -/
theorem Application.Sound.launch (runsOn : eal.RunsOn cpus) {worker : ℕ} {rest : List ℕ}
    (main : app.main = .launching (worker :: rest)) : Application.Sound eal cpus
      { app.goTo worker .launched with main := .launching rest } := by
  have knows := sound.knows
  rw [main] at knows
  obtain ⟨nodup, workers, waits⟩ := knows
  have among : worker ∈ eal.workers := workers List.mem_cons_self
  have member := List.mem_cons_of_mem eal.mainLcore among
  have notMain : worker ≠ eal.mainLcore := fun same =>
    (List.nodup_cons.mp runsOn.nodup).1 (same ▸ among)
  have waiting := (waits worker member).mpr (.inr List.mem_cons_self)
  refine sound.goTo member (by simp) (by simp)
    (fun manager notOver => .inr (sound.elsewhere (by simp [waiting]) notOver))
    ⟨(List.nodup_cons.mp nodup).2, List.subset_of_cons_subset workers, fun lcore inside => ?_⟩
  by_cases same : lcore = worker
  · rw [same, Function.update_self]
    refine iff_of_false (by simp) fun left => ?_
    exact left.elim notMain (List.nodup_cons.mp nodup).1
  · rw [Function.update_of_ne same, waits lcore inside, List.mem_cons]
    simp only [same, false_or]

/-- The main lcore calls the function itself. -/
theorem Application.Sound.launchMain (main : app.main = .launching []) :
    Application.Sound eal cpus { app.goTo eal.mainLcore .launched with main := .running } := by
  have knows := sound.knows
  rw [main] at knows
  obtain ⟨-, -, waits⟩ := knows
  have member : eal.mainLcore ∈ eal.mainLcore :: eal.workers := List.mem_cons_self
  have waiting := (waits _ member).mpr (.inl rfl)
  refine sound.goTo member (by simp) (by simp)
    (fun manager notOver => .inr (sound.elsewhere (by simp [waiting]) notOver))
    fun lcore inside => ?_
  by_cases same : lcore = eal.mainLcore
  · rw [same, Function.update_self]
    simp
  · rw [Function.update_of_ne same]
    intro waiting
    exact ((waits lcore inside).mp waiting).elim same List.not_mem_nil

/-- The main lcore waits for the workers. -/
theorem Application.Sound.joinMain (main : app.main = .running)
    (ended : app.place eal.mainLcore = .ended) :
    Application.Sound eal cpus { app with main := .waiting eal.workers } := by
  have knows := sound.knows
  rw [main] at knows
  refine { sound with knows := ⟨List.suffix_refl _, fun lcore member => ?_⟩ }
  refine ⟨knows lcore member, fun absent => ?_⟩
  rcases List.mem_cons.mp member with rfl | among
  · exact ended
  · exact absurd among absent

/-- A worker has been waited for. -/
theorem Application.Sound.joinWorker {worker : ℕ} {rest : List ℕ}
    (main : app.main = .waiting (worker :: rest)) (ended : app.place worker = .ended) :
    Application.Sound eal cpus { app with main := .waiting rest } := by
  have knows := sound.knows
  rw [main] at knows
  refine { sound with
    knows := ⟨(List.suffix_cons worker rest).trans knows.1, fun lcore member => ?_⟩ }
  obtain ⟨launched, left⟩ := knows.2 lcore member
  refine ⟨launched, fun absent => ?_⟩
  by_cases same : lcore = worker
  · exact same ▸ ended
  · exact left (List.not_mem_cons_of_ne_of_not_mem same absent)

/-- All workers have been waited for. -/
theorem Application.Sound.joined (main : app.main = .waiting []) :
    Application.Sound eal cpus { app with main := .returned } := by
  have knows := sound.knows
  rw [main] at knows
  refine { sound with knows := fun lcore member => ?_ }
  exact (knows.2 lcore member).2 List.not_mem_nil

/-- An lcore looks at the flag. -/
theorem Application.Sound.test {lcore : ℕ} (place : app.place lcore = .testing) :
    (app.goTo lcore (if app.stopFlag then .ended else .called)).Sound eal cpus := by
  refine sound.moves (by simp [place]) (by simp [place]) ?_ ?_ ?_
    fun manager notOver => .inr (sound.elsewhere (by simp [place]) notOver)
  · split <;> simp
  · split <;> simp
  · split
    · next flag => exact fun _ => flag
    · simp

/-- A part of a call changes the calls of its own manager only. -/
theorem Application.Sound.work {lcore : ℕ} {label : SystemLabel} {manager : Manager}
    {place : LcorePlace} {system : System} (branch : managerOf cpus lcore = some manager)
    (worked : Worked env manager (app.place lcore) label place app.system system) :
    Application.Sound eal cpus { app.goTo lcore place with system } := by
  obtain ⟨running, notEnded, runs, notEnds, polls, own⟩ := worked.places
  refine sound.moves running notEnded runs (fun polled => polls polled ▸ branch)
    (fun ended => absurd ended notEnds) fun other notOver => ?_
  by_cases same : other = manager
  · rcases own with dequeued | ⟨-, finished⟩
    · exact .inl ⟨same ▸ branch, dequeued⟩
    · rw [same, callOver_eq, finished] at notOver
      exact absurd notOver Bool.true_eq_false_eq_False
  · refine .inr ?_
    rw [callOver_eq, worked.callLeft_other same, ← callOver_eq] at notOver
    obtain ⟨lcore', branch', dequeued⟩ := sound.inCall other notOver
    refine ⟨lcore', fun same' => same ?_, branch', dequeued⟩
    exact Option.some.inj (branch'.symm.trans (same' ▸ branch))

/-- A call that is over is left. -/
theorem Application.Sound.leave {lcore : ℕ} {manager : Manager}
    (branch : managerOf cpus lcore = some manager) (place : app.place lcore = .dequeued)
    (finished : app.system.callOver manager = true) :
    (app.goTo lcore .testing).Sound eal cpus := by
  refine sound.moves (by simp [place]) (by simp [place]) (by simp) (by simp) (by simp)
    fun other notOver => .inr (sound.elsewhere (fun _ other found => ?_) notOver)
  exact Option.some.inj (branch.symm.trans found) ▸ finished

end Step

theorem Application.Sound.step {app next : Application} {label : AppLabel}
    (runsOn : eal.RunsOn cpus) (sound : app.Sound eal cpus)
    (step : AppStep env mgmtEnv eal cpus app label next) : next.Sound eal cpus := by
  cases step with
  | signal sig => exact { sound with flagSeen := fun _ _ => rfl }
  | nic stats system step =>
    refine { sound with inCall := fun manager notOver => ?_ }
    refine sound.inCall manager ?_
    rw [callOver_eq, ← callLeft_nic step manager, ← callOver_eq]
    exact notOver
  | launch worker rest main => exact sound.launch runsOn main
  | launchMain main => exact sound.launchMain main
  | joinMain main ended => exact sound.joinMain main ended
  | joinWorker worker rest main ended => exact sound.joinWorker main ended
  | joined main => exact sound.joined main
  | enter lcore manager place branch =>
    exact sound.moves (by simp [place]) (by simp [place]) (by simp) (by simp) (by simp)
      fun manager notOver => .inr (sound.elsewhere (by simp [place]) notOver)
  | unreachable lcore place branch =>
    obtain ⟨manager, found⟩ := runsOn.manager (sound.inside lcore (by simp [place]))
    exact absurd (branch.symm.trans found) (by simp)
  | test lcore place => exact sound.test place
  | work lcore label manager place system branch here step worked =>
    exact sound.work branch worked
  | leave lcore manager branch place finished => exact sound.leave branch place finished

end TrafficGenerator
