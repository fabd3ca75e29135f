/-
This file is about the order of the two CPUs in the option `cpus`. The main lcore
is the lower one, and the timers of the generator are armed for it, so they
expire only when it is also the one that runs the generator. When it is, the
application can do whatever the system of the two managers can. When it is not,
as with the CPUs of the configuration that comes with the program, a generation
starts, is stopped and reports like any other, and never sends a packet.
-/

import TrafficGenerator.Shutdown
import TrafficGenerator.OffloadRequest

namespace TrafficGenerator

variable {env : Env} {mgmtEnv : MgmtEnv} {eal : Eal} {cpus : Vector UInt16 2} {app : Application}

/-! ### Without callbacks -/

/-- The generator has sent and reported nothing, and every flow is where its generator was
constructed with it. -/
structure GenState.Silent (state : GenState) : Prop where
  sound : state.Sound
  sent : state.manager.ops.sent = []
  reports : ∀ report, ResMsg.generationReport report ∉ state.manager.ops.outMsgs
  fresh : ∀ gen ∈ state.manager.generators, gen.Fresh

theorem GenState.silent_init (workingDir : String) : (GenState.init workingDir).Silent where
  sound := GenState.sound_init workingDir
  sent := rfl
  reports _ := List.not_mem_nil
  fresh _ member := absurd member List.not_mem_nil

/-- Only a callback makes the generator send and report. -/
theorem GenState.Silent.step {state next : GenState} {label : GenLabel} (silent : state.Silent)
    (noFire : ∀ pos flow event, label ≠ .fire pos flow event)
    (step : (genMachine env).step state label = some next) : next.Silent := by
  have sound := silent.sound.step step
  cases (genStep_spec step).2 with
  | dequeue | nic => exact ⟨sound, silent.sent, silent.reports, silent.fresh⟩
  | handle manager msg rest input =>
    refine ⟨sound, (onIncMsg_sent env input msg.msg silent.sound.manager).trans silent.sent,
      fun report member => ?_, ?_⟩
    · obtain ⟨res, answers, outMsgs⟩ := onIncMsg_outMsgs env input msg.msg silent.sound.manager
      rw [outMsgs] at member
      rcases List.mem_append.mp member with before | among
      · exact silent.reports report before
      · rw [← List.mem_singleton.mp among] at answers
        exact absurd answers (by simp [ResMsg.kind])
    · rcases onIncMsg_generators env input msg.msg silent.sound.manager with same | fresh
      · exact fun gen member => silent.fresh gen (same ▸ member)
      · exact fresh
  | tick manager input =>
    refine ⟨sound, (beforeTimers_sent env input silent.sound.manager).trans silent.sent, ?_, ?_⟩
    · rw [beforeTimers_outMsgs env input silent.sound.manager]
      exact silent.reports
    · rcases beforeTimers_generators env input manager with same | none
      · exact fun gen member => silent.fresh gen (same ▸ member)
      · exact fun gen member => absurd (none ▸ member) List.not_mem_nil
  | fire manager next pos flow event => exact absurd rfl (noFire pos flow event)
  | flush manager tx =>
    refine ⟨sound, (flushTxPkts_sent tx manager.ops).trans silent.sent, ?_, silent.fresh⟩
    have same := (flushTxPkts_frame tx manager.ops).2.1
    exact fun report member => silent.reports report (same ▸ member)

/-! ### The lcore of the timers -/

/-- No step changes the lcore of the timers. -/
theorem timerLcore_step {next : Application} {label : AppLabel}
    (step : AppStep env mgmtEnv eal cpus app label next) : next.timerLcore = app.timerLcore := by
  cases step with
  | signal | nic | launch | launchMain | joinMain | joinWorker | joined | enter | unreachable
  | test | work | leave => rfl

/-- With the lower CPU for the management, no callback is run. -/
theorem work_noFire (runsOn : eal.RunsOn cpus) (order : mgmtCpu cpus ≤ genrCpu cpus) {lcore : ℕ}
    (branch : managerOf cpus lcore = some .genr) {pos flow : ℕ} {event : EventIn} :
    timerHere eal.mainLcore lcore (.gen (.fire pos flow event)) = false := by
  obtain ⟨same, different⟩ := managerOf_genr.mp branch
  refine beq_eq_false_iff_ne.mpr fun main => different ?_
  rw [main, runsOn.main]
  exact Nat.min_eq_left order

/-- So the generator stays silent. -/
theorem silent_step {next : Application} {label : AppLabel} (runsOn : eal.RunsOn cpus)
    (order : mgmtCpu cpus ≤ genrCpu cpus) (timer : app.timerLcore = eal.mainLcore)
    (silent : app.system.gen.Silent) (step : AppStep env mgmtEnv eal cpus app label next) :
    next.system.gen.Silent := by
  cases step with
  | nic stats system step => exact silent.step (by simp) (system_gen_part step).2.2
  | work lcore label manager place system branch here step worked =>
    generalize app.place lcore = before at worked
    cases worked with
    | http target req same | mgmtDequeue place count early same | mgmtHandle msg same =>
      exact same ▸ silent
    | genDequeue count msgs same part => exact silent.step (by simp) part
    | gen label same noNic noDequeue part =>
      refine silent.step (fun pos flow event fires => ?_) part
      rw [fires, timer] at here
      exact Bool.false_ne_true ((work_noFire runsOn order branch).symm.trans here)
  | signal | launch | launchMain | joinMain | joinWorker | joined | enter | unreachable | test
  | leave => exact silent

/-! ### Everything the system does -/

/-- The application in its loops: an lcore is in front of the condition, with no call begun, or
behind `dequeue`. -/
structure Application.Ready (cpus : Vector UInt16 2) (app : Application) : Prop where
  reachable : app.unreachable = false
  flag : app.stopFlag = false
  timer : app.timerLcore = genrCpu cpus
  place : ∀ lcore manager, managerOf cpus lcore = some manager →
    app.place lcore = .dequeued ∨ app.place lcore = .testing ∧ app.system.callLeft manager = 0

theorem Application.Ready.alive (ready : app.Ready cpus)
    (running : (app.system.mgmt.aborted || app.system.gen.manager.ops.aborted) = false) :
    app.aborted = false := by
  rw [Application.aborted, running, ready.reachable]
  rfl

theorem goTo_goTo (app : Application) (lcore : ℕ) (first second : LcorePlace) :
    (app.goTo lcore first).goTo lcore second = app.goTo lcore second := by
  rw [Application.goTo, Application.goTo, Application.goTo]
  dsimp only
  rw [Function.update_idem]

/-- An lcore whose manager is in no call can begin one. -/
theorem Application.Ready.calls (ready : app.Ready cpus) (alive : app.aborted = false)
    {lcore : ℕ} {manager : Manager} (branch : managerOf cpus lcore = some manager)
    (finished : app.system.callLeft manager = 0) :
    (appMachine env mgmtEnv eal cpus).Reachable app (app.goTo lcore .called) := by
  have tests (state : Application) (alive : state.aborted = false) (flag : state.stopFlag = false)
      (place : state.place lcore = .testing) :
      (appMachine env mgmtEnv eal cpus).step state (.test lcore) =
        some (state.goTo lcore .called) := by
    rw [step_test alive place, flag]
    rfl
  rcases ready.place lcore manager branch with dequeued | ⟨testing, -⟩
  · have left : (appMachine env mgmtEnv eal cpus).step app (.leave lcore) =
        some (app.goTo lcore .testing) := by
      refine step_leave alive branch dequeued ?_
      rw [callOver_eq, finished]
      rfl
    have called := tests (app.goTo lcore .testing) alive ready.flag (app.goTo_self _ _)
    rw [goTo_goTo] at called
    exact .tail _ (.tail _ (.refl _ _) left) called
  · exact .tail _ (.refl _ _) (tests app alive ready.flag testing)

/-- What a call begins with. -/
theorem Application.Ready.works (ready : app.Ready cpus) (alive : app.aborted = false)
    {lcore : ℕ} {manager : Manager} (branch : managerOf cpus lcore = some manager)
    (finished : app.system.callLeft manager = 0) {label : SystemLabel} {target : LcorePlace}
    {system : System} (part : callPart manager .called label = some target)
    (here : timerHere app.timerLcore lcore label = true)
    (step : app.system.step env mgmtEnv label = some system) :
    (appMachine env mgmtEnv eal cpus).Reachable app { app.goTo lcore target with system } := by
  have begins : callPart manager ((app.goTo lcore .called).place lcore) label = some target := by
    rw [app.goTo_self, part]
  have worked : (appMachine env mgmtEnv eal cpus).step (app.goTo lcore .called)
      (.work lcore label) = some { (app.goTo lcore .called).goTo lcore target with system } :=
    step_work (show (app.goTo lcore .called).aborted = false from alive) branch begins here step
  rw [goTo_goTo] at worked
  exact .tail _ (ready.calls alive branch finished) worked

/-- Back in the loop. -/
theorem Application.Ready.goTo (ready : app.Ready cpus) {lcore : ℕ} {manager : Manager}
    (branch : managerOf cpus lcore = some manager) {system : System}
    (others : ∀ other, other ≠ manager → system.callLeft other = app.system.callLeft other) :
    Application.Ready cpus { app.goTo lcore .dequeued with system } where
  reachable := ready.reachable
  flag := ready.flag
  timer := ready.timer
  place other manager' branch' := by
    by_cases same : other = lcore
    · exact .inl (same ▸ app.goTo_self lcore .dequeued)
    · have different : manager' ≠ manager := fun same' =>
        same (managerOf_inj (branch'.trans (congrArg some same')) branch)
      show (app.goTo lcore .dequeued).place other = _ ∨
        (app.goTo lcore .dequeued).place other = _ ∧ system.callLeft manager' = 0
      rw [app.goTo_other .dequeued same, others manager' different]
      exact ready.place other manager' branch'

/-- A call that is not over goes on. -/
theorem Application.Ready.goesOn (ready : app.Ready cpus) (alive : app.aborted = false)
    {lcore : ℕ} {manager : Manager} (branch : managerOf cpus lcore = some manager)
    (notOver : app.system.callLeft manager ≠ 0) {label : SystemLabel} {system : System}
    (part : callPart manager .dequeued label = some .dequeued)
    (here : timerHere app.timerLcore lcore label = true)
    (step : app.system.step env mgmtEnv label = some system) :
    (appMachine env mgmtEnv eal cpus).Reachable app
      { app.goTo lcore .dequeued with system } := by
  rcases ready.place lcore manager branch with dequeued | ⟨-, finished⟩
  · exact .tail _ (.refl _ _) (step_work alive branch (dequeued ▸ part) here step)
  · exact absurd finished notOver

theorem running_of_step {system next : System} {label : SystemLabel}
    (step : system.step env mgmtEnv label = some next) :
    (system.mgmt.aborted || system.gen.manager.ops.aborted) = false := by
  unfold System.step at step
  split at step
  · exact absurd step (by simp)
  · next alive => exact Bool.not_eq_true _ ▸ alive

/-- An HTTP request reaches no `TG_ENFORCE`. -/
theorem http_running {system next : System} {target req : String}
    (step : system.step env mgmtEnv (.http target req) = some next) :
    (next.mgmt.aborted || next.gen.manager.ops.aborted) = false := by
  have running := running_of_step step
  unfold System.step at step
  rw [running, if_neg Bool.false_ne_true] at step
  simp only [System.mgmtStep] at step
  split at step
  · obtain rfl := Option.some.inj step
    rw [← running]
    exact congrArg (· || system.gen.manager.ops.aborted) (onHttpRequest_requested mgmtEnv
      system.requests target req system.mgmt system.reqQueue).aborted
  · exact absurd step (by simp)

theorem callLeft_of_dequeue {system : System} {gen : GenState} {msgs : List (Tagged ReqMsg)}
    (part : (genMachine env).step system.gen (.dequeue msgs) = some gen) :
    system.callLeft .genr = 0 := by
  rw [System.callLeft]
  have part := (genStep_spec part).2
  generalize system.gen = before at part
  cases part with
  | dequeue => rfl

/-- The generator has parts of a call left when it takes one. -/
theorem callLeft_of_part {system : System} {gen : GenState} {label : GenLabel}
    (part : (genMachine env).step system.gen label = some gen)
    (noDequeue : ∀ msgs, label ≠ .dequeue msgs) (noNic : ∀ stats, label ≠ .nic stats) :
    system.callLeft .genr ≠ 0 := by
  rw [System.callLeft]
  have part := (genStep_spec part).2
  generalize system.gen = before at part
  cases part with
  | dequeue manager msgs => exact absurd rfl (noDequeue msgs)
  | nic manager place stats => exact absurd rfl (noNic stats)
  | handle | tick | fire | flush => exact Nat.succ_ne_zero _

/-- An HTTP request is received in a call that takes no messages off the queue. -/
theorem Application.Ready.reaches_http (ready : app.Ready cpus) {target req : String}
    {system : System} (step : app.system.step env mgmtEnv (.http target req) = some system) :
    (appMachine env mgmtEnv eal cpus).Reachable app
      { app.goTo (mgmtCpu cpus) .dequeued with system } := by
  have alive := ready.alive (running_of_step step)
  have mgmt : managerOf cpus (mgmtCpu cpus) = some .mgmt := managerOf_mgmt.mpr rfl
  have begun : Worked env .mgmt .called (.http target req) .polled app.system system :=
    work_spec rfl step
  cases begun with
  | http target req same before after =>
    have polled : (appMachine env mgmtEnv eal cpus).Reachable app
        { app.goTo (mgmtCpu cpus) .polled with system } :=
      ready.works alive mgmt (congrArg List.length before) rfl rfl step
    have running' := http_running step
    have alive' :
        Application.aborted { app.goTo (mgmtCpu cpus) .polled with system } = false := by
      show (system.mgmt.aborted || system.gen.manager.ops.aborted || app.unreachable) = false
      rw [running', ready.reachable]
      rfl
    have begins : callPart .mgmt ((app.goTo (mgmtCpu cpus) .polled).place (mgmtCpu cpus))
        (.mgmtDequeue 0) = some .dequeued := by
      rw [app.goTo_self]
      rfl
    have dequeued : (appMachine env mgmtEnv eal cpus).step
        { app.goTo (mgmtCpu cpus) .polled with system }
          (.work (mgmtCpu cpus) (.mgmtDequeue 0)) =
        some { (app.goTo (mgmtCpu cpus) .polled).goTo (mgmtCpu cpus) .dequeued with system } :=
      step_work alive' mgmt begins rfl (system_mgmtDequeue_zero running' after)
    rw [goTo_goTo] at dequeued
    exact polled.tail _ dequeued

/-- A step of the system is some steps of the lcore it belongs to. -/
theorem Application.Ready.step (ready : app.Ready cpus) (order : genrCpu cpus < mgmtCpu cpus)
    {label : SystemLabel} {system : System}
    (step : app.system.step env mgmtEnv label = some system) :
    ∃ next, (appMachine env mgmtEnv eal cpus).Reachable app next ∧ next.Ready cpus ∧
      next.system = system := by
  have running := running_of_step step
  have alive := ready.alive running
  have mgmt : managerOf cpus (mgmtCpu cpus) = some .mgmt := managerOf_mgmt.mpr rfl
  have genr : managerOf cpus (genrCpu cpus) = some .genr :=
    managerOf_genr.mpr ⟨rfl, Nat.ne_of_lt order⟩
  have worked {lcore : ℕ} {manager : Manager} (branch : managerOf cpus lcore = some manager)
      (reaches : (appMachine env mgmtEnv eal cpus).Reachable app
        { app.goTo lcore .dequeued with system })
      (others : ∀ other, other ≠ manager → system.callLeft other = app.system.callLeft other) :
      ∃ next, (appMachine env mgmtEnv eal cpus).Reachable app next ∧ next.Ready cpus ∧
        next.system = system := ⟨_, reaches, ready.goTo branch others, rfl⟩
  cases label with
  | http target req =>
    have begun : Worked env .mgmt .called (.http target req) .polled app.system system :=
      work_spec rfl step
    exact worked mgmt (ready.reaches_http step) fun _ => begun.callLeft_other
  | mgmtDequeue count =>
    have begun : Worked env .mgmt .called (.mgmtDequeue count) .dequeued app.system system :=
      work_spec rfl step
    refine worked mgmt ?_ fun _ => begun.callLeft_other
    cases begun with
    | mgmtDequeue place count early same before =>
      exact ready.works alive mgmt (congrArg List.length before) rfl rfl step
  | mgmtHandle =>
    have goesOn : Worked env .mgmt .dequeued .mgmtHandle .dequeued app.system system :=
      work_spec rfl step
    refine worked mgmt ?_ fun _ => goesOn.callLeft_other
    cases goesOn with
    | mgmtHandle msg same batch =>
      refine ready.goesOn alive mgmt (fun finished => ?_) rfl rfl step
      exact absurd (batch_of_callLeft finished) (by simp [batch])
  | genDequeue count =>
    have begun : Worked env .genr .called (.genDequeue count) .dequeued app.system system :=
      work_spec rfl step
    refine worked genr ?_ fun _ => begun.callLeft_other
    cases begun with
    | genDequeue count msgs same part =>
      exact ready.works alive genr (callLeft_of_dequeue part) rfl rfl step
  | gen label =>
    obtain ⟨same, noDequeue, part⟩ := system_gen_part step
    have goesOn (noNic : ∀ stats, label ≠ .nic stats)
        (goes : callPart .genr .dequeued (.gen label) = some .dequeued)
        (here : timerHere app.timerLcore (genrCpu cpus) (.gen label) = true) :
        ∃ next, (appMachine env mgmtEnv eal cpus).Reachable app next ∧ next.Ready cpus ∧
          next.system = system :=
      worked genr (ready.goesOn alive genr (callLeft_of_part part noDequeue noNic) goes here step)
        fun _ => (work_spec goes step).callLeft_other
    cases label with
    | nic stats =>
      refine ⟨_, .tail _ (.refl _ _) (step_nic alive step), { ready with
        place := fun lcore manager branch => ?_ }, rfl⟩
      rw [callLeft_nic step manager]
      exact ready.place lcore manager branch
    | dequeue msgs => exact absurd rfl (noDequeue msgs)
    | handle | tick | flush => exact goesOn (by simp) rfl rfl
    | fire pos flow event => exact goesOn (by simp) rfl (beq_iff_eq.mpr ready.timer.symm)

/-- And a run of the system is a run of the application. -/
theorem Application.Ready.run (ready : app.Ready cpus) (order : genrCpu cpus < mgmtCpu cpus)
    {labels : List SystemLabel} {system : System}
    (run : (systemMachine env mgmtEnv).run app.system labels = some system) :
    ∃ next, (appMachine env mgmtEnv eal cpus).Reachable app next ∧ next.Ready cpus ∧
      next.system = system := by
  induction labels generalizing app with
  | nil => exact ⟨app, .refl _ _, ready, Option.some.inj run⟩
  | cons label rest inductionHypothesis =>
    obtain ⟨middle, step, run⟩ := (Machine.run_cons_eq_some _).mp run
    obtain ⟨next, reaches, nextReady, rfl⟩ := ready.step order step
    obtain ⟨final, more, finalReady, same⟩ := inductionHypothesis nextReady run
    exact ⟨final, reaches.trans _ more, finalReady, same⟩

/-! ### Into the loops -/

/-- With different CPUs there is one worker. -/
theorem Eal.RunsOn.workers_eq (runsOn : eal.RunsOn cpus) (order : genrCpu cpus < mgmtCpu cpus) :
    eal.mainLcore = genrCpu cpus ∧ eal.workers = [mgmtCpu cpus] := by
  have main : eal.mainLcore = genrCpu cpus :=
    runsOn.main.trans (Nat.min_eq_right (Nat.le_of_lt order))
  obtain ⟨notMain, nodup⟩ := List.nodup_cons.mp runsOn.nodup
  have only : ∀ lcore ∈ eal.workers, lcore = mgmtCpu cpus := by
    intro lcore among
    rcases (runsOn.lcores lcore).mp (List.mem_cons_of_mem _ among) with same | same
    · exact same
    · exact absurd (same.trans main.symm ▸ among) notMain
  have among : mgmtCpu cpus ∈ eal.workers := by
    rcases List.mem_cons.mp ((runsOn.lcores _).mpr (.inl rfl)) with same | among
    · exact absurd (same.trans main) (Nat.ne_of_gt order)
    · exact among
  refine ⟨main, ?_⟩
  cases workers : eal.workers with
  | nil => exact absurd (workers ▸ among) List.not_mem_nil
  | cons first rest =>
    cases rest with
    | nil => rw [only first (workers ▸ List.mem_cons_self)]
    | cons second rest =>
      rw [workers] at nodup only
      have same := (only first List.mem_cons_self).trans
        (only second (List.mem_cons_of_mem _ List.mem_cons_self)).symm
      exact absurd (same ▸ List.mem_cons_self) (List.nodup_cons.mp nodup).1

/-- The application gets into its loops. -/
theorem reaches_ready (runsOn : eal.RunsOn cpus) (order : genrCpu cpus < mgmtCpu cpus)
    (workingDir : String) :
    ∃ app, (appMachine env mgmtEnv eal cpus).Reachable (.init eal workingDir) app ∧
      app.Ready cpus ∧ app.system = .init workingDir := by
  obtain ⟨main, workers⟩ := runsOn.workers_eq order
  have apart : mgmtCpu cpus ≠ eal.mainLcore := fun same =>
    Nat.ne_of_gt order (same.trans main)
  have mgmt : managerOf cpus (mgmtCpu cpus) = some .mgmt := managerOf_mgmt.mpr rfl
  have genr : managerOf cpus eal.mainLcore = some .genr :=
    managerOf_genr.mpr ⟨main, apart.symm⟩
  -- the worker is launched, the main lcore calls `run` itself, and both enter their loops
  let first : Application :=
    { (Application.init eal workingDir).goTo (mgmtCpu cpus) .launched with main := .launching [] }
  let second : Application := { first.goTo eal.mainLcore .launched with main := .running }
  let third := second.goTo (mgmtCpu cpus) .testing
  have launched : (appMachine env mgmtEnv eal cpus).step (.init eal workingDir) .launch =
      some first := step_launch rfl (congrArg MainPlace.launching workers)
  have launchedMain : (appMachine env mgmtEnv eal cpus).step first .launch = some second :=
    step_launchMain rfl rfl
  have entered : (appMachine env mgmtEnv eal cpus).step second (.enter (mgmtCpu cpus)) =
      some third := by
    refine step_enter rfl ?_ mgmt
    exact (first.goTo_other .launched apart).trans (Application.goTo_self _ _ _)
  have enteredMain : (appMachine env mgmtEnv eal cpus).step third (.enter eal.mainLcore) =
      some (third.goTo eal.mainLcore .testing) := by
    refine step_enter rfl ?_ genr
    exact (second.goTo_other .testing apart.symm).trans (first.goTo_self _ _)
  refine ⟨_, .tail _ (.tail _ (.tail _ (.tail _ (.refl _ _) launched) launchedMain) entered)
    enteredMain, ⟨rfl, rfl, main, fun lcore manager branch => .inr ?_⟩, rfl⟩
  cases manager with
  | mgmt =>
    rw [managerOf_mgmt.mp branch]
    exact ⟨(third.goTo_other .testing apart).trans (second.goTo_self _ _), rfl⟩
  | genr =>
    rw [(managerOf_genr.mp branch).1, ← main]
    exact ⟨third.goTo_self _ _, rfl⟩

/-- What the application can do depends on the order of its CPUs. With the lower one for the
generator, it reaches exactly the states that the system of the two managers reaches. Otherwise no
run of it, whatever is requested, ever sends a packet or reports one, and every flow stays at its
first packet. -/
theorem application_exact (env : Env) (mgmtEnv : MgmtEnv) (eal : Eal) (cpus : Vector UInt16 2)
    (runsOn : eal.RunsOn cpus) (workingDir : String) :
    (genrCpu cpus < mgmtCpu cpus → ∀ system,
      (∃ app, (appMachine env mgmtEnv eal cpus).Reachable (.init eal workingDir) app ∧
        app.system = system) ↔
      (systemMachine env mgmtEnv).Reachable (.init workingDir) system) ∧
    (mgmtCpu cpus ≤ genrCpu cpus → ∀ app,
      (appMachine env mgmtEnv eal cpus).Reachable (.init eal workingDir) app →
      app.system.gen.manager.ops.sent = [] ∧
      (∀ report, ResMsg.generationReport report ∉ app.system.gen.manager.ops.outMsgs) ∧
      ∀ gen ∈ app.system.gen.manager.generators, ∀ flow ∈ gen.flows,
        flow.cntPkts = 0 ∧ flow.pktIdx = 0) := by
  refine ⟨fun order system => ⟨?_, ?_⟩, fun order app reaches => ?_⟩
  · rintro ⟨app, ⟨labels, run⟩, rfl⟩
    exact (appMachine env mgmtEnv eal cpus).run_project (systemMachine env mgmtEnv)
      Application.system (fun _ => True) (fun _ _ _ _ _ => trivial)
      (fun _ _ _ _ step => reaches_of_appStep (appStep_spec step).2) trivial run
  · rintro ⟨labels, run⟩
    obtain ⟨app, reaches, ready, start⟩ := reaches_ready runsOn order workingDir
    rw [← start] at run
    obtain ⟨final, more, -, same⟩ := ready.run order run
    exact ⟨final, reaches.trans _ more, same⟩
  · have silent := reaches.invariant _
      (fun state => state.timerLcore = eal.mainLcore ∧ state.system.gen.Silent)
      ⟨rfl, GenState.silent_init workingDir⟩ fun state label next holds step =>
        ⟨(timerLcore_step (appStep_spec step).2).trans holds.1,
          silent_step runsOn order holds.1 holds.2 (appStep_spec step).2⟩
    exact ⟨silent.2.sent, silent.2.reports, fun gen member => (silent.2.fresh gen member).unused⟩

/-- The same CPUs the other way round. -/
def reversedCpus : Vector UInt16 2 := #v[2, 1]

theorem shippedEal_runsOn_reversed : shippedEal.RunsOn reversedCpus where
  lcores lcore := by
    show lcore ∈ [1, 2] ↔ lcore = 2 ∨ lcore = 1
    rw [List.mem_cons, List.mem_singleton, or_comm]
  nodup := by decide
  main := rfl

/-- A generation is started and its timers are managed. -/
def startedOnLcores : List AppLabel :=
  [.launch, .launch, .enter 1, .enter 2, .test 1, .work 1 (.http "/start_gen" "one flow"), .test 2,
    .work 2 (.genDequeue 1), .work 2 (.gen (.handle {})), .work 2 (.gen (.tick (tickAt 0 1)))]

/-- The first flow of the generation sends its first packet. -/
def firstPacket : List SystemLabel :=
  [.http "/start_gen" "one flow", .genDequeue 1, .gen (.handle {}), .gen (.tick (tickAt 0 1)),
    .gen (.fire 0 0 ⟨0, TxAnswer.all⟩)]

theorem application_exact_orders :
    (∃ app, (appMachine (sampleEnv samplePool) sampleMgmt shippedEal shippedCpus).Reachable
        (.init shippedEal "") app ∧ app.system.gen.manager.generationStarted = true ∧
      app.system.gen.manager.ops.sent = []) ∧
    ∃ app, (appMachine (sampleEnv samplePool) sampleMgmt shippedEal reversedCpus).Reachable
        (.init shippedEal "") app ∧ app.system.gen.manager.ops.sent ≠ [] := by
  constructor
  · have runs : ((appMachine (sampleEnv samplePool) sampleMgmt shippedEal shippedCpus).run
        (.init shippedEal "") startedOnLcores).map
          (fun app => app.system.gen.manager.generationStarted) = some true := by
      decide +kernel
    obtain ⟨app, run, started⟩ := Option.map_eq_some_iff.mp runs
    have exact := application_exact (sampleEnv samplePool) sampleMgmt shippedEal shippedCpus
      shippedEal_runsOn ""
    exact ⟨app, ⟨_, run⟩, started, (exact.2 (by decide) app ⟨_, run⟩).1⟩
  · have runs : ((systemMachine (sampleEnv samplePool) sampleMgmt).run (.init "")
        firstPacket).map (fun system => system.gen.manager.ops.sent.isEmpty) = some false := by
      decide +kernel
    obtain ⟨system, run, sends⟩ := Option.map_eq_some_iff.mp runs
    have exact := application_exact (sampleEnv samplePool) sampleMgmt shippedEal reversedCpus
      shippedEal_runsOn_reversed ""
    obtain ⟨app, reaches, rfl⟩ := (exact.1 (by decide) system).mpr ⟨_, run⟩
    exact ⟨app, reaches, List.isEmpty_eq_false_iff.mp sends⟩

end TrafficGenerator
