/-
This file proves that SIGINT and SIGTERM stop the application, wherever its
threads are. Behind the flag no loop calls `process_events` again, so all that
is left are the parts of the calls which the lcores are in, and each step but
the callbacks of timers brings the end nearer. There is such a step until `run`
of the application returns, and then no message is left half handled.
-/

import Mathlib.Algebra.Group.Action.Defs
import Mathlib.Algebra.Order.BigOperators.Group.List
import Mathlib.Algebra.Order.Group.Nat
import TrafficGenerator.ApplicationSteps
import TrafficGenerator.Drain

namespace TrafficGenerator

variable {env : Env} {mgmtEnv : MgmtEnv} {eal : Eal} {cpus : Vector UInt16 2} {app : Application}

/-! ### What is left -/

/-- The steps of the application's threads but the callbacks of timers, of which
`rte_timer_manage` may run any number. -/
def AppLabel.goesOn : AppLabel → Bool
  | .signal _ => false
  | .nic _ => false
  | .work _ (.gen (.fire _ _ _)) => false
  | _ => true

/-- An lcore takes messages off the queue of its manager. -/
def AppLabel.takes (lcore : ℕ) : AppLabel → Bool
  | .work other (.mgmtDequeue _) => other == lcore
  | .work other (.genDequeue _) => other == lcore
  | _ => false

/-- How many steps an lcore has left at a place. -/
def System.placeLeft (system : System) (manager : Manager) : LcorePlace → ℕ
  | .wait => 3
  | .launched => 2
  | .testing => 1
  | .called => 13
  | .polled => 12
  | .dequeued => system.callLeft manager + 2
  | .ended => 0

/-- How many steps the thread of an lcore has left. -/
def Application.lcoreLeft (cpus : Vector UInt16 2) (app : Application) (lcore : ℕ) : ℕ :=
  (managerOf cpus lcore).elim 0 fun manager => app.system.placeLeft manager (app.place lcore)

/-- How many steps `application::run` has left itself, where `rte_eal_mp_remote_launch` counts
for the lcores that it launches. -/
def MainPlace.left (eal : Eal) : MainPlace → ℕ
  | .launching _ => eal.workers.length + 2
  | .running => eal.workers.length + 2
  | .waiting rest => rest.length + 1
  | .returned => 0

/-- How many steps are left. -/
def Application.left (eal : Eal) (cpus : Vector UInt16 2) (app : Application) : ℕ :=
  app.main.left eal + ((eal.mainLcore :: eal.workers).map (app.lcoreLeft cpus)).sum

/-- A sum one of whose terms gets smaller. -/
theorem sum_map_add_le {lcores : List ℕ} {before after : ℕ → ℕ} {lcore count : ℕ}
    (member : lcore ∈ lcores) (paid : after lcore + count ≤ before lcore)
    (others : ∀ other, other ≠ lcore → after other ≤ before other) :
    (lcores.map after).sum + count ≤ (lcores.map before).sum := by
  have each (other : ℕ) : after other ≤ before other := by
    by_cases same : other = lcore
    · exact same ▸ Nat.le_of_add_right_le paid
    · exact others other same
  induction lcores with
  | nil => exact absurd member List.not_mem_nil
  | cons first rest inductionHypothesis =>
    simp only [List.map_cons, List.sum_cons]
    rcases List.mem_cons.mp member with rfl | among
    · have more := List.sum_le_sum fun other (_ : other ∈ rest) => each other
      omega
    · have fewer := inductionHypothesis among
      have here := each first
      omega

theorem lcoreLeft_of_manager {lcore : ℕ} {manager : Manager}
    (branch : managerOf cpus lcore = some manager) :
    app.lcoreLeft cpus lcore = app.system.placeLeft manager (app.place lcore) := by
  rw [Application.lcoreLeft, branch, Option.elim_some]

/-- A part of a call is one part less. -/
theorem Worked.placeLeft_add_goesOn_le {manager : Manager} {before after : LcorePlace}
    {label : SystemLabel} {system next : System}
    (worked : Worked env manager before label after system next)
    (lcore : ℕ) :
    next.placeLeft manager after + (AppLabel.work lcore label).goesOn.toNat ≤
      system.placeLeft manager before := by
  cases worked with
  | http target req => exact Nat.le_refl 13
  | mgmtDequeue place count early same before batch =>
    have few : next.mgmtBatch.length ≤ 8 := batch
    rcases early with rfl | rfl
    · show next.mgmtBatch.length + 2 + 1 ≤ 13
      omega
    · show next.mgmtBatch.length + 2 + 1 ≤ 12
      omega
  | mgmtHandle msg same batch =>
    show next.mgmtBatch.length + 2 + 1 ≤ system.mgmtBatch.length + 2
    rw [batch, List.length_cons]
  | genDequeue count msgs same part =>
    show next.callLeft .genr + 2 + 1 ≤ 13
    rw [System.callLeft]
    have part := (genStep_spec part).2
    generalize system.gen = first, next.gen = last at part
    cases part with
    | dequeue manager msgs batch =>
      have few : msgs.length ≤ 8 := batch
      exact Nat.add_le_add_right few 5
  | gen label same noNic noDequeue part =>
    show next.callLeft .genr + 2 + _ ≤ system.callLeft .genr + 2
    rw [System.callLeft, System.callLeft]
    have part := (genStep_spec part).2
    generalize system.gen = first, next.gen = last at part
    cases part with
    | dequeue manager msgs batch => exact absurd rfl (noDequeue msgs)
    | handle manager msg rest input =>
      show rest.length + 2 + 2 + 1 ≤ rest.length + 1 + 2 + 2
      omega
    | tick manager input =>
      cases (beforeTimers env input manager).1 with
      | true => exact Nat.le_refl 4
      | false => exact Nat.le_succ 3
    | fire manager next pos flow event run => exact Nat.le_refl 3
    | flush manager tx => exact Nat.le_refl 3
    | nic manager place stats => exact absurd rfl (noNic stats)

/-- A thread that takes a step has fewer of them left, and the others have not more. -/
theorem left_goTo {lcore count : ℕ} {target : LcorePlace} {system : System} {main : MainPlace}
    {manager : Manager} (member : lcore ∈ eal.mainLcore :: eal.workers)
    (branch : managerOf cpus lcore = some manager)
    (paid : system.placeLeft manager target + count ≤
      app.system.placeLeft manager (app.place lcore))
    (others : ∀ other, other ≠ manager → system.callLeft other = app.system.callLeft other)
    (mainPaid : main.left eal ≤ app.main.left eal) :
    Application.left eal cpus { app.goTo lcore target with system, main } + count ≤
      app.left eal cpus := by
  have fewer : ((eal.mainLcore :: eal.workers).map (Application.lcoreLeft cpus
      { app.goTo lcore target with system, main })).sum + count ≤
        ((eal.mainLcore :: eal.workers).map (app.lcoreLeft cpus)).sum := by
    refine sum_map_add_le member ?_ fun other different => ?_
    · rw [lcoreLeft_of_manager branch, lcoreLeft_of_manager branch]
      show system.placeLeft manager ((app.goTo lcore target).place lcore) + count ≤ _
      rwa [app.goTo_self]
    · rw [Application.lcoreLeft, Application.lcoreLeft]
      show (managerOf cpus other).elim 0 (fun manager =>
        system.placeLeft manager ((app.goTo lcore target).place other)) ≤ _
      rw [app.goTo_other target different]
      cases branch' : managerOf cpus other with
      | none => exact Nat.le_refl 0
      | some manager' =>
        have apart : manager' ≠ manager := fun same =>
          different (managerOf_inj (branch'.trans (congrArg some same)) branch)
        show system.placeLeft manager' (app.place other) ≤
          app.system.placeLeft manager' (app.place other)
        cases app.place other with
        | dequeued => exact Nat.le_of_eq (congrArg (· + 2) (others manager' apart))
        | wait | launched | testing | called | polled | ended => exact Nat.le_refl _
  rw [Application.left, Application.left]
  show main.left eal + _ + count ≤ _
  omega

/-- Only `application::run` has gone on. -/
theorem left_main {main : MainPlace} (paid : main.left eal + 1 ≤ app.main.left eal) :
    Application.left eal cpus { app with main } + 1 ≤ app.left eal cpus := by
  have same : Application.lcoreLeft cpus { app with main } = app.lcoreLeft cpus := rfl
  rw [Application.left, Application.left, same]
  show main.left eal + _ + 1 ≤ _
  omega

/-- A thread has gone on without a part of a call. -/
theorem left_moves {lcore : ℕ} {target : LcorePlace} {main : MainPlace}
    (runsOn : eal.RunsOn cpus) (member : lcore ∈ eal.mainLcore :: eal.workers)
    (paid : ∀ manager, app.system.placeLeft manager target + 1 ≤
      app.system.placeLeft manager (app.place lcore))
    (mainPaid : main.left eal ≤ app.main.left eal) :
    Application.left eal cpus { app.goTo lcore target with main } + 1 ≤ app.left eal cpus := by
  obtain ⟨manager, branch⟩ := runsOn.manager member
  exact left_goTo member branch (paid manager) (fun _ _ => rfl) mainPaid

/-- An lcore that waits has been launched. -/
theorem left_launched {lcore : ℕ} {main : MainPlace} (runsOn : eal.RunsOn cpus)
    (member : lcore ∈ eal.mainLcore :: eal.workers) (waits : app.place lcore = .wait)
    (mainPaid : main.left eal ≤ app.main.left eal) :
    Application.left eal cpus { app.goTo lcore .launched with main } + 1 ≤ app.left eal cpus := by
  refine left_moves runsOn member (fun manager => ?_) mainPaid
  rw [waits]
  exact Nat.le_refl 3

/-- The counters of the NIC leave as many steps. -/
theorem left_nic {system : System} {stats : EthStats}
    (step : app.system.step env mgmtEnv (.gen (.nic stats)) = some system) :
    Application.left eal cpus { app with system } = app.left eal cpus := by
  have same : Application.lcoreLeft cpus { app with system } = app.lcoreLeft cpus := by
    funext lcore
    rw [Application.lcoreLeft, Application.lcoreLeft]
    cases managerOf cpus lcore with
    | none => rfl
    | some manager =>
      show system.placeLeft manager (app.place lcore) =
        app.system.placeLeft manager (app.place lcore)
      cases app.place lcore with
      | dequeued => exact congrArg (· + 2) (callLeft_nic step manager)
      | wait | launched | testing | called | polled | ended => rfl
  rw [Application.left, Application.left, same]

/-- Behind the flag, every step but the callbacks of timers leaves one step less. -/
theorem left_add_goesOn_le {next : Application} {label : AppLabel} (runsOn : eal.RunsOn cpus)
    (sound : app.Sound eal cpus) (flag : app.stopFlag = true)
    (step : AppStep env mgmtEnv eal cpus app label next) :
    next.left eal cpus + label.goesOn.toNat ≤ app.left eal cpus := by
  have knows := sound.knows
  cases step with
  | signal sig => exact Nat.le_refl _
  | nic stats system step => exact Nat.le_of_eq (left_nic step)
  | launch worker rest main =>
    rw [main] at knows
    have member := List.mem_cons_of_mem eal.mainLcore (knows.2.1 List.mem_cons_self)
    have waits := (knows.2.2 worker member).mpr (.inr List.mem_cons_self)
    refine left_launched runsOn member waits ?_
    rw [main]
    exact Nat.le_refl _
  | launchMain main =>
    rw [main] at knows
    have waits := (knows.2.2 _ List.mem_cons_self).mpr (.inl rfl)
    refine left_launched runsOn List.mem_cons_self waits ?_
    rw [main]
    exact Nat.le_refl _
  | joinMain main | joinWorker worker rest main | joined main =>
    refine left_main ?_
    rw [main]
    exact Nat.le_refl _
  | enter lcore manager place branch =>
    refine left_moves runsOn (sound.inside lcore (by simp [place])) (fun _ => ?_) (Nat.le_refl _)
    rw [place]
    exact Nat.le_refl 2
  | unreachable lcore place branch =>
    obtain ⟨manager, found⟩ := runsOn.manager (sound.inside lcore (by simp [place]))
    exact absurd (branch.symm.trans found) (by simp)
  | test lcore place =>
    rw [if_pos flag]
    refine left_moves runsOn (sound.inside lcore (by simp [place])) (fun _ => ?_) (Nat.le_refl _)
    rw [place]
    exact Nat.le_refl 1
  | work lcore label manager place system branch here step worked =>
    exact left_goTo (sound.inside lcore worked.places.1) branch
      (worked.placeLeft_add_goesOn_le lcore)
      (fun _ different => worked.callLeft_other different) (Nat.le_refl _)
  | leave lcore manager branch place finished =>
    refine left_moves runsOn (sound.inside lcore (by simp [place])) (fun _ => ?_) (Nat.le_refl _)
    rw [place]
    exact Nat.le_add_left 2 _

/-! ### No call begins -/

/-- Whether an lcore is in a call and has not taken messages off the queue yet. -/
def LcorePlace.early : LcorePlace → ℕ
  | .called => 1
  | .polled => 1
  | _ => 0

theorem early_goTo {lcore other : ℕ} {target : LcorePlace} (taken : Bool)
    (only : taken = true → other = lcore)
    (paid : target.early + taken.toNat ≤ (app.place other).early) :
    ((app.goTo other target).place lcore).early + taken.toNat ≤ (app.place lcore).early := by
  by_cases same : lcore = other
  · obtain rfl := same
    rwa [app.goTo_self]
  · rw [app.goTo_other target same]
    cases taken with
    | true => exact absurd (only rfl).symm same
    | false => exact Nat.le_refl _

/-- Taking messages is what a call begins with. -/
theorem Worked.early_add_takes_le {manager : Manager} {before after : LcorePlace}
    {label : SystemLabel} {system next : System}
    (worked : Worked env manager before label after system next)
    (other lcore : ℕ) :
    after.early + ((AppLabel.work other label).takes lcore).toNat ≤ before.early := by
  have most (taken : Bool) : 0 + taken.toNat ≤ 1 := by cases taken <;> decide
  cases worked with
  | http => exact Nat.le_refl 1
  | mgmtDequeue place count early =>
    rcases early with rfl | rfl
    · exact most _
    · exact most _
  | genDequeue => exact most _
  | mgmtHandle | gen => exact Nat.le_refl 0

/-- Behind the flag, what an lcore takes off a queue it takes in the call that it is in. -/
theorem early_add_takes_le {next : Application} {label : AppLabel} (flag : app.stopFlag = true)
    (step : AppStep env mgmtEnv eal cpus app label next) (lcore : ℕ) :
    (next.place lcore).early + (label.takes lcore).toNat ≤ (app.place lcore).early := by
  cases step with
  | signal | nic | joinMain | joinWorker | joined | unreachable => exact Nat.le_refl _
  | launch | launchMain | enter | leave =>
    exact early_goTo false (by simp) (Nat.zero_le _)
  | test other place =>
    rw [if_pos flag]
    exact early_goTo false (by simp) (Nat.zero_le _)
  | work other label manager place system branch here step worked =>
    refine early_goTo _ (fun taken => ?_) (worked.early_add_takes_le other lcore)
    cases label with
    | mgmtDequeue | genDequeue => exact beq_iff_eq.mp taken
    | http | mgmtHandle | gen => exact absurd taken Bool.false_ne_true

/-! ### There is a next step -/

theorem batch_of_callLeft {system : System} (finished : system.callLeft .mgmt = 0) :
    system.mgmtBatch = [] := List.length_eq_zero_iff.mp finished

theorem idle_of_callLeft {system : System} (finished : system.callLeft .genr = 0) :
    system.gen.place = .idle := by
  rw [System.callLeft] at finished
  cases place : system.gen.place with
  | idle => rfl
  | handling msgs => exact absurd (place ▸ finished) (by simp)
  | timers => exact absurd (place ▸ finished) (by simp)

/-- Taking no messages off the queue changes nothing. -/
theorem system_mgmtDequeue_zero {system : System}
    (running : (system.mgmt.aborted || system.gen.manager.ops.aborted) = false)
    (batch : system.mgmtBatch = []) :
    system.step env mgmtEnv (.mgmtDequeue 0) = some system := by
  have step : system.mgmtStep mgmtEnv (.mgmtDequeue 0) = some system := by
    rw [System.mgmtStep, if_pos ⟨batch, Nat.zero_le _⟩, BoundedFifo.pop_zero, Option.map_some,
      ← batch]
  have moved : (systemMachine env mgmtEnv).step system (.mgmtDequeue 0) = some system :=
    systemStep_of_mgmtStep running step
  exact moved

/-- Before `dequeue`, an empty batch can be taken off the queue. -/
theorem call_begins {system : System}
    (running : (system.mgmt.aborted || system.gen.manager.ops.aborted) = false)
    {manager : Manager} {place : LcorePlace}
    (early : place = .called ∨ place = .polled ∧ manager = .mgmt)
    (finished : system.callLeft manager = 0) (lcore : ℕ) :
    ∃ label next, callPart manager place label = some .dequeued ∧
      (AppLabel.work lcore label).goesOn = true ∧
        (∀ timerLcore, timerHere timerLcore lcore label = true) ∧
          system.step env mgmtEnv label = some next := by
  cases manager with
  | mgmt =>
    refine ⟨.mgmtDequeue 0, system, ?_, rfl, fun _ => rfl,
      system_mgmtDequeue_zero running (batch_of_callLeft finished)⟩
    rcases early with rfl | ⟨rfl, -⟩
    · rfl
    · rfl
  | genr =>
    have idle := idle_of_callLeft finished
    have alive := (Bool.or_eq_false_iff.mp running).2
    have step : system.genStep env (.genDequeue 0) =
        some { system with gen := { system.gen with place := .handling [] } } := by
      rw [System.genStep, BoundedFifo.pop_zero, Option.bind_some,
        show TrafficGenerator.genStep env system.gen _ = _ from
          step_part alive (genPart_dequeue idle (Nat.zero_le _))]
      rfl
    have moved : (systemMachine env mgmtEnv).step system (.genDequeue 0) = some _ :=
      systemStep_of_genStep running step
    refine ⟨.genDequeue 0, _, ?_, rfl, fun _ => rfl, moved⟩
    rcases early with rfl | ⟨-, other⟩
    · rfl
    · exact absurd other (by simp)

/-- Behind `dequeue`, a call that is not over has a next part. -/
theorem call_goesOn {system : System}
    (running : (system.mgmt.aborted || system.gen.manager.ops.aborted) = false)
    {manager : Manager} (notOver : system.callLeft manager ≠ 0) (lcore : ℕ) :
    ∃ label next, callPart manager .dequeued label = some .dequeued ∧
      (AppLabel.work lcore label).goesOn = true ∧
        (∀ timerLcore, timerHere timerLcore lcore label = true) ∧
          system.step env mgmtEnv label = some next := by
  obtain ⟨mgmtAlive, genAlive⟩ := Bool.or_eq_false_iff.mp running
  cases manager with
  | mgmt =>
    cases batch : system.mgmtBatch with
    | nil => exact absurd (congrArg List.length batch) notOver
    | cons msg rest =>
      have step : system.mgmtStep mgmtEnv .mgmtHandle = some { system with
          mgmt := onResMsg mgmtEnv system.mgmt msg.msg
          mgmtBatch := rest } := by
        rw [System.mgmtStep, batch]
      have moved : (systemMachine env mgmtEnv).step system .mgmtHandle = some _ :=
        systemStep_of_mgmtStep running step
      exact ⟨.mgmtHandle, _, rfl, rfl, fun _ => rfl, moved⟩
  | genr =>
    have moves {label : GenLabel} {gen : GenState} (notDequeue : ∀ msgs, label ≠ .dequeue msgs)
        (part : genPart env system.gen label = some gen) :
        ∃ next, (systemMachine env mgmtEnv).step system (.gen label) = some next :=
      ⟨_, gen_step mgmtAlive notDequeue (step_part genAlive part)⟩
    rw [System.callLeft] at notOver
    cases place : system.gen.place with
    | idle => exact absurd rfl (place ▸ notOver)
    | timers =>
      obtain ⟨next, moved⟩ := moves (by simp) (genPart_flush TxAnswer.all place)
      exact ⟨.gen (.flush TxAnswer.all), next, rfl, rfl, fun _ => rfl, moved⟩
    | handling msgs =>
      cases msgs with
      | nil =>
        obtain ⟨next, moved⟩ := moves (by simp) (genPart_tick {} place)
        exact ⟨.gen (.tick {}), next, rfl, rfl, fun _ => rfl, moved⟩
      | cons msg rest =>
        obtain ⟨next, moved⟩ := moves (by simp) (genPart_handle {} place)
        exact ⟨.gen (.handle {}), next, rfl, rfl, fun _ => rfl, moved⟩

/-- A manager is in no call when its lcore is not behind `dequeue`. -/
theorem Application.Sound.callLeft_eq_zero (sound : app.Sound eal cpus) {lcore : ℕ}
    {manager : Manager} (branch : managerOf cpus lcore = some manager)
    (out : app.place lcore ≠ .dequeued) : app.system.callLeft manager = 0 := by
  by_contra notOver
  have inCall : app.system.callOver manager = false := by
    rw [callOver_eq]
    exact beq_eq_false_iff_ne.mpr notOver
  obtain ⟨other, branch', dequeued⟩ := sound.inCall manager inCall
  exact out (managerOf_inj branch branch' ▸ dequeued)

/-- An lcore that runs has a next step. -/
theorem Application.Sound.lcore_goesOn (runsOn : eal.RunsOn cpus) (sound : app.Sound eal cpus)
    (alive : app.aborted = false) {lcore : ℕ} (launched : app.place lcore ≠ .wait)
    (notEnded : app.place lcore ≠ .ended) :
    ∃ label next, label.goesOn = true ∧
      (appMachine env mgmtEnv eal cpus).step app label = some next := by
  obtain ⟨manager, branch⟩ := runsOn.manager (sound.inside lcore launched)
  have running := (Bool.or_eq_false_iff.mp alive).1
  have begins (early : app.place lcore = .called ∨ app.place lcore = .polled ∧ manager = .mgmt)
      (out : app.place lcore ≠ .dequeued) : ∃ label next, label.goesOn = true ∧
        (appMachine env mgmtEnv eal cpus).step app label = some next := by
    obtain ⟨label, next, part, goesOn, here, step⟩ :=
      call_begins running early (sound.callLeft_eq_zero branch out) lcore
    exact ⟨.work lcore label, _, goesOn, step_work alive branch part (here _) step⟩
  cases place : app.place lcore with
  | wait => exact absurd place launched
  | ended => exact absurd place notEnded
  | launched => exact ⟨.enter lcore, _, rfl, step_enter alive place branch⟩
  | testing => exact ⟨.test lcore, _, rfl, step_test alive place⟩
  | called => exact begins (.inl place) (by simp [place])
  | polled =>
    have mgmt := Option.some.inj (branch.symm.trans (sound.polled lcore place))
    exact begins (.inr ⟨place, mgmt⟩) (by simp [place])
  | dequeued =>
    by_cases finished : app.system.callLeft manager = 0
    · refine ⟨.leave lcore, _, rfl, step_leave alive branch place ?_⟩
      rw [callOver_eq, finished]
      rfl
    · obtain ⟨label, next, part, goesOn, here, step⟩ := call_goesOn running finished lcore
      exact ⟨.work lcore label, _, goesOn, step_work alive branch (place ▸ part) (here _) step⟩

/-- Until `run` of the application has returned, there is a next step. -/
theorem Application.Sound.goesOn (runsOn : eal.RunsOn cpus) (sound : app.Sound eal cpus) :
    app.main = .returned ∨ app.aborted = true ∨ ∃ label next, label.goesOn = true ∧
      (appMachine env mgmtEnv eal cpus).step app label = some next := by
  cases aborted : app.aborted with
  | true => exact .inr (.inl rfl)
  | false =>
    have knows := sound.knows
    cases main : app.main with
    | returned => exact .inl rfl
    | launching workers =>
      refine .inr (.inr ⟨.launch, ?_⟩)
      cases workers with
      | nil => exact ⟨_, rfl, step_launchMain aborted main⟩
      | cons worker rest => exact ⟨_, rfl, step_launch aborted main⟩
    | running =>
      rw [main] at knows
      refine .inr (.inr ?_)
      by_cases ended : app.place eal.mainLcore = .ended
      · exact ⟨.join, _, rfl, step_joinMain aborted main ended⟩
      · exact sound.lcore_goesOn runsOn aborted (knows _ List.mem_cons_self) ended
    | waiting workers =>
      rw [main] at knows
      refine .inr (.inr ?_)
      cases workers with
      | nil => exact ⟨.join, _, rfl, step_joined aborted main⟩
      | cons worker rest =>
        by_cases ended : app.place worker = .ended
        · exact ⟨.join, _, rfl, step_joinWorker aborted main ended⟩
        · exact sound.lcore_goesOn runsOn aborted
            (knows.2 worker (List.mem_cons_of_mem _ (knows.1.subset List.mem_cons_self))).1 ended

/-! ### The end -/

/-- The lcores are two at most. -/
theorem Eal.RunsOn.length_le (runsOn : eal.RunsOn cpus) :
    (eal.mainLcore :: eal.workers).length ≤ 2 := by
  have among : eal.mainLcore :: eal.workers ⊆ [mgmtCpu cpus, genrCpu cpus] := by
    intro lcore member
    rcases (runsOn.lcores lcore).mp member with rfl | rfl
    · exact List.mem_cons_self
    · exact List.mem_cons_of_mem _ List.mem_cons_self
  exact (List.subperm_of_subset runsOn.nodup among).length_le

/-- The batches are short, so a call never has more than ten steps left. -/
theorem Worked.callLeft_le {manager : Manager} {before after : LcorePlace} {label : SystemLabel}
    {system next : System} (worked : Worked env manager before label after system next)
    (bounded : system.callLeft manager ≤ 10) : next.callLeft manager ≤ 10 := by
  have paid := worked.placeLeft_add_goesOn_le 0
  cases worked with
  | http target req same before empty =>
    rw [System.callLeft, empty]
    exact Nat.zero_le 10
  | mgmtDequeue place count early same before batch =>
    exact Nat.le_trans (show next.mgmtBatch.length ≤ 8 from batch) (by decide)
  | mgmtHandle msg same batch =>
    rw [System.callLeft, batch, List.length_cons] at bounded
    exact Nat.le_of_succ_le bounded
  | genDequeue count msgs same part =>
    exact Nat.le_of_add_le_add_right (show next.callLeft .genr + 3 ≤ 10 + 3 from paid)
  | gen label same noNic noDequeue part =>
    exact Nat.le_trans (Nat.le_of_add_le_add_right (Nat.le_of_add_right_le paid)) bounded

/-- A sound state, with at most ten steps left in the call of either manager. -/
structure Application.CallsBounded (eal : Eal) (cpus : Vector UInt16 2) (app : Application) :
    Prop where
  sound : app.Sound eal cpus
  callLeft_le : ∀ manager, app.system.callLeft manager ≤ 10

theorem Application.CallsBounded.step {next : Application} {label : AppLabel}
    (runsOn : eal.RunsOn cpus) (bounded : app.CallsBounded eal cpus)
    (step : AppStep env mgmtEnv eal cpus app label next) : next.CallsBounded eal cpus := by
  refine ⟨bounded.sound.step runsOn step, fun manager => ?_⟩
  cases step with
  | nic stats system step => exact callLeft_nic step manager ▸ bounded.callLeft_le manager
  | work lcore label worker place system branch here step worked =>
    by_cases same : manager = worker
    · exact same ▸ worked.callLeft_le (same ▸ bounded.callLeft_le manager)
    · exact worked.callLeft_other same ▸ bounded.callLeft_le manager
  | signal | launch | launchMain | joinMain | joinWorker | joined | enter | unreachable | test
  | leave => exact bounded.callLeft_le manager

/-- There are never more steps left than these. -/
theorem Application.CallsBounded.left_le (runsOn : eal.RunsOn cpus)
    (bounded : app.CallsBounded eal cpus) : app.left eal cpus ≤ 29 := by
  have two := runsOn.length_le
  have main : app.main.left eal ≤ 3 := by
    have knows := bounded.sound.knows
    rw [List.length_cons] at two
    cases place : app.main with
    | launching | running => exact Nat.succ_le_succ two
    | returned => exact Nat.zero_le 3
    | waiting rest =>
      rw [place] at knows
      exact Nat.succ_le_succ (Nat.le_trans knows.1.length_le (Nat.le_of_succ_le two))
  have each : ∀ left ∈ (eal.mainLcore :: eal.workers).map (app.lcoreLeft cpus), left ≤ 13 := by
    intro left member
    obtain ⟨lcore, -, rfl⟩ := List.mem_map.mp member
    rw [Application.lcoreLeft]
    cases managerOf cpus lcore with
    | none => exact Nat.zero_le 13
    | some manager =>
      show app.system.placeLeft manager (app.place lcore) ≤ 13
      cases app.place lcore with
      | dequeued =>
        exact Nat.le_trans (Nat.add_le_add_right (bounded.callLeft_le manager) 2) (by decide)
      | wait | launched | testing | called | polled | ended => exact Nat.le_of_ble_eq_true rfl
  have sum := List.sum_le_card_nsmul _ 13 each
  rw [List.length_map, smul_eq_mul] at sum
  rw [Application.left]
  omega

/-- Nothing clears the flag. -/
theorem stopFlag_step {next : Application} {label : AppLabel} (flag : app.stopFlag = true)
    (step : AppStep env mgmtEnv eal cpus app label next) : next.stopFlag = true := by
  cases step with
  | signal => rfl
  | nic | launch | launchMain | joinMain | joinWorker | joined | enter | unreachable | test | work
  | leave => exact flag

/-- The managers do what they do in the system of the two. -/
theorem reaches_of_appStep {next : Application} {label : AppLabel}
    (step : AppStep env mgmtEnv eal cpus app label next) :
    (systemMachine env mgmtEnv).Reachable app.system next.system := by
  cases step with
  | nic stats system step =>
    have moved : (systemMachine env mgmtEnv).step app.system (.gen (.nic stats)) = some system :=
      step
    exact .tail _ (.refl _ _) moved
  | work lcore label manager place system branch here step => exact .tail _ (.refl _ _) step
  | signal | launch | launchMain | joinMain | joinWorker | joined | enter | unreachable | test
  | leave => exact .refl _ _

/-- The application stops. In every run of its threads, over which the managers do what they do in
the system of the two: `TG_UNREACHABLE` is not reached; when `run` has returned, the flag is set,
every lcore has left its loop, and no message is half handled; and once the flag is set, no lcore
takes messages off its queue more than once, the threads take at most 29 steps, the callbacks of
timers aside, and until `run` has returned or the process has been aborted there is one to take. -/
theorem application_stops (env : Env) (mgmtEnv : MgmtEnv) (eal : Eal) (cpus : Vector UInt16 2)
    (runsOn : eal.RunsOn cpus) (workingDir : String) (labels : List AppLabel) (app : Application)
    (run : (appMachine env mgmtEnv eal cpus).run (.init eal workingDir) labels = some app) :
    (systemMachine env mgmtEnv).Reachable (.init workingDir) app.system ∧
      app.unreachable = false ∧
      (app.main = .returned → app.stopFlag = true ∧
        (∀ lcore ∈ eal.mainLcore :: eal.workers, app.place lcore = .ended) ∧
          app.system.mgmtBatch = [] ∧ app.system.gen.place = .idle) ∧
      (app.stopFlag = true →
        (∀ more final, (appMachine env mgmtEnv eal cpus).run app more = some final →
          more.countP AppLabel.goesOn ≤ 29 ∧ ∀ lcore, more.countP (AppLabel.takes lcore) ≤ 1) ∧
        (app.main = .returned ∨ app.aborted = true ∨ ∃ label next, label.goesOn = true ∧
          (appMachine env mgmtEnv eal cpus).step app label = some next)) := by
  have init : (Application.init eal workingDir).CallsBounded eal cpus := by
    refine ⟨Application.sound_init runsOn workingDir, fun manager => ?_⟩
    cases manager with
    | mgmt | genr => exact Nat.zero_le 10
  have preserved (state : Application) (label : AppLabel) (next : Application)
      (bounded : state.CallsBounded eal cpus)
      (step : (appMachine env mgmtEnv eal cpus).step state label = some next) :
      next.CallsBounded eal cpus := bounded.step runsOn (appStep_spec step).2
  have bounded := (appMachine env mgmtEnv eal cpus).run_invariant _ preserved init run
  refine ⟨?_, bounded.sound.reachable, fun returned => ?_,
    fun flag => ⟨fun more final rest => ?_, ?_⟩⟩
  · exact (appMachine env mgmtEnv eal cpus).run_project (systemMachine env mgmtEnv)
      Application.system (fun _ => True) (fun _ _ _ _ _ => trivial)
      (fun _ _ _ _ step => reaches_of_appStep (appStep_spec step).2) trivial run
  · have ended := bounded.sound.knows
    rw [returned] at ended
    have finished (manager : Manager) : app.system.callLeft manager = 0 := by
      by_contra notOver
      have inCall : app.system.callOver manager = false := by
        rw [callOver_eq]
        exact beq_eq_false_iff_ne.mpr notOver
      obtain ⟨lcore, -, dequeued⟩ := bounded.sound.inCall manager inCall
      have member := bounded.sound.inside lcore (by simp [dequeued])
      exact absurd (dequeued.symm.trans (ended lcore member)) (by simp)
    exact ⟨bounded.sound.flagSeen _ (ended _ List.mem_cons_self), ended,
      batch_of_callLeft (finished .mgmt), idle_of_callLeft (finished .genr)⟩
  · have keeps (state : Application) (label : AppLabel) (next : Application)
        (holds : state.CallsBounded eal cpus ∧ state.stopFlag = true)
        (step : (appMachine env mgmtEnv eal cpus).step state label = some next) :
        next.CallsBounded eal cpus ∧ next.stopFlag = true :=
      ⟨preserved state label next holds.1 step, stopFlag_step holds.2 (appStep_spec step).2⟩
    refine ⟨?_, fun lcore => ?_⟩
    · have steps := (appMachine env mgmtEnv eal cpus).countP_le_of_potential AppLabel.goesOn
        (Application.left eal cpus) _ keeps (fun _ _ _ holds step =>
          left_add_goesOn_le runsOn holds.1.sound holds.2 (appStep_spec step).2)
          ⟨bounded, flag⟩ rest
      exact Nat.le_trans (Nat.le_of_add_left_le steps) (bounded.left_le runsOn)
    · have taken := (appMachine env mgmtEnv eal cpus).countP_le_of_potential (AppLabel.takes lcore)
        (fun state => (state.place lcore).early) _ keeps (fun _ _ _ holds step =>
          early_add_takes_le holds.2 (appStep_spec step).2 lcore) ⟨bounded, flag⟩ rest
      refine Nat.le_trans (Nat.le_of_add_left_le taken) ?_
      cases app.place lcore with
      | wait | launched | testing | called | polled | dequeued | ended =>
        exact Nat.le_of_ble_eq_true rfl
  · exact bounded.sound.goesOn runsOn

/-- The CPUs of the configuration that comes with the program, and the lcores for them. -/
def shippedCpus : Vector UInt16 2 := #v[1, 2]

def shippedEal : Eal := ⟨1, [2]⟩

theorem shippedEal_runsOn : shippedEal.RunsOn shippedCpus where
  lcores lcore := by
    show lcore ∈ [1, 2] ↔ lcore = 1 ∨ lcore = 2
    rw [List.mem_cons, List.mem_singleton]
  nodup := by decide
  main := rfl

/-- SIGTERM comes while a request is on its way and the generator is about to look for one. -/
def stoppedBySigterm : List AppLabel :=
  [.launch, .launch, .enter 1, .enter 2, .test 1, .work 1 (.http "/start_gen" "one flow"), .test 2,
    .work 1 (.mgmtDequeue 0), .signal .sigterm, .leave 1, .work 2 (.genDequeue 1),
    .work 2 (.gen (.handle {})), .work 2 (.gen (.tick (tickAt 0 1))),
    .work 2 (.gen (.flush TxAnswer.all)), .leave 2, .test 1, .test 2, .join, .join, .join]

theorem application_stops_bySigterm : ∃ app,
    (appMachine (sampleEnv samplePool) sampleMgmt shippedEal shippedCpus).run
      (.init shippedEal "") stoppedBySigterm = some app ∧
    app.main = .returned ∧ app.place 2 = .ended ∧ app.system.gen.place = .idle := by
  have runs : ((appMachine (sampleEnv samplePool) sampleMgmt shippedEal shippedCpus).run
      (.init shippedEal "") stoppedBySigterm).map Application.main = some .returned := by
    decide +kernel
  obtain ⟨app, run, returned⟩ := Option.map_eq_some_iff.mp runs
  obtain ⟨-, -, stopped, -⟩ := application_stops (sampleEnv samplePool) sampleMgmt shippedEal
    shippedCpus shippedEal_runsOn "" stoppedBySigterm app run
  obtain ⟨-, ended, -, idle⟩ := stopped returned
  exact ⟨app, run, returned, ended 2 (by decide), idle⟩

end TrafficGenerator
