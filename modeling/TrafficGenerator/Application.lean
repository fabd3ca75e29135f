/-
This file models `app/application.cpp`: the threads that the managers run on,
and how they are stopped. DPDK has a thread for every lcore it was given, and
the application has `run` called on each of them. One lcore keeps calling
`process_events` of the management, another one that of the generator, until
they see the flag that the handler of SIGINT and SIGTERM sets.

The managers, and with them the event scheduler of the generator, are constructed
by the thread that called `rte_eal_init`, the one of the main lcore. The scheduler
arms its timers for the lcore it was constructed on, and `rte_timer_manage` runs
the expired timers of the lcore that calls it.
-/

import TrafficGenerator.SystemSteps

namespace TrafficGenerator

variable (env : Env) (mgmtEnv : MgmtEnv)

/-! ### The lcores -/

/-- `cpus_[0]`, the lcore of the management. -/
def mgmtCpu (cpus : Vector UInt16 2) : ℕ := cpus[0].toNat

/-- `cpus_[1]`, the lcore of the generator. -/
def genrCpu (cpus : Vector UInt16 2) : ℕ := cpus[1].toNat

/-- The lcores that `rte_eal_init` sets up: that of its caller, and the others. -/
structure Eal where
  mainLcore : ℕ
  workers : List ℕ

/-- What DPDK documents of `-l` with two lcores: these are set up, and the first one, the lowest,
is the main lcore. -/
structure Eal.RunsOn (eal : Eal) (cpus : Vector UInt16 2) : Prop where
  lcores : ∀ lcore, lcore ∈ eal.mainLcore :: eal.workers ↔
    lcore = mgmtCpu cpus ∨ lcore = genrCpu cpus
  nodup : (eal.mainLcore :: eal.workers).Nodup
  main : eal.mainLcore = min (mgmtCpu cpus) (genrCpu cpus)

/-- The members `mgmt_` and `genr_`. -/
inductive Manager where
  | mgmt
  | genr
deriving DecidableEq

/-- The branches of `application_impl::run`; the last one is `TG_UNREACHABLE`. -/
def managerOf (cpus : Vector UInt16 2) (lcore : ℕ) : Option Manager :=
  if lcore = mgmtCpu cpus then some .mgmt
  else if lcore = genrCpu cpus then some .genr
  else none

/-- Where the thread of an lcore is: waiting for DPDK, in front of the branches of `run`, in front
of the condition of the loop, at the beginning of `process_events`, behind `poll_one`, behind
`dequeue`, or behind the loop. -/
inductive LcorePlace where
  | wait
  | launched
  | testing
  | called
  | polled
  | dequeued
  | ended
deriving DecidableEq

/-- Where `application::run` is: launching the workers that are left, in its own call of
`application_impl::run`, waiting for the workers that are left, or at its end. -/
inductive MainPlace where
  | launching (workers : List ℕ)
  | running
  | waiting (workers : List ℕ)
  | returned
deriving DecidableEq

/-- The signals with a handler. -/
inductive Signal where
  | sigint
  | sigterm

/-- The application: its members, and where its threads are. `timerLcore` is the member
`lcore_id_` of the event scheduler. -/
structure Application where
  system : System
  timerLcore : ℕ
  stopFlag : Bool := false
  place : ℕ → LcorePlace := fun _ => .wait
  main : MainPlace
  unreachable : Bool := false

/-- As its constructor leaves it, on the main lcore. -/
def Application.init (eal : Eal) (workingDir : String) : Application where
  system := .init workingDir
  timerLcore := eal.mainLcore
  main := .launching eal.workers

/-- A `TG_ENFORCE` or the `TG_UNREACHABLE` has ended the process. -/
def Application.aborted (app : Application) : Bool :=
  app.system.mgmt.aborted || app.system.gen.manager.ops.aborted || app.unreachable

/-- The thread of an lcore goes on to a place. -/
def Application.goTo (app : Application) (lcore : ℕ) (place : LcorePlace) : Application :=
  { app with place := Function.update app.place lcore place }

/-! ### The steps -/

inductive AppLabel where
  | signal (sig : Signal)
  | nic (stats : EthStats)
  | launch
  | join
  | enter (lcore : ℕ)
  | test (lcore : ℕ)
  | work (lcore : ℕ) (label : SystemLabel)
  | leave (lcore : ℕ)

/-- `signal_handler`. -/
def Application.signalHandler (app : Application) : Signal → Application
  | .sigint => { app with stopFlag := true }
  | .sigterm => { app with stopFlag := true }

/-- The parts of a call of `process_events` in their order, by the place they end at. `poll_one` may
find no request; the counters of the NIC are no part of a call. -/
def callPart : Manager → LcorePlace → SystemLabel → Option LcorePlace
  | .mgmt, .called, .http _ _ => some .polled
  | .mgmt, .called, .mgmtDequeue _ => some .dequeued
  | .mgmt, .polled, .mgmtDequeue _ => some .dequeued
  | .mgmt, .dequeued, .mgmtHandle => some .dequeued
  | .genr, .called, .genDequeue _ => some .dequeued
  | .genr, .dequeued, .gen (.nic _) => none
  | .genr, .dequeued, .gen _ => some .dequeued
  | _, _, _ => none

/-- A callback is run by the lcore that its timer was armed for. -/
def timerHere (timerLcore lcore : ℕ) : SystemLabel → Bool
  | .gen (.fire _ _ _) => lcore == timerLcore
  | _ => true

/-- Nothing is left of the call of a manager's `process_events`. -/
def System.callOver (system : System) : Manager → Bool
  | .mgmt => system.mgmtBatch.isEmpty
  | .genr =>
    match system.gen.place with
    | .idle => true
    | .handling _ => false
    | .timers => false

/-- `application_impl::run` on an lcore. -/
def Application.lcoreStep (cpus : Vector UInt16 2) (app : Application) :
    AppLabel → Option Application
  | .enter lcore =>
    if app.place lcore = .launched then
      match managerOf cpus lcore with
      | some _ => some (app.goTo lcore .testing)
      | none => some { app with unreachable := true }
    else none
  | .test lcore =>
    if app.place lcore = .testing then
      some (app.goTo lcore (if app.stopFlag then .ended else .called))
    else none
  | .work lcore label => do
    let manager ← managerOf cpus lcore
    let place ← callPart manager (app.place lcore) label
    if timerHere app.timerLcore lcore label then
      (app.system.step env mgmtEnv label).map fun system => { app.goTo lcore place with system }
    else none
  | .leave lcore => do
    let manager ← managerOf cpus lcore
    if app.place lcore = .dequeued ∧ app.system.callOver manager = true then
      some (app.goTo lcore .testing)
    else none
  | _ => none

/-- `application::run`: `rte_eal_mp_remote_launch` with `CALL_MAIN`, and `rte_eal_mp_wait_lcore`. -/
def Application.mainStep (eal : Eal) (app : Application) : AppLabel → Option Application
  | .launch =>
    match app.main with
    | .launching (lcore :: rest) =>
      some { app.goTo lcore .launched with main := .launching rest }
    | .launching [] => some { app.goTo eal.mainLcore .launched with main := .running }
    | _ => none
  | .join =>
    match app.main with
    | .running =>
      if app.place eal.mainLcore = .ended then some { app with main := .waiting eal.workers }
      else none
    | .waiting (lcore :: rest) =>
      if app.place lcore = .ended then some { app with main := .waiting rest } else none
    | .waiting [] => some { app with main := .returned }
    | _ => none
  | _ => none

/-- A step of the application; a process that has been ended takes none. -/
def Application.step (eal : Eal) (cpus : Vector UInt16 2) (app : Application) (label : AppLabel) :
    Option Application :=
  if app.aborted then none
  else match label with
    | .signal sig => some (app.signalHandler sig)
    | .nic stats => (app.system.step env mgmtEnv (.gen (.nic stats))).map fun system =>
        { app with system }
    | .launch | .join => app.mainStep eal label
    | .enter _ | .test _ | .work _ _ | .leave _ => app.lcoreStep env mgmtEnv cpus label

/-- The application as a machine. -/
def appMachine (eal : Eal) (cpus : Vector UInt16 2) : Machine Application AppLabel where
  step := Application.step env mgmtEnv eal cpus

end TrafficGenerator
