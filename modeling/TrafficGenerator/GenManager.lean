/-
This file models `gen/manager.cpp`: the generation manager, its handlers of the
management's messages, and `process_events`.

`process_events` is given as the function the source has, over everything the
environment decides during the call, and as a machine whose steps are its parts:
taking messages off the queue, one handler, the part up to the timers, one timer
callback, the final transmission. Properties of the states inside a call are
about the machine; `processEvents_reachable` says that the machine covers the
function.
-/

import TrafficGenerator.FlowsGenerator
import TrafficGenerator.Transition

namespace TrafficGenerator

variable (env : Env)

/-- `gen_cycles`. -/
structure GenCycles where
  begin : Cycles
  duration : Cycles
deriving DecidableEq

/-- `gen::manager_impl`. -/
structure GenManager where
  ops : Ops := {}
  generators : List FlowsGenerator := []
  genCycles : Option GenCycles := none
  /-- `event_scheduler::prev_cycles_`. -/
  prevCycles : Cycles := 0
  workingDir : String := ""

/-- `generation_started`. -/
def GenManager.generationStarted (manager : GenManager) : Bool := manager.genCycles.isSome

/-- The destructor of a vector of generators. -/
def destroyGens (gens : List FlowsGenerator) (ops : Ops) : Ops :=
  gens.foldl (fun ops gen => gen.destroy env ops) ops

/-! ### The handlers -/

/-- `operator/` of two paths: an absolute name replaces the directory. -/
def joinPath (dir name : String) : String :=
  if name.startsWith "/" || dir.isEmpty then name
  else if dir.endsWith "/" then dir ++ name
  else dir ++ "/" ++ name

/-- The generator configuration of one capture of a start request. -/
def generatorConfig (workingDir : String) (dutAddress : EtherAddr) (idx : UInt32)
    (capCfg : FlowsConfig) : FlowsGeneratorConfig where
  idx := idx
  capFpath := joinPath workingDir capCfg.name
  clnEtherAddr := env.macAddr
  srvEtherAddr := dutAddress
  burst := capCfg.burst
  flowsPerSec := capCfg.flowsPerSec
  interPktsGap := capCfg.interPktsGap
  clnIpAddrs := capCfg.clnIps
  srvIpAddrs := capCfg.srvIps
  clnPort := capCfg.clnPort

/-- The `try` block of the start handler: one generator for every capture. An exception
destroys the generators built before it. -/
def createGens (workingDir : String) (dutAddress : EtherAddr) :
    UInt32 → List FlowsConfig → List FlowsGenerator → Ops →
      Except Thrown (List FlowsGenerator) × Ops
  | _, [], gens, ops => (.ok gens, ops)
  | idx, capCfg :: rest, gens, ops =>
    match FlowsGenerator.construct env (generatorConfig env workingDir dutAddress idx capCfg) ops
      with
    | (.error thrown, ops) => (.error thrown, destroyGens env gens ops)
    | (.ok gen, ops) => createGens workingDir dutAddress (idx + 1) rest (gens ++ [gen]) ops

/-- What the environment decides while a start request is handled: the result of
`rte_eth_stats_reset` and the clock. -/
structure StartIn where
  resetErr : Int := 0
  now : Cycles := 0

/-- Every generation run reports only its own statistics, when the NIC can reset them. -/
def resetStats (err : Int) (ops : Ops) : Ops :=
  if err = 0 then { ops with ethStats := {}, cntTxPktsQfull := 0, cntTxPktsNombuf := 0 } else ops

/-- `on_inc_msg(mgmt::req_start_generation&&)`. -/
def onStartGeneration (input : StartIn) (cfg : GenConfig) (manager : GenManager) : GenManager :=
  if manager.generationStarted then
    { manager with ops := enqueueOut (.startGeneration (.error "Already started")) manager.ops }
  else
    match createGens env manager.workingDir cfg.dutAddr 0 cfg.flowsCfgs [] manager.ops with
    | (.error thrown, ops) =>
      { manager with ops := enqueueOut (.startGeneration (.error (thrown.what env))) ops }
    | (.ok gens, ops) =>
      let ops := tgEnforce env manager.generators.isEmpty ops
      let ops := destroyGens env manager.generators ops
      let ops := resetStats input.resetErr ops
      let ops := tgEnforce env (!manager.generationStarted) ops
      { manager with
        generators := gens
        genCycles := some {
          begin := input.now
          duration := Cycles.fromDuration env.hz .milliseconds cfg.duration }
        ops := enqueueOut (.startGeneration (.ok ())) ops }

/-- `get_eth_stats`. -/
def getEthStats (ops : Ops) : Stats where
  cntRxPkts := ops.ethStats.ipackets
  cntTxPkts := ops.ethStats.opackets
  cntRxBytes := ops.ethStats.ibytes
  cntTxBytes := ops.ethStats.obytes
  cntRxPktsQfull := ops.ethStats.imissed
  cntRxPktsNombuf := ops.ethStats.rxNombuf
  cntTxPktsQfull := ops.cntTxPktsQfull
  cntTxPktsNombuf := ops.cntTxPktsNombuf
  cntRxPktsErr := ops.ethStats.ierrors
  cntTxPktsErr := ops.ethStats.oerrors

/-- `stop_generation`. -/
def stopGeneration (manager : GenManager) : GenManager :=
  let ops := destroyGens env manager.generators manager.ops
  { manager with
    generators := []
    genCycles := none
    ops := tgEnforce env (ops.cntTimers == 0) ops }

/-- The entry of one flow in the summary. -/
def summaryEntry (gen : FlowsGenerator) (flow : Flow) : SummaryEntry where
  genIdx := gen.idx
  flowIdx := flow.idx
  cntPkts := flow.cntPkts
  cntBytes := flow.cntBytes
  duration := flow.tstampEnd - flow.tstampBeg

/-- `on_inc_msg(mgmt::req_stop_generation&&)`. -/
def onStopGeneration (manager : GenManager) : GenManager :=
  let detailed := manager.generators.flatMap fun gen => gen.flows.map (summaryEntry gen)
  let manager := stopGeneration env manager
  { manager with ops := enqueueOut (.stopGeneration
      { summary := getEthStats manager.ops, detailed }) manager.ops }

/-- `on_inc_msg(mgmt::req_stats_report&&)`. -/
def onStatsReport (manager : GenManager) : GenManager :=
  { manager with ops := enqueueOut (.statsReport (getEthStats manager.ops)) manager.ops }

/-- `on_inc_msg`. -/
def onIncMsg (input : StartIn) (manager : GenManager) : ReqMsg → GenManager
  | .startGeneration cfg => onStartGeneration env input cfg manager
  | .stopGeneration => onStopGeneration env manager
  | .statsReport => onStatsReport manager

/-! ### The rest of `process_events` -/

/-- What the environment decides between the messages and the timers: the packets received,
the two readings of the clock, and what the NIC accepts. -/
structure TickIn where
  rx : ℕ := 0
  now : Cycles := 0
  schedulerNow : Cycles := 0
  tx : TxAnswer := TxAnswer.all
  rx_le : rx ≤ cntBurstPkts := by decide

/-- `receive_rx_pkts`: what is received is thrown away. -/
def receiveRxPkts (cnt : ℕ) (ops : Ops) : Ops :=
  let received := ops.pool.receive cnt
  { ops with pool := received.2.freeBulk received.1 }

/-- `event_scheduler::usec_cycles_`. -/
def usecCycles : Cycles := Cycles.fromDuration env.hz .microseconds 1

/-- `transmit_tx_pkts` when there is something to transmit. -/
def GenManager.flush (tx : TxAnswer) (manager : GenManager) : GenManager :=
  { manager with ops := flushTxPkts tx manager.ops }

/-- `process_events` from the messages up to `rte_timer_manage`. The first component tells
whether the timers are run; when they are not, the call is over. -/
def beforeTimers (input : TickIn) (manager : GenManager) : Bool × GenManager :=
  let manager := { manager with ops := receiveRxPkts input.rx manager.ops }
  match manager.genCycles with
  | none =>
    let ops := tgEnforce env (manager.ops.txPkts.isEmpty == true) manager.ops
    (false, { manager with ops := tgEnforce env (ops.cntTimers == 0) ops })
  | some genCycles =>
    if input.now - genCycles.begin > genCycles.duration then
      (false, (stopGeneration env manager).flush input.tx)
    else if input.schedulerNow - manager.prevCycles ≥ usecCycles env then
      (true, { manager with prevCycles := input.schedulerNow })
    else (false, manager.flush input.tx)

/-- The callback of one timer run by `rte_timer_manage`, `none` when that timer is not
pending. -/
def GenManager.fire (pos flow : ℕ) (event : EventIn) (manager : GenManager) :
    Option GenManager :=
  match manager.generators[pos]? with
  | none => none
  | some gen =>
    match gen.flows[flow]? with
    | none => none
    | some fl =>
      if fl.event.armed then
        let fired := gen.onFlowEvent env event flow manager.ops
        some { manager with
          generators := manager.generators.set pos fired.1
          ops := fired.2 }
      else none

/-- One timer expiration: the positions of its generator and its flow. -/
structure Expiration where
  pos : ℕ
  flow : ℕ
  event : EventIn

/-- Everything the environment decides during one call of `process_events`. -/
structure Call where
  msgs : List (Tagged ReqMsg × StartIn) := []
  tick : TickIn := {}
  expirations : List Expiration := []
  tx : TxAnswer := TxAnswer.all
  batch : msgs.length ≤ dequeueBatch reqCapacity := by decide

/-- The callbacks of one `rte_timer_manage`. -/
def runTimers (expirations : List Expiration) (manager : GenManager) : GenManager :=
  expirations.foldl (fun manager expiration =>
    (manager.fire env expiration.pos expiration.flow expiration.event).getD manager) manager

/-- `process_events`. -/
def processEvents (call : Call) (manager : GenManager) : GenManager :=
  let manager := call.msgs.foldl (fun manager msg => onIncMsg env msg.2 manager msg.1.msg) manager
  let ticked := beforeTimers env call.tick manager
  if ticked.1 then (runTimers env call.expirations ticked.2).flush call.tx else ticked.2

/-! ### The machine -/

/-- Where the generation thread is: between two calls, handling the messages it has taken off
the queue, or inside `rte_timer_manage`. -/
inductive GenPlace where
  | idle
  | handling (msgs : List (Tagged ReqMsg))
  | timers

/-- The manager and where its thread is. -/
structure GenState where
  manager : GenManager
  place : GenPlace := .idle

/-- The parts of a call; the NIC counts at any time. -/
inductive GenLabel where
  | dequeue (msgs : List (Tagged ReqMsg))
  | handle (input : StartIn)
  | tick (input : TickIn)
  | fire (pos flow : ℕ) (event : EventIn)
  | flush (tx : TxAnswer)
  | nic (stats : EthStats)

/-- One part of `process_events`, from the places it starts in. -/
def genPart (state : GenState) (label : GenLabel) : Option GenState :=
  match state.place, label with
  | .idle, .dequeue msgs =>
    if msgs.length ≤ dequeueBatch reqCapacity then some { state with place := .handling msgs }
    else none
  | .handling (msg :: rest), .handle input =>
    some ⟨onIncMsg env input state.manager msg.msg, .handling rest⟩
  | .handling [], .tick input =>
    let ticked := beforeTimers env input state.manager
    some ⟨ticked.2, if ticked.1 then .timers else .idle⟩
  | .timers, .fire pos flow event =>
    (state.manager.fire env pos flow event).map fun manager => ⟨manager, .timers⟩
  | .timers, .flush tx => some ⟨state.manager.flush tx, .idle⟩
  | place, .nic stats =>
    some ⟨{ state.manager with ops := { state.manager.ops with ethStats := stats } }, place⟩
  | _, _ => none

/-- An aborted process takes no more steps. -/
def genStep (state : GenState) (label : GenLabel) : Option GenState :=
  if state.manager.ops.aborted then none else genPart env state label

/-- The generation manager as a machine. -/
def genMachine : Machine GenState GenLabel where
  step := genStep env

/-- The manager as its constructor leaves it. -/
def GenState.init (workingDir : String) : GenState where
  manager := { workingDir }

/-! ### A capture to run with -/

/-- A call that receives nothing, at a time. -/
def tickAt (now schedulerNow : Cycles) : TickIn := { now, schedulerNow }

/-- A packet of headers only: Ethernet and IPv4. -/
def samplePacket : List UInt8 :=
  [2, 0, 0, 0, 0, 2, 2, 0, 0, 0, 0, 1, 8, 0,
    0x45, 0, 0, 20, 0, 0, 0, 0, 64, 17, 0, 0, 10, 0, 0, 1, 10, 0, 0, 2]

/-- A capture of one record with that packet. -/
def sampleFile : File where
  data := [0xD4, 0xC3, 0xB2, 0xA1, 2, 0, 4, 0, 0, 0, 0, 0, 0, 0, 0, 0, 0, 0, 1, 0, 1, 0, 0, 0] ++
    [0, 0, 0, 0, 0, 0, 0, 0, 34, 0, 0, 0, 34, 0, 0, 0] ++ samplePacket

def sampleAddr : EtherAddr := ⟨[2, 0, 0, 0, 0, 3], rfl⟩

/-- An environment in which every path names that capture and a cycle is a microsecond. -/
def sampleEnv (answers : PoolAnswers) : Env where
  enforce _ := false
  hz := 1000000
  answers := answers
  macAddr := sampleAddr
  fopen _ := .ok sampleFile
  texts := { path := id, systemError := fun _ text => text }

/-- A pool that always has a buffer. -/
def samplePool : PoolAnswers where
  grant _ := some 2048
  copy _ bytes := some ⟨bytes, []⟩

def sampleNet : NetworkV4 := ⟨0x0A000000, 24, by decide⟩

/-- A capture replayed by a number of flows. -/
def sampleFlows (flowsPerSec : UInt32) (limits : 1 ≤ flowsPerSec ∧ flowsPerSec ≤ 1000000) :
    FlowsConfig where
  name := "sample.pcap"
  burst := 1
  flowsPerSec := flowsPerSec
  interPktsGap := none
  clnIps := sampleNet
  srvIps := sampleNet
  clnPort := none
  burstLimits := by decide
  fpsLimits := limits
  ipgLimits := by simp
  portLimits := by simp

/-- A capture replayed by one flow. -/
def oneFlow : FlowsConfig := sampleFlows 1 (by decide)

/-- A second of generation with some captures. -/
def sampleCfg (flowsCfgs : List FlowsConfig) : GenConfig where
  duration := 1000
  dutAddr := sampleAddr
  flowsCfgs := flowsCfgs
  durationFits := by decide

end TrafficGenerator
