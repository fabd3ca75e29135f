/-
This file models the pointers by which a timer finds its flow, and a flow its
generator, as `gen/priv/flows_generator.cpp` and `gen/manager.cpp` store and
follow them. A flow keeps `this` of the generator that was being constructed,
and its timer is armed with the address of the flow. Both are addresses of
elements of vectors, so they are good for as long as nothing moves: the flows
in the vector of their generator, the generators in the vector of the manager.

The generators and flows themselves are those of the manager; what is added
here is where they are, and what the pointers say.
-/

import TrafficGenerator.Pacing
import TrafficGenerator.VectorStorage

namespace TrafficGenerator

variable (env : Env)

/-! ### Constructing -/

/-- The pointers of a flow: the member `fgen`, and the argument its timer is armed with. -/
structure FlowCell where
  fgen : Address
  ctx : Option Address := none
deriving DecidableEq

/-- The member `flows_` of a generator. -/
abbrev FlowCells := VectorStorage FlowCell

/-- The member `generators_` of the manager, and the number of the next block of memory. -/
structure Layout where
  generators : VectorStorage FlowCells := .empty
  fresh : ℕ := 1

/-- The loop of `setup_flows`, behind `flows.reserve(flows_per_sec)`. -/
def setupFlowCells (fgen : Address) (flowsPerSec fresh : ℕ) : FlowCells × ℕ :=
  let reserved := (.empty : FlowCells).reserve fresh flowsPerSec
  reserved.1.pushAll reserved.2 (List.replicate flowsPerSec { fgen })

/-- The loop of `setup_flow_events`: `flow.event.schedule_single(evtm, on_event, &flow)`. -/
def armCells (cells : FlowCells) : FlowCells :=
  { cells with elems := cells.elems.mapIdx fun index cell =>
      { cell with ctx := some (cells.addressOf index) } }

/-- `gens.emplace_back`: the generator is constructed where it will be, and its flows are told
so. -/
def Layout.emplaceBack (flowsPerSec : ℕ) (layout : Layout) : Layout :=
  let room := layout.generators.grow layout.fresh
  let cells := setupFlowCells (room.1.addressOf room.1.elems.length) flowsPerSec room.2
  { generators := room.1.append (armCells cells.1), fresh := cells.2 }

/-- The `try` block of the start handler, with the places of what it constructs. -/
def createGensAt (workingDir : String) (dutAddress : EtherAddr) :
    UInt32 → List FlowsConfig → List FlowsGenerator → Ops → Layout →
      (Except Thrown (List FlowsGenerator) × Ops) × Layout
  | _, [], gens, ops, layout => ((.ok gens, ops), layout)
  | idx, capCfg :: rest, gens, ops, layout =>
    match FlowsGenerator.construct env (generatorConfig env workingDir dutAddress idx capCfg) ops
      with
    | (.error thrown, ops) => ((.error thrown, destroyGens env gens ops), layout)
    | (.ok gen, ops) => createGensAt workingDir dutAddress (idx + 1) rest (gens ++ [gen]) ops
        (layout.emplaceBack capCfg.flowsPerSec.toNat)

/-- `on_inc_msg(mgmt::req_start_generation&&)`: `gens.reserve`, the `try` block, and
`generators_ = std::move(gens)`, which hands over the block. -/
def Layout.start (cfg : GenConfig) (manager : GenManager) (layout : Layout) : Layout :=
  if manager.generationStarted then layout
  else
    let gens := (.empty : VectorStorage FlowCells).reserve layout.fresh cfg.flowsCfgs.length
    match createGensAt env manager.workingDir cfg.dutAddr 0 cfg.flowsCfgs [] manager.ops
      { generators := gens.1, fresh := gens.2 } with
    | ((.error _, _), built) => { layout with fresh := built.fresh }
    | ((.ok _, _), built) => built

/-- `generators_.clear()`. -/
def Layout.clear (layout : Layout) : Layout :=
  { layout with generators := layout.generators.clear }

/-- The handlers. -/
def Layout.onIncMsg (manager : GenManager) (layout : Layout) : ReqMsg → Layout
  | .startGeneration cfg => layout.start env cfg manager
  | .stopGeneration => layout.clear
  | .statsReport => layout

/-- The end of the generation in `process_events`. -/
def Layout.onTick (input : TickIn) (manager : GenManager) (layout : Layout) : Layout :=
  match manager.genCycles with
  | none => layout
  | some genCycles =>
    if input.now - genCycles.begin > genCycles.duration then layout.clear else layout

/-! ### Following the pointers -/

/-- The flow that a pointer leads to: the position of the generator in whose vector it is, and its
own. -/
def Layout.flowAt (layout : Layout) (ctx : Address) : Option (ℕ × ℕ) :=
  (layout.generators.elems.findIdx? fun cells => (cells.deref ctx).isSome).map fun pos =>
    (pos, ctx.index)

/-- The pointers of the flow at a position. -/
def Layout.cellAt (layout : Layout) (pos flow : ℕ) : Option FlowCell :=
  layout.generators.elems[pos]?.bind fun cells => cells.elems[flow]?

/-- `on_event`: `static_cast<flow*>(ctx)`, and `fl->fgen` of it. The first component is the
position of the generator that is called, the others are where the flow is that it is given. -/
def Layout.onEvent (layout : Layout) (ctx : Address) : Option (ℕ × ℕ × ℕ) :=
  (layout.flowAt ctx).bind fun place =>
    (layout.cellAt place.1 place.2).bind fun cell =>
      (layout.generators.deref cell.fgen).map fun _ => (cell.fgen.index, place)

/-- The timer of a flow has expired. -/
def GenManager.expired (pos flow : ℕ) (manager : GenManager) : GenManager :=
  { manager with generators := manager.generators.modify pos fun gen =>
      { gen with flows := gen.flows.modify flow fun fl => { fl with event := fired fl.event } } }

/-- `fgen->on_flow_event(*fl)`, wherever the generator and the flow are. -/
def GenManager.onFlowEventAt (event : EventIn) (genPos flowPos flow : ℕ) (manager : GenManager) :
    Option GenManager :=
  manager.generators[genPos]?.bind fun gen =>
    (manager.generators[flowPos]?.bind fun owner => owner.flows[flow]?).map fun fl =>
      let (_, fl, cursor) := gen.nextPkt fl
      let (fl, ops) := gen.emitPkt env event fl manager.ops
      let generators := manager.generators.modify flowPos fun owner =>
        { owner with flows := owner.flows.set flow fl }
      { manager with
        generators := generators.modify genPos fun gen => { gen with cursor }
        ops }

/-- The timer of the flow at a position is pending. -/
def GenManager.pendingAt (pos flow : ℕ) (manager : GenManager) : Bool :=
  (manager.generators[pos]?.bind fun gen => gen.flows[flow]?).any fun fl => fl.event.armed

/-- The callback arms the timer of the flow it was given with the address of that flow. -/
def Layout.rearm (flowPos flow : ℕ) (layout : Layout) : Layout :=
  { layout with generators := { layout.generators with
      elems := layout.generators.elems.modify flowPos fun cells =>
        { cells with elems := cells.elems.modify flow fun cell =>
            { cell with ctx := some (cells.addressOf flow) } } } }

/-! ### The machine -/

/-- The generation thread with the places of its generators and flows. A fault is a pointer that
leads to nothing. -/
structure PtrState where
  state : GenState
  layout : Layout := {}
  fault : Bool := false

/-- What happens to the places in the parts of `process_events` other than the callbacks. -/
def Layout.after (state : GenState) (layout : Layout) : GenLabel → Layout
  | .handle _ =>
    match state.place with
    | .handling (msg :: _) => layout.onIncMsg env state.manager msg.msg
    | _ => layout
  | .tick input => layout.onTick input state.manager
  | _ => layout

/-- DPDK calls `on_event` with the argument that the expired timer was armed with. -/
def PtrState.dispatch (pos flow : ℕ) (event : EventIn) (ptr : PtrState) : PtrState :=
  let called := do
    let cell ← ptr.layout.cellAt pos flow
    let ctx ← cell.ctx
    let (genPos, flowPos, flow) ← ptr.layout.onEvent ctx
    let manager ← (ptr.state.manager.expired pos flow).onFlowEventAt env event genPos flowPos flow
    some (manager, flowPos, flow)
  match called with
  | none => { ptr with fault := true }
  | some (manager, flowPos, flow) => { ptr with
      state := ⟨manager, .timers⟩
      layout := if manager.pendingAt flowPos flow then ptr.layout.rearm flowPos flow
        else ptr.layout }

/-- One part of `process_events`; a thread that follows a pointer to nothing is not followed. -/
def ptrStep (ptr : PtrState) (label : GenLabel) : Option PtrState :=
  if ptr.fault then none
  else match label with
  | .fire pos flow event =>
    if ptr.state.manager.ops.aborted || !ptr.state.place.managing ||
        !ptr.state.manager.pendingAt pos flow then none
    else some (ptr.dispatch env pos flow event)
  | label => (genStep env ptr.state label).map fun state =>
      { ptr with state, layout := ptr.layout.after env ptr.state label }

/-- The generation thread and its pointers as a machine. -/
def ptrMachine : Machine PtrState GenLabel where
  step := ptrStep env

/-- As the constructor of the manager leaves them. -/
def PtrState.init (workingDir : String) : PtrState where
  state := .init workingDir

end TrafficGenerator
