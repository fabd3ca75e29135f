/-
This file proves that the pointers of the timers and the flows lead where they
are meant to. The vectors of the generators and of their flows get the room they
need before anything is constructed in them, so nothing ever moves: every timer
is armed with the address of the flow that has it, and every flow points to the
generator it is in. Following them is the same as calling the generator and the
flow at the positions of the timer that has expired.
-/

import TrafficGenerator.FlowPointers
import TrafficGenerator.Provenance

namespace TrafficGenerator

open VectorStorage

variable {env : Env} {manager : GenManager} {layout : Layout} {gens : List FlowsGenerator}

/-! ### Where things are constructed -/

/-- The cells of a generator lie in one fresh block. -/
theorem setupFlowCells_eq (fgen : Address) {flowsPerSec : ℕ} (some : 0 < flowsPerSec)
    (fresh : ℕ) : setupFlowCells fgen flowsPerSec fresh =
      (⟨fresh, flowsPerSec, List.replicate flowsPerSec { fgen }⟩, fresh + 1) := by
  have reserved := pushAll_reserved fresh
    (show List.replicate flowsPerSec ({ fgen } : FlowCell) ≠ [] from by simp; omega)
  rw [List.length_replicate] at reserved
  exact reserved

/-- Where a generator constructed in a fresh block has its flows. -/
def armedCells (fgen : Address) (flowsPerSec fresh : ℕ) : FlowCells :=
  ⟨fresh, flowsPerSec, (List.range flowsPerSec).map fun index => ⟨fgen, some ⟨fresh, index⟩⟩⟩

theorem armCells_eq (fgen : Address) (flowsPerSec fresh : ℕ) :
    armCells ⟨fresh, flowsPerSec, List.replicate flowsPerSec { fgen }⟩ =
      armedCells fgen flowsPerSec fresh := by
  have elems : (List.replicate flowsPerSec ({ fgen } : FlowCell)).mapIdx (fun index cell =>
      { cell with ctx := some ⟨fresh, index⟩ }) =
        (List.range flowsPerSec).map fun index => ⟨fgen, some ⟨fresh, index⟩⟩ := by
    refine List.ext_getElem (by simp) fun pos here there => ?_
    rw [List.getElem_mapIdx, List.getElem_map, List.getElem_range, List.getElem_replicate]
  rw [armCells, armedCells, ← elems]
  rfl

/-- Nothing has moved: the flows of a generator point to where it is, their timers to where they
are, and no two generators have their flows in the same block. -/
structure Layout.Home (layout : Layout) (gens : List FlowsGenerator) : Prop where
  lengths : (layout.generators.elems.map fun cells => cells.elems.length) =
    gens.map fun gen => gen.flows.length
  cells : ∀ (pos : ℕ) (cells : FlowCells), layout.generators.elems[pos]? = some cells →
    ∀ (flow : ℕ) (cell : FlowCell), cells.elems[flow]? = some cell →
      cell = ⟨layout.generators.addressOf pos, some (cells.addressOf flow)⟩
  blocks : (layout.generators.elems.map block).Nodup
  old : ∀ cells ∈ layout.generators.elems, cells.block < layout.fresh

/-- Without generators there is nothing to move. -/
theorem Layout.home_nil {layout : Layout} (none : layout.generators.elems = []) :
    layout.Home [] where
  lengths := by rw [none]; rfl
  cells pos cells found := by
    rw [none] at found
    exact absurd found (by simp)
  blocks := by rw [none]; exact List.nodup_nil
  old cells member := by
    rw [none] at member
    exact absurd member List.not_mem_nil

/-- Only the number of flows matters. -/
theorem Layout.Home.congr {others : List FlowsGenerator} (home : layout.Home gens)
    (same : (others.map fun gen => gen.flows.length) = gens.map fun gen => gen.flows.length) :
    layout.Home others where
  lengths := home.lengths.trans same.symm
  cells := home.cells
  blocks := home.blocks
  old := home.old

theorem Layout.Home.length (home : layout.Home gens) :
    layout.generators.elems.length = gens.length := by
  have same := congrArg List.length home.lengths
  rwa [List.length_map, List.length_map] at same

/-- While there is room a generator is constructed behind the others. -/
theorem Layout.emplaceBack_eq {flowsPerSec : ℕ} (some : 0 < flowsPerSec)
    (room : layout.generators.elems.length < layout.generators.capacity) :
    layout.emplaceBack flowsPerSec = {
      generators := layout.generators.append (armedCells
        (layout.generators.addressOf layout.generators.elems.length) flowsPerSec layout.fresh)
      fresh := layout.fresh + 1 } := by
  rw [Layout.emplaceBack, grow_of_room room]
  dsimp only
  rw [setupFlowCells_eq _ some, armCells_eq]

/-- So the others stay where they are. -/
theorem Layout.Home.emplaceBack (home : layout.Home gens) {flowsPerSec : ℕ}
    (some : 0 < flowsPerSec)
    (room : layout.generators.elems.length < layout.generators.capacity) {gen : FlowsGenerator}
    (flows : gen.flows.length = flowsPerSec) :
    (layout.emplaceBack flowsPerSec).Home (gens ++ [gen]) := by
  rw [Layout.emplaceBack_eq some room]
  generalize here : layout.generators.addressOf layout.generators.elems.length = fgen
  refine ⟨?_, fun pos cells found flow cell foundCell => ?_, ?_, fun cells member => ?_⟩
  · show (layout.generators.elems ++ [_]).map _ = _
    rw [List.map_append, List.map_append, home.lengths, List.map_singleton, List.map_singleton,
      flows, armedCells, List.length_map, List.length_range]
  · show cell = ⟨layout.generators.addressOf pos, _⟩
    have found' : (layout.generators.elems ++ [armedCells fgen flowsPerSec layout.fresh])[pos]? =
      Option.some cells := found
    by_cases inside : pos < layout.generators.elems.length
    · rw [List.getElem?_append_left inside] at found'
      exact home.cells pos cells found' flow cell foundCell
    · rw [List.getElem?_append_right (Nat.le_of_not_lt inside)] at found'
      have last : pos = layout.generators.elems.length := by
        have within := (List.getElem?_eq_some_iff.mp found').1
        rw [List.length_singleton] at within
        omega
      rw [last, Nat.sub_self] at found'
      obtain rfl := Option.some.inj found'
      rw [armedCells, List.getElem?_map] at foundCell
      obtain ⟨index, isIndex, rfl⟩ := Option.map_eq_some_iff.mp foundCell
      obtain ⟨within, rfl⟩ := List.getElem?_eq_some_iff.mp isIndex
      rw [List.getElem_range, last, here]
      rfl
  · show ((layout.generators.elems ++ [_]).map block).Nodup
    rw [List.map_append, List.map_singleton]
    refine List.nodup_append.mpr ⟨home.blocks, List.nodup_singleton _, ?_⟩
    rintro number member other new rfl
    obtain ⟨cells, among, rfl⟩ := List.mem_map.mp member
    have older := home.old cells among
    rw [List.mem_singleton.mp new] at older
    exact Nat.lt_irrefl _ older
  · rcases List.mem_append.mp member with old | new
    · exact Nat.lt_succ_of_lt (home.old cells old)
    · rw [List.mem_singleton.mp new]
      exact Nat.lt_succ_self _

/-- The `try` block of the start handler has the same results with the places, and everything it
has constructed is where it was. -/
theorem createGensAt_spec {workingDir : String} {dutAddress : EtherAddr} {idx : UInt32}
    {caps : List FlowsConfig} {gens : List FlowsGenerator} {ops : Ops} {layout : Layout}
    (home : layout.Home gens) (room : gens.length + caps.length ≤ layout.generators.capacity) :
    (createGensAt env workingDir dutAddress idx caps gens ops layout).1 =
      createGens env workingDir dutAddress idx caps gens ops ∧
    layout.fresh ≤ (createGensAt env workingDir dutAddress idx caps gens ops layout).2.fresh ∧
    ∀ built, (createGens env workingDir dutAddress idx caps gens ops).1 = .ok built →
      (createGensAt env workingDir dutAddress idx caps gens ops layout).2.Home built := by
  induction caps generalizing idx gens ops layout with
  | nil =>
    refine ⟨rfl, Nat.le_refl _, fun built same => ?_⟩
    obtain rfl := Except.ok.inj same
    exact home
  | cons cap rest inductionHypothesis =>
    rw [createGensAt, createGens]
    cases one : FlowsGenerator.construct env (generatorConfig env workingDir dutAddress idx cap) ops
      with
    | mk res middle =>
      cases res with
      | error thrown => exact ⟨rfl, Nat.le_refl _, fun built same => absurd same (by simp)⟩
      | ok gen =>
        have flows : gen.flows.length = cap.flowsPerSec.toNat := (construct_worksOn one).flows
        have some : 0 < cap.flowsPerSec.toNat := UInt32.le_iff_toNat_le.mp cap.fpsLimits.1
        rw [List.length_cons] at room
        have here : layout.generators.elems.length < layout.generators.capacity := by
          rw [home.length]
          omega
        have placed := home.emplaceBack some here flows
        rw [Layout.emplaceBack_eq some here] at placed
        dsimp only
        rw [Layout.emplaceBack_eq some here]
        obtain ⟨same, fresh, homes⟩ := @inductionHypothesis (idx + 1) (gens ++ [gen]) middle _
          placed (by
            rw [List.length_append, List.length_singleton]
            exact (Nat.add_right_comm ..).le.trans room)
        exact ⟨same, Nat.le_trans (Nat.le_succ _) fresh, homes⟩

/-- A start request leaves everything where it is, or hands over the vector that was built. -/
theorem onStartGeneration_home (input : StartIn) (cfg : GenConfig)
    (home : layout.Home manager.generators) :
    (layout.start env cfg manager).Home (onStartGeneration env input cfg manager).generators := by
  unfold Layout.start onStartGeneration
  split
  · exact home
  · obtain ⟨elems, enough, later⟩ := @reserve_empty FlowCells layout.fresh cfg.flowsCfgs.length
    dsimp only
    generalize (VectorStorage.empty : VectorStorage FlowCells).reserve layout.fresh
      cfg.flowsCfgs.length = reserved at elems enough later ⊢
    obtain ⟨same, fresh, homes⟩ := @createGensAt_spec env manager.workingDir cfg.dutAddr 0
      cfg.flowsCfgs [] manager.ops { generators := reserved.1, fresh := reserved.2 }
      (Layout.home_nil elems) (by rwa [List.length_nil, Nat.zero_add])
    cases placed : createGensAt env manager.workingDir cfg.dutAddr 0 cfg.flowsCfgs [] manager.ops
      { generators := reserved.1, fresh := reserved.2 } with
    | mk result built =>
      rw [placed] at same fresh homes
      rw [← same] at homes ⊢
      obtain ⟨res, ops⟩ := result
      cases res with
      | error thrown =>
        exact { home with old := fun cells member =>
          Nat.lt_of_lt_of_le (home.old cells member) (Nat.le_trans later fresh) }
      | ok gens => exact homes gens rfl

/-- A vector that is cleared keeps nothing that could move. -/
theorem Layout.home_clear (layout : Layout) : layout.clear.Home [] := Layout.home_nil rfl

theorem onIncMsg_home (input : StartIn) (home : layout.Home manager.generators) (msg : ReqMsg) :
    (layout.onIncMsg env manager msg).Home (onIncMsg env input manager msg).generators := by
  cases msg with
  | startGeneration cfg => exact onStartGeneration_home input cfg home
  | stopGeneration => exact layout.home_clear
  | statsReport => exact home

theorem beforeTimers_home (input : TickIn) (home : layout.Home manager.generators) :
    (layout.onTick input manager).Home (beforeTimers env input manager).2.generators := by
  unfold Layout.onTick beforeTimers
  cases manager.genCycles with
  | none => exact home
  | some genCycles =>
    dsimp only
    split
    · exact layout.home_clear
    · split <;> exact home

/-! ### Following the pointers -/

/-- The pointers of a flow. -/
theorem Layout.Home.cellAt (home : layout.Home gens) {pos flow : ℕ} {gen : FlowsGenerator}
    {fl : Flow} (found : gens[pos]? = some gen) (flowFound : gen.flows[flow]? = some fl) :
    ∃ cells : FlowCells, layout.generators.elems[pos]? = some cells ∧ layout.cellAt pos flow =
      some ⟨layout.generators.addressOf pos, some (cells.addressOf flow)⟩ := by
  have lengths := congrArg (fun list : List ℕ => list[pos]?) home.lengths
  rw [List.getElem?_map, List.getElem?_map, found, Option.map_some] at lengths
  obtain ⟨cells, foundCells, length⟩ := Option.map_eq_some_iff.mp lengths
  have within : flow < cells.elems.length := by
    rw [length]
    exact (List.getElem?_eq_some_iff.mp flowFound).1
  refine ⟨cells, foundCells, ?_⟩
  rw [Layout.cellAt, foundCells, Option.bind_some, List.getElem?_eq_getElem within]
  exact congrArg some (home.cells pos cells foundCells flow _ (List.getElem?_eq_getElem within))

/-- The address of a flow leads to that flow: no other generator has flows in the same block. -/
theorem Layout.Home.flowAt (home : layout.Home gens) {pos flow : ℕ} {cells : FlowCells}
    (found : layout.generators.elems[pos]? = some cells) (within : flow < cells.elems.length) :
    layout.flowAt (cells.addressOf flow) = some (pos, flow) := by
  obtain ⟨inside, rfl⟩ := List.getElem?_eq_some_iff.mp found
  rw [Layout.flowAt, List.findIdx?_eq_some_iff_getElem.mpr ⟨inside, ?_, fun other before => ?_⟩]
  · rfl
  · rw [deref_addressOf, List.getElem?_eq_getElem within]
    rfl
  · have otherInside := Nat.lt_trans before inside
    have apart : (layout.generators.elems[pos]).block ≠
        (layout.generators.elems[other]).block := by
      intro same
      have one := @List.Nodup.getElem_inj_iff _ _ home.blocks pos (by rwa [List.length_map]) other
        (by rwa [List.length_map])
      rw [List.getElem_map, List.getElem_map] at one
      exact Nat.ne_of_gt before (one.mp same)
    rw [deref, addressOf, if_neg apart]
    exact Bool.false_ne_true

/-- The argument of a timer leads to the flow that has the timer, and on to its generator. -/
theorem Layout.Home.onEvent (home : layout.Home gens) {pos flow : ℕ} {gen : FlowsGenerator}
    {fl : Flow} (found : gens[pos]? = some gen) (flowFound : gen.flows[flow]? = some fl) :
    ∃ cell ctx, layout.cellAt pos flow = some cell ∧ cell.ctx = some ctx ∧
      layout.onEvent ctx = some (pos, pos, flow) := by
  obtain ⟨cells, foundCells, cell⟩ := home.cellAt found flowFound
  refine ⟨_, _, cell, rfl, ?_⟩
  have within : flow < cells.elems.length := by
    rw [Layout.cellAt, foundCells, Option.bind_some] at cell
    exact (List.getElem?_eq_some_iff.mp cell).1
  rw [Layout.onEvent, home.flowAt foundCells within, Option.bind_some, cell, Option.bind_some,
    deref_addressOf, foundCells]
  rfl

/-- A change at one position that changes nothing there changes nothing. -/
theorem modify_eq_of_fixed {Elem : Type*} {change : Elem → Elem} {list : List Elem} {pos : ℕ}
    (fixed : ∀ elem, list[pos]? = some elem → change elem = elem) :
    list.modify pos change = list := by
  refine List.ext_getElem? fun other => ?_
  rw [List.getElem?_modify]
  cases found : list[other]? with
  | none => rfl
  | some elem =>
    rw [Option.map_eq_map, Option.map_some]
    split
    · next here => rw [fixed elem (here ▸ found)]
    · rfl

theorem modify_eq_set_of_found {Elem : Type*} {change : Elem → Elem} {list : List Elem} {pos : ℕ}
    {elem : Elem} (found : list[pos]? = some elem) :
    list.modify pos change = list.set pos (change elem) := by
  refine List.ext_getElem? fun other => ?_
  rw [List.getElem?_modify, List.getElem?_set]
  split
  · next here =>
    subst here
    rw [found, if_pos (List.getElem?_eq_some_iff.mp found).1]
    rfl
  · rw [Option.map_eq_map, Option.map_id']

/-- Arming the timer again changes nothing: the flow is where it was. -/
theorem Layout.Home.rearm (home : layout.Home gens) (pos flow : ℕ) :
    layout.rearm pos flow = layout := by
  rw [Layout.rearm, modify_eq_of_fixed fun cells found => ?_]
  rw [modify_eq_of_fixed fun cell foundCell => ?_]
  rw [home.cells pos cells found flow cell foundCell]

/-! ### One callback -/

/-- The timer of a flow is pending exactly when its callback can run. -/
theorem pendingAt_iff {pos flow : ℕ} : manager.pendingAt pos flow = true ↔
    ∃ gen fl, manager.generators[pos]? = some gen ∧ gen.flows[flow]? = some fl ∧
      fl.event.armed = true := by
  rw [GenManager.pendingAt, Option.any_eq_true]
  constructor
  · rintro ⟨fl, found, armed⟩
    obtain ⟨gen, foundGen, foundFlow⟩ := Option.bind_eq_some_iff.mp found
    exact ⟨gen, fl, foundGen, foundFlow, armed⟩
  · rintro ⟨gen, fl, foundGen, foundFlow, armed⟩
    exact ⟨fl, by rw [foundGen, Option.bind_some, foundFlow], armed⟩

/-- The callback of a generator and a flow at their own positions is the one of the manager. -/
theorem onFlowEventAt_eq {pos flow : ℕ} {event : EventIn} {next : GenManager}
    (run : manager.fire env pos flow event = some next) :
    (manager.expired pos flow).onFlowEventAt env event pos pos flow = some next := by
  obtain ⟨gen, fl, found, flowFound, -, rfl⟩ := fire_eq_some.mp run
  have expired : manager.expired pos flow = { manager with
      generators := manager.generators.set pos { gen with
        flows := gen.flows.set flow { fl with event := fired fl.event } } } := by
    rw [GenManager.expired, modify_eq_set_of_found found, modify_eq_set_of_found flowFound]
  have inside : pos < manager.generators.length := (List.getElem?_eq_some_iff.mp found).1
  have flowInside : flow < gen.flows.length := (List.getElem?_eq_some_iff.mp flowFound).1
  rw [expired, GenManager.onFlowEventAt]
  dsimp only
  rw [List.getElem?_set_self inside, Option.bind_some, Option.bind_some,
    List.getElem?_set_self flowInside, Option.map_some]
  refine congrArg some ?_
  -- The callback of a generator does not look at its other flows.
  rw [FlowsGenerator.onFlowEvent, flowFound]
  rw [modify_eq_set_of_found (List.getElem?_set_self inside), List.set_set]
  rw [modify_eq_set_of_found (List.getElem?_set_self inside), List.set_set]
  dsimp only
  rw [List.set_set]
  rfl

/-- The pointers of the timer that expires lead to the callback of its flow. -/
theorem PtrState.dispatch_eq {ptr : PtrState} (home : ptr.layout.Home ptr.state.manager.generators)
    {pos flow : ℕ} {event : EventIn} {next : GenManager}
    (run : ptr.state.manager.fire env pos flow event = some next) :
    ptr.dispatch env pos flow event = { ptr with state := ⟨next, .timers⟩ } := by
  obtain ⟨gen, fl, found, flowFound, -, -⟩ := fire_eq_some.mp run
  obtain ⟨cell, ctx, foundCell, isCtx, leads⟩ := home.onEvent found flowFound
  unfold PtrState.dispatch
  simp only [foundCell, isCtx, leads, onFlowEventAt_eq run, Option.bind_eq_bind, Option.bind_some,
    home.rearm, ite_self]

/-- A callback keeps the flows of its generator in their vector. -/
theorem fire_home {pos flow : ℕ} {event : EventIn} {next : GenManager}
    (home : layout.Home manager.generators)
    (run : manager.fire env pos flow event = some next) : layout.Home next.generators := by
  obtain ⟨gen, fl, found, flowFound, -, rfl⟩ := fire_eq_some.mp run
  refine home.congr ?_
  have length : (gen.onFlowEvent env event flow manager.ops).1.flows.length = gen.flows.length := by
    rw [onFlowEvent_eq gen event flowFound manager.ops]
    exact List.length_set ..
  dsimp only
  rw [List.map_set, length]
  obtain ⟨inside, rfl⟩ := List.getElem?_eq_some_iff.mp found
  have insideMap : pos < (manager.generators.map fun gen => gen.flows.length).length := by
    rwa [List.length_map]
  have same : manager.generators[pos].flows.length =
      (manager.generators.map fun gen => gen.flows.length)[pos] := by
    rw [List.getElem_map]
  rw [same]
  exact List.set_getElem_self insideMap

/-! ### Whole runs -/

/-- No pointer has led to nothing, and none can. -/
structure PtrState.Sound (ptr : PtrState) : Prop where
  noFault : ptr.fault = false
  home : ptr.layout.Home ptr.state.manager.generators

theorem PtrState.sound_init (workingDir : String) : (PtrState.init workingDir).Sound :=
  ⟨rfl, Layout.home_nil rfl⟩

/-- The step of a timer. -/
theorem ptrStep_fire {ptr : PtrState} (sound : ptr.Sound) (pos flow : ℕ) (event : EventIn) :
    (ptrStep env ptr (.fire pos flow event)).map PtrState.state =
      genStep env ptr.state (.fire pos flow event) ∧
    ∀ next, ptrStep env ptr (.fire pos flow event) = some next → next.Sound := by
  have step : ptrStep env ptr (.fire pos flow event) =
      if ptr.state.manager.ops.aborted || !ptr.state.place.managing ||
        !ptr.state.manager.pendingAt pos flow then none
      else some (ptr.dispatch env pos flow event) := by
    rw [ptrStep, sound.noFault, if_neg Bool.false_ne_true]
  have part : genPart env ptr.state (.fire pos flow event) =
      if ptr.state.place.managing then
        (ptr.state.manager.fire env pos flow event).map fun manager => ⟨manager, .timers⟩
      else none := by
    obtain ⟨⟨manager, place⟩, layout, fault⟩ := ptr
    cases place with
    | idle => rfl
    | handling msgs => cases msgs <;> rfl
    | timers => rfl
  rw [step, genStep, part]
  cases ptr.state.manager.ops.aborted with
  | true => exact ⟨rfl, fun next stuck => absurd stuck (by simp)⟩
  | false =>
    cases ptr.state.place.managing with
    | false => exact ⟨rfl, fun next stuck => absurd stuck (by simp)⟩
    | true =>
      cases run : ptr.state.manager.fire env pos flow event with
      | none =>
        have still : ptr.state.manager.pendingAt pos flow = false := by
          by_contra pending
          rw [Bool.not_eq_false] at pending
          obtain ⟨gen, fl, found, flowFound, armed⟩ := pendingAt_iff.mp pending
          have fires : ptr.state.manager.fire env pos flow event = some _ :=
            fire_eq_some.mpr ⟨gen, fl, found, flowFound, armed, rfl⟩
          exact absurd (run.symm.trans fires) (by simp)
        rw [still]
        exact ⟨rfl, fun next stuck => absurd stuck (by simp)⟩
      | some manager =>
        obtain ⟨gen, fl, found, flowFound, armed, -⟩ := fire_eq_some.mp run
        rw [pendingAt_iff.mpr ⟨gen, fl, found, flowFound, armed⟩,
          PtrState.dispatch_eq sound.home run]
        refine ⟨rfl, fun next dispatched => ?_⟩
        obtain rfl := Option.some.inj dispatched
        exact ⟨sound.noFault, fire_home sound.home run⟩

/-- Nothing moves in the other steps. -/
theorem Layout.Home.after {state next : GenState} {label : GenLabel}
    (home : layout.Home state.manager.generators)
    (step : (genMachine env).step state label = some next)
    (other : ∀ pos flow event, label ≠ .fire pos flow event) :
    (layout.after env state label).Home next.manager.generators := by
  obtain ⟨-, part⟩ := genStep_spec step
  cases part with
  | dequeue manager msgs => exact home
  | handle manager msg rest input => exact onIncMsg_home input home msg.msg
  | tick manager input => exact beforeTimers_home input home
  | fire manager after pos flow event => exact absurd rfl (other pos flow event)
  | flush manager tx => exact home
  | nic manager place stats => exact home

theorem ptrStep_other {ptr : PtrState} (sound : ptr.Sound) {label : GenLabel}
    (other : ∀ pos flow event, label ≠ .fire pos flow event) :
    (ptrStep env ptr label).map PtrState.state = genStep env ptr.state label ∧
    ∀ next, ptrStep env ptr label = some next → next.Sound := by
  have step : ptrStep env ptr label = (genStep env ptr.state label).map fun state =>
      { ptr with state, layout := ptr.layout.after env ptr.state label } := by
    unfold ptrStep
    rw [sound.noFault, if_neg Bool.false_ne_true]
    cases label with
    | fire pos flow event => exact absurd rfl (other pos flow event)
    | dequeue | handle | tick | flush | nic => rfl
  rw [step]
  refine ⟨?_, fun next stepped => ?_⟩
  · rw [Option.map_map]
    exact Option.map_id'
  · obtain ⟨state, taken, rfl⟩ := Option.map_eq_some_iff.mp stepped
    exact ⟨sound.noFault, sound.home.after taken other⟩

/-- The pointers do not get in the way of a step, and the step leaves them good. -/
theorem ptrStep_lockstep {ptr : PtrState} (sound : ptr.Sound) (label : GenLabel) :
    ((ptrMachine env).step ptr label).map PtrState.state =
      (genMachine env).step ptr.state label ∧
    ∀ next, (ptrMachine env).step ptr label = some next → next.Sound := by
  change (ptrStep env ptr label).map PtrState.state = genStep env ptr.state label ∧
    ∀ next, ptrStep env ptr label = some next → next.Sound
  cases label with
  | fire pos flow event => exact ptrStep_fire sound pos flow event
  | dequeue | handle | tick | flush | nic =>
    apply ptrStep_other sound
    intro pos flow event same
    cases same

/-- In every run of the generation thread, whatever is started, stopped and refused: the pointers
of the flows and their timers never lead to nothing, and with them the thread does what it does with
the positions of its generators and flows. Every timer is armed with a pointer to the flow that has
it, and this flow points to the generator that it is one of. -/
theorem flow_pointers_valid (env : Env) (workingDir : String) (labels : List GenLabel) :
    ((ptrMachine env).run (.init workingDir) labels).map PtrState.state =
      (genMachine env).run (.init workingDir) labels ∧
    ∀ ptr, (ptrMachine env).run (.init workingDir) labels = some ptr → ptr.fault = false ∧
      ∀ (pos flow : ℕ) (gen : FlowsGenerator) (fl : Flow),
        ptr.state.manager.generators[pos]? = some gen → gen.flows[flow]? = some fl →
        ∃ cell ctx, ptr.layout.cellAt pos flow = some cell ∧ cell.ctx = some ctx ∧
          ptr.layout.onEvent ctx = some (pos, pos, flow) := by
  have init := PtrState.sound_init workingDir
  refine ⟨?_, fun ptr run => ?_⟩
  · exact (ptrMachine env).run_map (genMachine env) PtrState.state PtrState.Sound
      (fun _ label next sound => (ptrStep_lockstep sound label).2 next)
      (fun _ label sound => (ptrStep_lockstep sound label).1) labels init
  · have sound := (ptrMachine env).run_invariant PtrState.Sound
      (fun _ label next sound => (ptrStep_lockstep sound label).2 next) init run
    exact ⟨sound.noFault, fun pos flow gen fl found flowFound =>
      sound.home.onEvent found flowFound⟩

end TrafficGenerator
