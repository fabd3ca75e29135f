/-
This file models `gen/priv/event_handle.cpp` for itself: any number of handles
of one scheduler, made, moved, assigned to and destroyed in any order.

The move assignment of a handle calls `std::swap`, and `std::swap` of a type
without a swap of its own is one move construction and two move assignments, so
the two functions call each other. They are given a fuel for the depth of their
calls; a call that returns for no fuel does not return. The files that model the
generators take the assignment to transfer the timer, as it is meant to.
-/

import TrafficGenerator.Cycles
import Mathlib.Algebra.Order.Ring.Int
import Mathlib.Algebra.Order.Ring.Nat
import Mathlib.Data.List.Range
import Mathlib.Data.List.Nodup

namespace TrafficGenerator

/-- A handle is known by the number of its construction, temporaries included. -/
abbrev HandleId := ℕ

/-- A timer is known by the number of the `get_timer` that made it. -/
abbrev TimerId := ℕ

/-- `event_handle`: `tmr_`, and whether `scheduler_` points at the scheduler. -/
structure Handle where
  tmr : Option TimerId := none
  scheduled : Bool := false
deriving DecidableEq

/-- The handles constructed so far, `none` for those destroyed, and the scheduler. -/
structure Handles where
  slots : List (Option Handle) := []
  /-- `cnt_timers_`. -/
  cntTimers : UInt32 := 0
  /-- The number of timers made. -/
  made : ℕ := 0
  /-- The timers returned to the scheduler, in order. -/
  returned : List TimerId := []
  /-- The handles that were moved from. -/
  movedFrom : List HandleId := []
deriving DecidableEq

/-- Why an operation has no result: it is not done yet, or its behaviour is undefined. -/
inductive NoResult where
  | unfinished
  | undefined
deriving DecidableEq

/-! ### The operations -/

/-- `event_handle::event_handle()`. -/
def Handles.defaultConstruct (state : Handles) : Handles :=
  { state with slots := state.slots ++ [some {}] }

/-- `event_handle::event_handle(event_scheduler*)`, with `get_timer`. -/
def Handles.construct (state : Handles) : Handles :=
  { state with
    slots := state.slots ++ [some { tmr := some state.made, scheduled := true }]
    cntTimers := state.cntTimers + 1
    made := state.made + 1 }

/-- `event_handle::event_handle(event_handle&&)`: the new handle, and the state. -/
def Handles.moveConstruct (src : HandleId) (state : Handles) :
    Except NoResult (HandleId × Handles) :=
  match state.slots[src]? with
  | some (some handle) => .ok (state.slots.length, { state with
      slots := state.slots.set src (some {}) ++ [some handle]
      movedFrom := src :: state.movedFrom })
  | _ => .error .undefined

/-- `event_handle::~event_handle()`, with `ret_timer`. -/
def Handles.destroy (id : HandleId) (state : Handles) : Except NoResult Handles :=
  match state.slots[id]? with
  | some (some { tmr := none, .. }) => .ok { state with slots := state.slots.set id none }
  | some (some { tmr := some timer, scheduled := true }) => .ok { state with
      slots := state.slots.set id none
      cntTimers := state.cntTimers - 1
      returned := state.returned ++ [timer] }
  | _ => .error .undefined

mutual

/-- `event_handle::operator=(event_handle&&)`. -/
def Handles.moveAssign : (fuel : ℕ) → (dst src : HandleId) → Handles → Except NoResult Handles
  | 0, _, _, _ => .error .unfinished
  | fuel + 1, dst, src, state => do
    let (tmp, state) ← state.moveConstruct src
    let state ← state.swap fuel tmp dst
    state.destroy tmp

/-- `std::swap`. -/
def Handles.swap : (fuel : ℕ) → (first second : HandleId) → Handles → Except NoResult Handles
  | 0, _, _, _ => .error .unfinished
  | fuel + 1, first, second, state => do
    let (tmp, state) ← state.moveConstruct first
    let state ← state.moveAssign fuel first second
    let state ← state.moveAssign fuel second tmp
    state.destroy tmp

end

/-- What a user of the handles does. -/
inductive HandleOp where
  | defaultConstruct
  | construct
  | moveConstruct (src : HandleId)
  | moveAssign (dst src : HandleId)
  | destroy (id : HandleId)
deriving DecidableEq

/-- An operation, with a bound for the depth of its calls. -/
def Handles.apply (fuel : ℕ) (state : Handles) : HandleOp → Except NoResult Handles
  | .defaultConstruct => .ok state.defaultConstruct
  | .construct => .ok state.construct
  | .moveConstruct src => (state.moveConstruct src).map Prod.snd
  | .moveAssign dst src => state.moveAssign fuel dst src
  | .destroy id => state.destroy id

/-- A live handle. -/
def Handles.Live (state : Handles) (id : HandleId) : Prop :=
  ∃ handle, state.slots[id]? = some (some handle)

/-- The operation is about live handles. -/
def HandleOp.Legal (state : Handles) : HandleOp → Prop
  | .defaultConstruct | .construct => True
  | .moveConstruct src => state.Live src
  | .moveAssign dst src => state.Live dst ∧ state.Live src
  | .destroy id => state.Live id

/-- Every operation of a sequence that is reached is. -/
def Handles.LegalSeq : Handles → List HandleOp → Prop
  | _, [] => True
  | state, op :: rest => op.Legal state ∧
      ∀ fuel next, state.apply fuel op = .ok next → next.LegalSeq rest

/-! ### The move assignment -/

/-- Moving a live handle leaves every live handle alive. -/
theorem moveConstruct_live {state : Handles} {src : HandleId} (live : state.Live src) :
    ∃ id next, state.moveConstruct src = .ok (id, next) ∧ next.Live id ∧
      ∀ other, state.Live other → next.Live other := by
  obtain ⟨handle, found⟩ := live
  have bound := (List.getElem?_eq_some_iff.mp found).1
  refine ⟨state.slots.length, { state with
    slots := state.slots.set src (some {}) ++ [some handle]
    movedFrom := src :: state.movedFrom }, ?_, ⟨handle, ?_⟩, ?_⟩
  · rw [Handles.moveConstruct, found]
  · have length : (state.slots.set src (some {})).length = state.slots.length := List.length_set
    rw [← length]
    exact List.getElem?_concat_length
  · rintro other ⟨held, foundOther⟩
    have otherBound := (List.getElem?_eq_some_iff.mp foundOther).1
    by_cases same : other = src
    · subst same
      refine ⟨{}, ?_⟩
      show (state.slots.set other _ ++ _)[other]? = _
      rw [List.getElem?_append_left (by rwa [List.length_set]), List.getElem?_set_self bound]
    · refine ⟨held, ?_⟩
      show (state.slots.set src _ ++ _)[other]? = _
      rw [List.getElem?_append_left (by rwa [List.length_set]),
        List.getElem?_set_ne (Ne.symm same), foundOther]

/-- However deep the calls may go, neither the move assignment nor `std::swap` of live handles is
done: each of them calls the other before it returns. -/
theorem moveAssign_unfinished (fuel : ℕ) :
    (∀ {state : Handles} {dst src : HandleId}, state.Live dst → state.Live src →
      state.moveAssign fuel dst src = .error .unfinished) ∧
    ∀ {state : Handles} {first second : HandleId}, state.Live first → state.Live second →
      state.swap fuel first second = .error .unfinished := by
  induction fuel with
  | zero => exact ⟨fun _ _ => by rw [Handles.moveAssign], fun _ _ => by rw [Handles.swap]⟩
  | succ fuel inductionHypothesis =>
    constructor
    · intro state dst src liveDst liveSrc
      obtain ⟨tmp, next, moved, liveTmp, others⟩ := moveConstruct_live liveSrc
      rw [Handles.moveAssign, moved]
      show (do let state ← next.swap fuel tmp dst; state.destroy tmp) = _
      rw [inductionHypothesis.2 liveTmp (others dst liveDst)]
      rfl
    · intro state first second liveFirst liveSecond
      obtain ⟨tmp, next, moved, -, others⟩ := moveConstruct_live liveFirst
      rw [Handles.swap, moved]
      show (do
        let state ← next.moveAssign fuel first second
        let state ← state.moveAssign fuel second tmp
        state.destroy tmp) = _
      rw [inductionHypothesis.1 (others first liveFirst) (others second liveSecond)]
      rfl

/-! ### Who owns the timers -/

/-- The timer a handle owns. -/
def timerOf (slot : Option Handle) : Option TimerId := slot.bind Handle.tmr

/-- The timers owned by live handles, one entry for each handle that owns one. -/
def Handles.owned (state : Handles) : List TimerId := state.slots.filterMap timerOf

/-- The ownership of the timers: the scheduler counts the owners, every timer made has one owner
or was returned once, and a handle moved from owns nothing. -/
structure Handles.TimersOwned (state : Handles) : Prop where
  cntTimers : state.cntTimers.toNat = state.owned.length
  oneOwner : state.owned.Nodup
  returnedOnce : state.returned.Nodup
  accounted : ∀ timer, timer < state.made ↔ timer ∈ state.owned ∨ timer ∈ state.returned
  apart : state.owned.Disjoint state.returned
  movedFrom : ∀ id ∈ state.movedFrom, ∀ handle, state.slots[id]? = some (some handle) →
    handle.tmr = none

/-- The same as one permutation, with the count as the scheduler's 32 bits hold it, and with what
the destructor needs: an owner knows the scheduler. -/
structure Handles.Sound (state : Handles) : Prop where
  cntTimers : state.cntTimers = UInt32.ofNat state.owned.length
  perm : (state.owned ++ state.returned).Perm (List.range state.made)
  scheduled : ∀ handle, some handle ∈ state.slots → handle.tmr.isSome → handle.scheduled = true
  movedFrom : ∀ id ∈ state.movedFrom, ∀ handle, state.slots[id]? = some (some handle) →
    handle.tmr = none
  known : ∀ id ∈ state.movedFrom, id < state.slots.length

theorem Handles.Sound.timersOwned {state : Handles} (sound : state.Sound)
    (few : state.owned.length < 2 ^ 32) : state.TimersOwned where
  cntTimers := by rw [sound.cntTimers, UInt32.toNat_ofNat_of_lt' few]
  oneOwner := (List.nodup_append.mp (sound.perm.nodup_iff.mpr List.nodup_range)).1
  returnedOnce := (List.nodup_append.mp (sound.perm.nodup_iff.mpr List.nodup_range)).2.1
  accounted timer := by rw [← List.mem_append, sound.perm.mem_iff, List.mem_range]
  apart := List.disjoint_of_nodup_append (sound.perm.nodup_iff.mpr List.nodup_range)
  movedFrom := sound.movedFrom

/-- Replacing one slot of a list. -/
theorem exists_set_split {Item : Type} {items : List Item} {pos : ℕ} {item : Item}
    (found : items[pos]? = some item) : ∃ front back, items = front ++ item :: back ∧
      ∀ other, items.set pos other = front ++ other :: back := by
  obtain ⟨bound, rfl⟩ := List.getElem?_eq_some_iff.mp found
  refine ⟨items.take pos, items.drop (pos + 1), ?_, fun other => ?_⟩
  · rw [List.getElem_cons_drop, List.take_append_drop]
  · exact List.set_eq_take_append_cons_drop.trans (if_pos bound)

theorem owned_cons (slot : Option Handle) (slots : List (Option Handle)) :
    (slot :: slots).filterMap timerOf = (timerOf slot).toList ++ slots.filterMap timerOf := by
  rw [List.filterMap_cons]
  cases timerOf slot <;> rfl

/-- Making a handle that owns nothing. -/
theorem defaultConstruct_sound {state : Handles} (sound : state.Sound) :
    state.defaultConstruct.Sound ∧ state.defaultConstruct.owned = state.owned := by
  have owned : state.defaultConstruct.owned = state.owned := by
    show (state.slots ++ [some ({} : Handle)]).filterMap timerOf = _
    rw [List.filterMap_append]
    exact List.append_nil _
  refine ⟨⟨?_, ?_, fun handle member => ?_, fun id moved handle found => ?_, fun id moved => ?_⟩,
    owned⟩
  · rw [owned]
    exact sound.cntTimers
  · rw [owned]
    exact sound.perm
  · rcases List.mem_append.mp member with before | new
    · exact sound.scheduled handle before
    · obtain rfl := Option.some.inj (List.mem_singleton.mp new)
      exact fun owns => absurd owns Bool.false_ne_true
  · refine sound.movedFrom id moved handle ?_
    rwa [← List.getElem?_append_left (sound.known id moved)]
  · exact Nat.lt_of_lt_of_le (sound.known id moved) (by simp [Handles.defaultConstruct])

/-- Making a handle that owns a new timer. -/
theorem construct_sound {state : Handles} (sound : state.Sound) :
    state.construct.Sound ∧ state.construct.owned = state.owned ++ [state.made] := by
  have owned : state.construct.owned = state.owned ++ [state.made] := by
    show (state.slots ++ [some _]).filterMap timerOf = _
    rw [List.filterMap_append]
    rfl
  refine ⟨⟨?_, ?_, fun handle member => ?_, fun id moved handle found => ?_, fun id moved => ?_⟩,
    owned⟩
  · rw [owned, List.length_append, UInt32.ofNat_add, ← sound.cntTimers]
    rfl
  · show (state.construct.owned ++ state.returned).Perm (List.range (state.made + 1))
    rw [owned, List.range_succ, List.append_assoc]
    refine List.Perm.trans ?_ (sound.perm.append_right _)
    rw [List.append_assoc]
    exact List.perm_append_comm.append_left _
  · rcases List.mem_append.mp member with before | new
    · exact sound.scheduled handle before
    · obtain rfl := Option.some.inj (List.mem_singleton.mp new)
      exact fun _ => rfl
  · refine sound.movedFrom id moved handle ?_
    rwa [← List.getElem?_append_left (sound.known id moved)]
  · exact Nat.lt_of_lt_of_le (sound.known id moved) (by simp [Handles.construct])

/-- Moving a handle hands its timer on. -/
theorem moveConstruct_sound {state next : Handles} {src id : HandleId} (sound : state.Sound)
    (run : state.moveConstruct src = .ok (id, next)) :
    next.Sound ∧ next.owned.Perm state.owned := by
  rw [Handles.moveConstruct] at run
  split at run
  · next handle found =>
    obtain ⟨rfl, rfl⟩ := Prod.mk.inj (Except.ok.inj run)
    obtain ⟨front, back, slots, set⟩ := exists_set_split found
    have member : some handle ∈ state.slots := List.mem_of_getElem? found
    have perm : (Handles.owned { state with
        slots := state.slots.set src (some {}) ++ [some handle]
        movedFrom := src :: state.movedFrom }).Perm state.owned := by
      show ((state.slots.set src _ ++ _).filterMap timerOf).Perm (state.slots.filterMap timerOf)
      rw [set, slots, List.filterMap_append, List.filterMap_append, List.filterMap_append,
        owned_cons, owned_cons, owned_cons, List.append_assoc]
      refine List.Perm.append_left _ ?_
      show (back.filterMap timerOf ++ ((timerOf (some handle)).toList ++ [])).Perm _
      rw [List.append_nil]
      exact List.perm_append_comm
    refine ⟨⟨?_, ?_, fun held among => ?_, ?_, ?_⟩, perm⟩
    · rw [perm.length_eq]
      exact sound.cntTimers
    · exact (perm.append_right _).trans sound.perm
    · rcases List.mem_append.mp among with before | new
      · rcases List.mem_or_eq_of_mem_set before with old | empty
        · exact sound.scheduled held old
        · obtain rfl := Option.some.inj empty
          exact fun owns => absurd owns Bool.false_ne_true
      · obtain rfl := Option.some.inj (List.mem_singleton.mp new)
        exact sound.scheduled held member
    · -- the source owns nothing now, and the handles moved from before have not changed
      have bound := (List.getElem?_eq_some_iff.mp found).1
      intro other moved held foundOther
      have among : other < state.slots.length := by
        rcases List.mem_cons.mp moved with rfl | before
        · exact bound
        · exact sound.known other before
      have unchanged : (state.slots.set src (some {}))[other]? = some (some held) := by
        rwa [← List.getElem?_append_left (by rwa [List.length_set])]
      by_cases same : other = src
      · subst same
        rw [List.getElem?_set_self bound] at unchanged
        obtain rfl := Option.some.inj (Option.some.inj unchanged)
        rfl
      · rw [List.getElem?_set_ne (Ne.symm same)] at unchanged
        exact sound.movedFrom other ((List.mem_cons.mp moved).resolve_left same) held unchanged
    · intro other moved
      show other < (state.slots.set src _ ++ [_]).length
      rw [List.length_append, List.length_set]
      rcases List.mem_cons.mp moved with rfl | before
      · exact Nat.lt_succ_of_lt (List.getElem?_eq_some_iff.mp found).1
      · exact Nat.lt_succ_of_lt (sound.known other before)
  · exact absurd run (by simp)

/-- What is left after a handle is gone. -/
theorem erase_sound {state : Handles} {id : HandleId} {handle : Handle} (sound : state.Sound)
    (found : state.slots[id]? = some (some handle)) :
    (∀ held, some held ∈ state.slots.set id none → held.tmr.isSome → held.scheduled = true) ∧
    (∀ other ∈ state.movedFrom, ∀ held, (state.slots.set id none)[other]? = some (some held) →
      held.tmr = none) ∧
    ∀ other ∈ state.movedFrom, other < (state.slots.set id none).length := by
  refine ⟨fun held among => ?_, fun other moved held foundOther => ?_, fun other moved => ?_⟩
  · rcases List.mem_or_eq_of_mem_set among with old | empty
    · exact sound.scheduled held old
    · exact absurd empty (by simp)
  · by_cases same : other = id
    · subst same
      rw [List.getElem?_set_self (List.getElem?_eq_some_iff.mp found).1] at foundOther
      exact absurd foundOther (by simp)
    · rw [List.getElem?_set_ne (Ne.symm same)] at foundOther
      exact sound.movedFrom other moved held foundOther
  · rw [List.length_set]
    exact sound.known other moved

/-- Destroying a live handle is defined: a timer goes back to the scheduler. -/
theorem destroy_sound {state : Handles} {id : HandleId} (sound : state.Sound)
    (live : state.Live id) :
    ∃ next, state.destroy id = .ok next ∧ next.Sound ∧
      next.owned.length ≤ state.owned.length := by
  obtain ⟨⟨tmr, scheduled⟩, found⟩ := live
  obtain ⟨front, back, slots, set⟩ := exists_set_split found
  obtain ⟨knows, movedFrom, known⟩ := erase_sound sound found
  have left : (state.slots.set id none).filterMap timerOf =
      front.filterMap timerOf ++ back.filterMap timerOf := by
    rw [set, List.filterMap_append, owned_cons]
    rfl
  have before : state.owned =
      front.filterMap timerOf ++ (tmr.toList ++ back.filterMap timerOf) := by
    show state.slots.filterMap timerOf = _
    rw [slots, List.filterMap_append, owned_cons]
    rfl
  cases tmr with
  | none =>
    refine ⟨{ state with slots := state.slots.set id none }, ?_, ?_, ?_⟩
    · rw [Handles.destroy, found]
    · have same : Handles.owned { state with slots := state.slots.set id none } = state.owned :=
        left.trans before.symm
      exact ⟨by rw [same]; exact sound.cntTimers, by rw [same]; exact sound.perm, knows, movedFrom,
        known⟩
    · exact le_of_eq (congrArg List.length (left.trans before.symm))
  | some timer =>
    have knowsIt : scheduled = true :=
      sound.scheduled _ (List.mem_of_getElem? found) rfl
    subst knowsIt
    have moved : state.owned.Perm (timer :: Handles.owned
        { state with slots := state.slots.set id none }) := by
      rw [before, show Handles.owned { state with slots := state.slots.set id none } =
        front.filterMap timerOf ++ back.filterMap timerOf from left]
      exact List.perm_middle
    refine ⟨{ state with
      slots := state.slots.set id none
      cntTimers := state.cntTimers - 1
      returned := state.returned ++ [timer] }, ?_, ⟨?_, ?_, knows, movedFrom, known⟩, ?_⟩
    · rw [Handles.destroy, found]
    · show state.cntTimers - 1 = UInt32.ofNat
        (Handles.owned { state with slots := state.slots.set id none }).length
      rw [sound.cntTimers, moved.length_eq, List.length_cons, UInt32.ofNat_add]
      exact UInt32.add_sub_cancel _ _
    · show (Handles.owned { state with slots := state.slots.set id none } ++
        (state.returned ++ [timer])).Perm _
      refine List.Perm.trans ?_ ((moved.append_right _).symm.trans sound.perm)
      rw [← List.append_assoc]
      exact List.perm_append_singleton _ _
    · rw [moved.length_eq]
      exact Nat.le_succ _

/-! ### Whole sequences -/

/-- Every operation of the sequence returns, and leaves the ownership as it should be. -/
def Handles.Meets : Handles → List HandleOp → Prop
  | _, [] => True
  | state, op :: rest => ∃ fuel next, state.apply fuel op = .ok next ∧ next.TimersOwned ∧
      next.Meets rest

/-- The operation assigns to no handle, and makes no more timers at a time than the scheduler
counts. -/
def HandleOp.Allowed (state : Handles) : HandleOp → Prop
  | .construct => state.owned.length + 1 < 2 ^ 32
  | .moveAssign _ _ => False
  | .defaultConstruct | .moveConstruct _ | .destroy _ => True

/-- Every operation of a sequence that is reached is allowed. -/
def Handles.AllAllowed : Handles → List HandleOp → Prop
  | _, [] => True
  | state, op :: rest => op.Allowed state ∧
      ∀ fuel next, state.apply fuel op = .ok next → next.AllAllowed rest

/-- A legal operation that assigns to no handle returns, at any depth. -/
theorem apply_sound {state : Handles} (sound : state.Sound) {op : HandleOp} (legal : op.Legal state)
    (noAssign : ∀ dst src, op ≠ .moveAssign dst src) :
    ∃ next, (∀ fuel, state.apply fuel op = .ok next) ∧ next.Sound ∧
      next.owned.length ≤ state.owned.length + if op = .construct then 1 else 0 := by
  cases op with
  | defaultConstruct =>
    obtain ⟨next, owned⟩ := defaultConstruct_sound sound
    exact ⟨_, fun _ => rfl, next, by rw [owned]; exact Nat.le_add_right _ _⟩
  | construct =>
    obtain ⟨next, owned⟩ := construct_sound sound
    exact ⟨_, fun _ => rfl, next, by rw [owned, List.length_append]; exact Nat.le_refl _⟩
  | moveConstruct src =>
    obtain ⟨id, next, moved, -, -⟩ := moveConstruct_live legal
    obtain ⟨nextSound, perm⟩ := moveConstruct_sound sound moved
    refine ⟨next, fun _ => ?_, nextSound, by rw [perm.length_eq]; exact Nat.le_add_right _ _⟩
    rw [Handles.apply, moved]
    rfl
  | moveAssign dst src => exact absurd rfl (noAssign dst src)
  | destroy id =>
    obtain ⟨next, run, nextSound, fewer⟩ := destroy_sound sound legal
    exact ⟨next, fun _ => run, nextSound, Nat.le_add_right_of_le fewer⟩

/-- Only the move assignment of live handles does not return. -/
theorem apply_moveAssign {state next : Handles} {fuel : ℕ} {dst src : HandleId}
    (legal : (HandleOp.moveAssign dst src).Legal state) :
    state.apply fuel (.moveAssign dst src) ≠ .ok next := by
  show state.moveAssign fuel dst src ≠ _
  rw [(moveAssign_unfinished fuel).1 legal.1 legal.2]
  exact fun same => absurd same (by simp)

theorem meets_iff {state : Handles} {ops : List HandleOp} (sound : state.Sound)
    (few : state.owned.length < 2 ^ 32) (legal : state.LegalSeq ops) :
    state.Meets ops ↔ state.AllAllowed ops := by
  induction ops generalizing state with
  | nil => exact Iff.rfl
  | cons op rest inductionHypothesis =>
    by_cases noAssign : ∀ dst src, op ≠ .moveAssign dst src
    · obtain ⟨next, run, nextSound, grows⟩ := apply_sound sound legal.1 noAssign
      have later : next.owned.length < 2 ^ 32 → (next.Meets rest ↔ next.AllAllowed rest) :=
        fun fewer => inductionHypothesis nextSound fewer (legal.2 0 next (run 0))
      have unique : ∀ {fuel other}, state.apply fuel op = .ok other → other = next :=
        fun same => Except.ok.inj (same.symm.trans (run _))
      constructor
      · rintro ⟨fuel, other, returned, owned, meets⟩
        obtain rfl := unique returned
        have fewer : other.owned.length < 2 ^ 32 := by
          rw [← owned.cntTimers]
          exact UInt32.toNat_lt _
        refine ⟨?_, fun fuel' other' returned' => unique returned' ▸ (later fewer).mp meets⟩
        cases op with
        | construct =>
          obtain rfl := Except.ok.inj (run 0)
          have length := (construct_sound sound).2
          rw [length, List.length_append] at fewer
          exact fewer
        | moveAssign dst src => exact absurd rfl (noAssign dst src)
        | defaultConstruct | moveConstruct | destroy => exact trivial
      · rintro ⟨allowed, restAllowed⟩
        have fewer : next.owned.length < 2 ^ 32 := by
          refine Nat.lt_of_le_of_lt grows ?_
          split
          · next made =>
            subst made
            exact allowed
          · exact few
        exact ⟨0, next, run 0, nextSound.timersOwned fewer,
          (later fewer).mpr (restAllowed 0 next (run 0))⟩
    · push Not at noAssign
      obtain ⟨dst, src, rfl⟩ := noAssign
      constructor
      · rintro ⟨fuel, next, returned, -⟩
        exact absurd returned (apply_moveAssign legal.1)
      · rintro ⟨allowed, -⟩
        exact absurd allowed not_false

/-- Of the sequences of operations on the handles of a scheduler, those keep the ownership of the
timers, each operation returning, that assign to no handle and never have `2^32` or more owners
at a time. -/
theorem handles_owned_iff (ops : List HandleOp) (legal : Handles.LegalSeq {} ops) :
    Handles.Meets {} ops ↔ Handles.AllAllowed {} ops := by
  refine meets_iff ⟨rfl, List.Perm.nil, ?_, ?_, ?_⟩ (by decide) legal
  · exact fun handle member => absurd member List.not_mem_nil
  · exact fun id member => absurd member List.not_mem_nil
  · exact fun id member => absurd member List.not_mem_nil

/-- One more operation that returns in front of a legal sequence. -/
theorem Handles.LegalSeq.cons {state next : Handles} {op : HandleOp} {rest : List HandleOp}
    (legal : op.Legal state) (run : ∀ fuel, state.apply fuel op = .ok next)
    (more : next.LegalSeq rest) : state.LegalSeq (op :: rest) :=
  ⟨legal, fun _ _ same => Except.ok.inj ((run _).symm.trans same) ▸ more⟩

/-- A handle with a timer is moved, and both handles are destroyed. -/
def moveAndDestroy : List HandleOp := [.construct, .moveConstruct 0, .destroy 0, .destroy 1]

theorem handles_owned_moveAndDestroy :
    Handles.Meets {} moveAndDestroy ↔ Handles.AllAllowed {} moveAndDestroy := by
  refine handles_owned_iff moveAndDestroy ?_
  refine .cons trivial (fun _ => rfl) ?_
  refine .cons ⟨_, rfl⟩ (fun _ => rfl) ?_
  refine .cons ⟨_, rfl⟩ (fun _ => rfl) ?_
  exact .cons ⟨_, rfl⟩ (fun _ => rfl) trivial

/-- What `setup_flow_events` does for a flow: a new handle is assigned to an empty one. -/
def assignNew : List HandleOp := [.defaultConstruct, .construct, .moveAssign 0 1]

/-- The assignment is legal, and does not return. -/
theorem move_assignment_hangs : Handles.LegalSeq {} assignNew ∧ ¬ Handles.Meets {} assignNew := by
  have legal : Handles.LegalSeq {} assignNew :=
    .cons trivial (fun _ => rfl) (.cons trivial (fun _ => rfl)
      ⟨⟨⟨_, rfl⟩, ⟨_, rfl⟩⟩, fun _ _ _ => trivial⟩)
  refine ⟨legal, ?_⟩
  rintro ⟨_, next, first, -, _, next', second, -, fuel, final, returned, -⟩
  obtain rfl := Except.ok.inj first
  obtain rfl := Except.ok.inj second
  exact apply_moveAssign ⟨⟨_, rfl⟩, ⟨_, rfl⟩⟩ returned

end TrafficGenerator
