/-
This file is about parsers with actions: a parser takes a text and variables, and
leaves the rest of the text, if it accepts, and the variables as its actions left
them. The actions of a parser that rejects in the end have run all the same, so
what the actions do to the variables is followed apart from what is accepted.
-/

import Mathlib.Logic.Basic

namespace ActionParsers

variable {State Value : Type}

/-- A parser, with the variables its actions change. -/
abbrev Parser (State : Type) := List Char → State → Option (List Char) × State

/-- The given character. -/
def lit (char : Char) : Parser State
  | first :: rest, state => (if first = char then some rest else none, state)
  | [], state => (none, state)

/-- The end of the text. -/
def eoi : Parser State := fun text state => (if text = [] then some [] else none, state)

/-- A value, and an action on it that has the last word on whether it is accepted. -/
def act (read : List Char → Option (Value × List Char)) (action : Value → State → Bool × State) :
    Parser State := fun text state =>
  match read text with
  | some (val, rest) => (if (action val state).1 then some rest else none, (action val state).2)
  | none => (none, state)

/-- One parser after the other. -/
def Parser.seq (first second : Parser State) : Parser State := fun text state =>
  match first text state with
  | (some rest, state) => second rest state
  | (none, state) => (none, state)

/-! ### Sequences -/

theorem Parser.seq_of_some {first : Parser State} {text rest : List Char} {state state' : State}
    (accepts : first text state = (some rest, state')) (second : Parser State) :
    first.seq second text state = second rest state' := by
  unfold Parser.seq
  rw [accepts]

theorem Parser.seq_of_none {first : Parser State} {text : List Char} {state : State}
    (rejects : (first text state).1 = none) (second : Parser State) :
    first.seq second text state = (none, (first text state).2) := by
  unfold Parser.seq
  generalize first text state = outcome at *
  obtain ⟨result, state'⟩ := outcome
  obtain rfl : result = none := rejects
  rfl

theorem Parser.seq_assoc (first second third : Parser State) :
    (first.seq second).seq third = first.seq (second.seq third) := by
  funext text state
  unfold Parser.seq
  generalize first text state = outcome
  obtain ⟨result, state'⟩ := outcome
  cases result <;> rfl

/-! ### What is accepted -/

theorem lit_eq_some_iff {char : Char} {text rest : List Char} {state final : State} :
    lit char text state = (some rest, final) ↔ text = char :: rest ∧ final = state := by
  cases text with
  | nil => simp [lit]
  | cons first others =>
    unfold lit
    split
    · next same => simp [same, eq_comm]
    · next other => simp [other]

theorem eoi_eq_some_iff {text rest : List Char} {state final : State} :
    eoi text state = (some rest, final) ↔ text = [] ∧ rest = [] ∧ final = state := by
  unfold eoi
  split
  · next empty => simp [empty, eq_comm]
  · next some => simp [some]

theorem act_eq_some_iff {read : List Char → Option (Value × List Char)}
    {action : Value → State → Bool × State} {text rest : List Char} {state final : State} :
    act read action text state = (some rest, final) ↔ ∃ val, read text = some (val, rest) ∧
      (action val state).1 = true ∧ final = (action val state).2 := by
  unfold act
  cases readText : read text with
  | none => simp
  | some outcome =>
    obtain ⟨val, others⟩ := outcome
    dsimp only
    split
    · next pass =>
      simp only [Prod.mk.injEq, Option.some.injEq]
      constructor
      · rintro ⟨rfl, rfl⟩
        exact ⟨val, ⟨rfl, rfl⟩, pass, rfl⟩
      · rintro ⟨_, ⟨rfl, rfl⟩, -, rfl⟩
        exact ⟨rfl, rfl⟩
    · next fails =>
      simp only [Prod.mk.injEq, Option.some.injEq, reduceCtorEq, false_and, false_iff]
      rintro ⟨_, ⟨rfl, rfl⟩, pass, -⟩
      exact fails pass

theorem Parser.seq_eq_some_iff {first second : Parser State} {text rest : List Char}
    {state final : State} : first.seq second text state = (some rest, final) ↔
      ∃ middle state', first text state = (some middle, state') ∧
        second middle state' = (some rest, final) := by
  unfold Parser.seq
  generalize first text state = outcome
  obtain ⟨result, state'⟩ := outcome
  cases result with
  | none => simp
  | some middle =>
    constructor
    · exact fun accepts => ⟨middle, state', rfl, accepts⟩
    · rintro ⟨middle', state'', same, accepts⟩
      obtain ⟨rest', rfl⟩ := Prod.mk.inj same
      exact Option.some.inj rest' ▸ accepts

/-! ### What the actions do -/

/-- The variables before and after are related, whether the parser accepts or not. -/
def Parser.Relates (parser : Parser State) (relation : State → State → Prop) : Prop :=
  ∀ text state, relation state (parser text state).2

theorem relates_lit (char : Char) {relation : State → State → Prop}
    (refl : ∀ state, relation state state) : (lit char).Relates relation := by
  intro text state
  cases text with
  | nil => exact refl state
  | cons first rest => exact refl state

theorem relates_eoi {relation : State → State → Prop} (refl : ∀ state, relation state state) :
    eoi.Relates relation := fun _ state => refl state

theorem relates_act {read : List Char → Option (Value × List Char)}
    {action : Value → State → Bool × State} {relation : State → State → Prop}
    (refl : ∀ state, relation state state)
    (acts : ∀ val state, relation state (action val state).2) :
    (act read action).Relates relation := by
  intro text state
  unfold act
  cases read text with
  | none => exact refl state
  | some outcome => exact acts outcome.1 state

/-- A sequence ends where its first parser rejects, or where its second one ends. -/
theorem relates_seq {first second : Parser State} {before after whole : State → State → Prop}
    (relates : first.Relates before) (relates' : second.Relates after)
    (stop : ∀ {start state}, before start state → whole start state)
    (compose : ∀ {start state final}, before start state → after state final →
      whole start final) : (first.seq second).Relates whole := by
  intro text state
  have early := relates text state
  cases accepted : (first text state).1 with
  | none =>
    rw [Parser.seq_of_none accepted]
    exact stop early
  | some rest =>
    rw [Parser.seq_of_some (Prod.ext accepted rfl)]
    exact compose early (relates' rest _)

end ActionParsers
