/-
This file is about loops that are left from their body: `for (;;)` with a
`return` in it, or with a condition that is tested first. One round takes the
state before it to what the loop ends with or to the state before the next
round. That a loop ends is a derivation with one step for each of its rounds,
so it holds of no loop that goes on for ever.
-/

import Mathlib.Data.Nat.Notation

namespace Rounds

variable {State Result : Type*} {body : State → Result ⊕ State}

/-- From the state, after a number of rounds that go on, the loop ends with the result. -/
inductive Ends (body : State → Result ⊕ State) : ℕ → State → Result → Prop
  | leave {state : State} {result : Result} (left : body state = .inl result) :
      Ends body 0 state result
  | goOn {rounds : ℕ} {state next : State} {result : Result} (round : body state = .inr next)
      (rest : Ends body rounds next result) : Ends body (rounds + 1) state result

/-- A loop ends in one way only. -/
theorem Ends.unique {rounds rounds' : ℕ} {state : State} {result result' : Result}
    (first : Ends body rounds state result) (second : Ends body rounds' state result') :
    rounds = rounds' ∧ result = result' := by
  induction first generalizing rounds' with
  | leave left =>
    cases second with
    | leave left' => exact ⟨rfl, Sum.inl.inj (left.symm.trans left')⟩
    | goOn round' _ => exact absurd (left.symm.trans round') (by simp)
  | goOn round _ inductionHypothesis =>
    cases second with
    | leave left' => exact absurd (round.symm.trans left') (by simp)
    | goOn round' rest' =>
      obtain rfl := Sum.inr.inj (round.symm.trans round')
      obtain ⟨rfl, same⟩ := inductionHypothesis rest'
      exact ⟨rfl, same⟩

/-- A loop whose rounds make a number smaller ends, and a function that unrolls it as often as
that number says computes what it ends with. -/
theorem ends_of_measure (measure : State → ℕ) (run : ℕ → State → Result)
    (smaller : ∀ state next, body state = .inr next → measure next < measure state)
    (unrolls : ∀ fuel state, run (fuel + 1) state = Sum.elim id (run fuel) (body state))
    (stops : ∀ state, measure state = 0 → body state = .inl (run 0 state))
    {fuel : ℕ} (state : State) (enough : measure state ≤ fuel) :
    ∃ rounds ≤ measure state, Ends body rounds state (run fuel state) := by
  induction fuel generalizing state with
  | zero => exact ⟨0, Nat.zero_le _, .leave (stops state (Nat.le_zero.mp enough))⟩
  | succ fuel inductionHypothesis =>
    rw [unrolls]
    cases round : body state with
    | inl result => exact ⟨0, Nat.zero_le _, .leave round⟩
    | inr next =>
      have less := smaller state next round
      have enoughLeft : measure next ≤ fuel :=
        Nat.le_of_lt_succ (Nat.lt_of_lt_of_le less enough)
      obtain ⟨rounds, few, rest⟩ := inductionHypothesis next enoughLeft
      exact ⟨rounds + 1, by omega, .goOn round rest⟩

end Rounds
