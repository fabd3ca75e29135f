/-
This file is about numerals: what the digits in front of a text are, and what they
are worth. The base and the digits are parameters. A scan takes all the digits
there are, so where a text is split into digits and what begins with no digit, it
is split there; the digits a number is written with are worth that number, with
any zeros in front of them.
-/

import Mathlib.Algebra.Order.Ring.Nat
import Mathlib.Data.List.Induction
import Mathlib.Data.List.TakeWhile

namespace Numerals

/-- What a character is worth as a digit, if it is one. -/
abbrev DigitOf := Char → Option ℕ

variable (digitOf : DigitOf) (base : ℕ)

/-- The value of a text of digits, the last one the least. -/
def value (digits : List Char) : ℕ :=
  (digits.filterMap digitOf).foldl (fun val digit => val * base + digit) 0

/-- Digits only, and at least one. -/
def Numeral (chars : List Char) : Prop := chars ≠ [] ∧ ∀ char ∈ chars, (digitOf char).isSome = true

instance (chars : List Char) : Decidable (Numeral digitOf chars) :=
  inferInstanceAs (Decidable (_ ∧ _))

/-- A text that does not begin with a digit. -/
def Stops (rest : List Char) : Prop := ∀ char ∈ rest.head?, (digitOf char).isSome = false

/-- The digits in front of a text. -/
def front (text : List Char) : List Char := text.takeWhile fun char => (digitOf char).isSome

/-- What is behind them. -/
def behind (text : List Char) : List Char := text.dropWhile fun char => (digitOf char).isSome

/-- The digits of base ten. -/
def decDigit (char : Char) : Option ℕ :=
  if '0' ≤ char ∧ char ≤ '9' then some (char.toNat - '0'.toNat) else none

variable {digitOf base}

/-! ### Where the digits end -/

theorem front_append_behind (text : List Char) : front digitOf text ++ behind digitOf text = text :=
  List.takeWhile_append_dropWhile

theorem digits_front {text : List Char} :
    ∀ char ∈ front digitOf text, (digitOf char).isSome = true :=
  fun _ member => List.mem_takeWhile_imp (p := fun char => (digitOf char).isSome) member

theorem stops_behind (text : List Char) : Stops digitOf (behind digitOf text) := by
  intro char first
  have stopped := List.head?_dropWhile_not (fun char => (digitOf char).isSome) text
  rwa [show (text.dropWhile fun char => (digitOf char).isSome).head? = some char from first]
    at stopped

theorem numeral_front_iff (text : List Char) :
    Numeral digitOf (front digitOf text) ↔ front digitOf text ≠ [] :=
  ⟨And.left, fun some => ⟨some, digits_front⟩⟩

theorem stops_nil : Stops digitOf [] := fun _ member => absurd member (by simp)

theorem front_of_stops {rest : List Char} (stops : Stops digitOf rest) :
    front digitOf rest = [] := by
  cases rest with
  | nil => rfl
  | cons char rest =>
    rw [front, List.takeWhile_cons, stops char rfl, if_neg Bool.false_ne_true]

theorem behind_of_stops {rest : List Char} (stops : Stops digitOf rest) :
    behind digitOf rest = rest := by
  have split : front digitOf rest ++ behind digitOf rest = rest := front_append_behind rest
  rwa [front_of_stops stops, List.nil_append] at split

/-- The digits a text begins with are the ones in front of it. -/
theorem front_append {digits rest : List Char}
    (all : ∀ char ∈ digits, (digitOf char).isSome = true) (stops : Stops digitOf rest) :
    front digitOf (digits ++ rest) = digits := by
  have taken : front digitOf (digits ++ rest) = digits ++ front digitOf rest :=
    List.takeWhile_append_of_pos all
  rw [taken, front_of_stops stops, List.append_nil]

theorem behind_append {digits rest : List Char}
    (all : ∀ char ∈ digits, (digitOf char).isSome = true) (stops : Stops digitOf rest) :
    behind digitOf (digits ++ rest) = rest := by
  have dropped : behind digitOf (digits ++ rest) = behind digitOf rest :=
    List.dropWhile_append_of_pos all
  rw [dropped, behind_of_stops stops]

/-! ### What digits are worth -/

theorem value_nil : value digitOf base [] = 0 := rfl

theorem value_append_digit (digits : List Char) {char : Char} {digit : ℕ}
    (known : digitOf char = some digit) :
    value digitOf base (digits ++ [char]) = value digitOf base digits * base + digit := by
  unfold value
  rw [List.filterMap_append, List.filterMap_cons, known, List.filterMap_nil, List.foldl_append]
  rfl

/-- A zero in front is worth nothing. -/
theorem value_zero_cons {zero : Char} (known : digitOf zero = some 0) (digits : List Char) :
    value digitOf base (zero :: digits) = value digitOf base digits := by
  unfold value
  rw [List.filterMap_cons, known, List.foldl_cons, Nat.zero_mul]

/-- Where the digits of the base are known, the ones a number is written with are worth it. -/
theorem value_toDigits (big : 1 < base)
    (known : ∀ digit < base, digitOf digit.digitChar = some digit) (num : ℕ) :
    value digitOf base (Nat.toDigits base num) = num := by
  induction num using Nat.strongRecOn with
  | ind num inductionHypothesis =>
    rcases Nat.lt_or_ge num base with small | large
    · rw [Nat.toDigits_of_lt_base small, ← List.nil_append [_],
        value_append_digit [] (known num small), value_nil, Nat.zero_mul, Nat.zero_add]
    · have positive : 0 < num := Nat.lt_of_lt_of_le (Nat.zero_lt_of_lt big) large
      have less : num / base < num := Nat.div_lt_self positive big
      have last := known (num % base) (Nat.mod_lt num (Nat.zero_lt_of_lt big))
      rw [Nat.toDigits_of_base_le big large, value_append_digit _ last,
        inductionHypothesis _ less, Nat.div_add_mod']

theorem numeral_toDigits (big : 1 < base)
    (known : ∀ digit < base, digitOf digit.digitChar = some digit) (num : ℕ) :
    Numeral digitOf (Nat.toDigits base num) := by
  refine ⟨Nat.toDigits_ne_nil, ?_⟩
  induction num using Nat.strongRecOn with
  | ind num inductionHypothesis =>
    intro char member
    rcases Nat.lt_or_ge num base with small | large
    · rw [Nat.toDigits_of_lt_base small, List.mem_singleton] at member
      rw [member, known num small]
      rfl
    · have positive : 0 < num := Nat.lt_of_lt_of_le (Nat.zero_lt_of_lt big) large
      have last := known (num % base) (Nat.mod_lt num (Nat.zero_lt_of_lt big))
      rw [Nat.toDigits_of_base_le big large] at member
      rcases List.mem_append.mp member with before | final
      · exact inductionHypothesis _ (Nat.div_lt_self positive big) char before
      · rw [List.mem_singleton.mp final, last]
        rfl

/-- A numeral does not begin with a minus sign. -/
theorem not_numeral_minus (digits : List Char) : ¬ Numeral decDigit ('-' :: digits) :=
  fun numeral => absurd (numeral.2 '-' List.mem_cons_self) (by decide)

theorem decDigit_digitChar : ∀ digit < 10, decDigit digit.digitChar = some digit := by decide

/-! ### Zeros in front -/

theorem value_leftpad {zero : Char} (known : digitOf zero = some 0) (width : ℕ)
    (digits : List Char) :
    value digitOf base (digits.leftpad width zero) = value digitOf base digits := by
  unfold List.leftpad
  induction width - digits.length with
  | zero => rfl
  | succ count inductionHypothesis =>
    rw [List.replicate_succ, List.cons_append, value_zero_cons known, inductionHypothesis]

theorem numeral_leftpad {zero : Char} (known : digitOf zero = some 0) (width : ℕ)
    {digits : List Char} (numeral : Numeral digitOf digits) :
    Numeral digitOf (digits.leftpad width zero) := by
  refine ⟨List.append_ne_nil_of_right_ne_nil _ numeral.1, fun char member => ?_⟩
  rcases List.mem_append.mp member with padding | among
  · rw [(List.mem_replicate.mp padding).2, known]
    rfl
  · exact numeral.2 char among

end Numerals
