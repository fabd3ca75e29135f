/-
This file models `put/string_utils.h`: the trimming of blanks and `str_to_int`,
which reads a decimal number through `std::from_chars`. Whether a number was read
is told by where the scan stopped, and not by the error it reports. So an empty
string passes, since its scan stops where it starts, and so does a number that
does not fit, since its scan stops behind the digits; both are read as zero. All
other strings are read exactly.
-/

import Mathlib.Algebra.Order.Ring.Int
import Mathlib.Data.List.DropRight
import TrafficGenerator.Numerals

namespace TrafficGenerator

open Numerals

/-! ### Trimming -/

/-- The characters `" \t"`. -/
def isBlank (char : Char) : Bool := char = ' ' || char = '\t'

def strTrimLeft (str : List Char) : List Char := str.dropWhile isBlank

def strTrimRight (str : List Char) : List Char := str.rdropWhile isBlank

/-- `str_trim`. -/
def strTrim (str : List Char) : List Char := strTrimRight (strTrimLeft str)

/-! ### Numbers -/

/-- An integral type: whether it has a sign, and its width. -/
structure IntType where
  signed : Bool
  bits : ℕ

/-- `uint16_t`. -/
def uint16Type : IntType := ⟨false, 16⟩

def IntType.min (int : IntType) : ℤ := if int.signed then -2 ^ (int.bits - 1) else 0

def IntType.max (int : IntType) : ℤ :=
  if int.signed then 2 ^ (int.bits - 1) - 1 else 2 ^ int.bits - 1

/-- The number is a value of the type. -/
def IntType.Fits (int : IntType) (num : ℤ) : Prop := int.min ≤ num ∧ num ≤ int.max

instance (int : IntType) (num : ℤ) : Decidable (int.Fits num) := inferInstanceAs (Decidable (_ ∧ _))

/-- The error `std::from_chars` reports. -/
inductive FromCharsErrc where
  | none
  | invalidArgument
  | resultOutOfRange

/-- What `std::from_chars` leaves: the characters from `ptr` on, the error, and the value. -/
structure FromCharsResult where
  ptr : List Char
  ec : FromCharsErrc
  value : ℤ

/-- The minus sign in front of a number of a signed type, and what is behind it. -/
def splitSign (int : IntType) (text : List Char) : Bool × List Char :=
  if int.signed && text.head? == some '-' then (true, text.tail) else (false, text)

/-- A number with its sign. -/
def signedValue (negative : Bool) (digits : List Char) : ℤ :=
  if negative then -value decDigit 10 digits else value decDigit 10 digits

/-- `std::from_chars` in base ten: without digits `ptr` stays at the start, a number that does
not fit leaves the value as it was, with `ptr` behind the digits. -/
def fromChars (int : IntType) (text : List Char) (val : ℤ) : FromCharsResult :=
  let (negative, unsigned) := splitSign int text
  let digits := front decDigit unsigned
  if digits = [] then ⟨text, .invalidArgument, val⟩
  else if int.Fits (signedValue negative digits) then
    ⟨behind decDigit unsigned, .none, signedValue negative digits⟩
  else ⟨behind decDigit unsigned, .resultOutOfRange, val⟩

/-- `str_to_int`: the error of `from_chars` is not looked at. -/
def strToInt (int : IntType) (str : List Char) : Option ℤ :=
  let result := fromChars int str 0
  if result.ptr = [] then some result.value else none

/-! ### What is a number -/

/-- The text of an integer: a decimal numeral, or one of a signed type behind a minus sign. -/
def IntText (int : IntType) (text : List Char) (num : ℤ) : Prop :=
  (Numeral decDigit text ∧ num = value decDigit 10 text) ∨
    (int.signed = true ∧ ∃ digits, text = '-' :: digits ∧ Numeral decDigit digits ∧
      num = -value decDigit 10 digits)

theorem splitSign_minus {int : IntType} (signed : int.signed = true) (digits : List Char) :
    splitSign int ('-' :: digits) = (true, digits) := by
  unfold splitSign
  rw [signed]
  rfl

theorem splitSign_other {int : IntType} {text : List Char}
    (other : ∀ digits, int.signed = true → text ≠ '-' :: digits) :
    splitSign int text = (false, text) := by
  unfold splitSign
  refine if_neg fun both => ?_
  obtain ⟨signed, minus⟩ := Bool.and_eq_true_iff.mp both
  obtain ⟨digits, rfl⟩ := List.head?_eq_some_iff.mp (beq_iff_eq.mp minus)
  exact other digits signed rfl

theorem intText_iff {int : IntType} {text : List Char} {num : ℤ} : IntText int text num ↔
    Numeral decDigit (splitSign int text).2 ∧
      num = signedValue (splitSign int text).1 (splitSign int text).2 := by
  by_cases minus : ∃ digits, int.signed = true ∧ text = '-' :: digits
  · obtain ⟨digits, signed, rfl⟩ := minus
    rw [splitSign_minus signed]
    constructor
    · rintro (⟨numeral, -⟩ | ⟨-, digits', same, numeral, rfl⟩)
      · exact absurd numeral (not_numeral_minus digits)
      · obtain rfl := (List.cons.inj same).2
        exact ⟨numeral, rfl⟩
    · rintro ⟨numeral, rfl⟩
      exact Or.inr ⟨signed, digits, rfl, numeral, rfl⟩
  · have other : ∀ digits, int.signed = true → text ≠ '-' :: digits := fun digits signed same =>
      minus ⟨digits, signed, same⟩
    rw [splitSign_other other]
    constructor
    · rintro (⟨numeral, rfl⟩ | ⟨signed, digits, same, -⟩)
      · exact ⟨numeral, rfl⟩
      · exact absurd same (other digits signed)
    · rintro ⟨numeral, rfl⟩
      exact Or.inl ⟨numeral, rfl⟩

theorem IntText.unique {int : IntType} {text : List Char} {num num' : ℤ}
    (isText : IntText int text num) (isText' : IntText int text num') : num = num' :=
  (intText_iff.mp isText).2.trans (intText_iff.mp isText').2.symm

/-! ### What is read -/

/-- The scan of an empty string stops where it starts. -/
theorem strToInt_nil (int : IntType) : strToInt int [] = some 0 := by
  have unsigned : splitSign int [] = (false, []) := splitSign_other fun _ _ same => by
    exact absurd same (by simp)
  unfold strToInt fromChars
  rw [unsigned]
  rfl

/-- A number that does not fit leaves the zero the variable starts with. -/
theorem strToInt_of_intText {int : IntType} {text : List Char} {num : ℤ}
    (isText : IntText int text num) :
    strToInt int text = some (if int.Fits num then num else 0) := by
  obtain ⟨numeral, rfl⟩ := intText_iff.mp isText
  unfold strToInt fromChars
  generalize splitSign int text = parts at *
  obtain ⟨negative, digits⟩ := parts
  have all := front_append numeral.2 stops_nil
  have rest := behind_append numeral.2 stops_nil
  rw [List.append_nil] at all rest
  dsimp only
  rw [all, rest, if_neg numeral.1]
  split <;> rfl

/-- Where the scan stops. -/
theorem fromChars_ptr (int : IntType) (text : List Char) (val : ℤ) :
    (fromChars int text val).ptr = if front decDigit (splitSign int text).2 = [] then text
      else behind decDigit (splitSign int text).2 := by
  unfold fromChars
  dsimp only
  split
  · rfl
  · split <;> rfl

/-- Every other string is refused. -/
theorem strToInt_of_not_intText {int : IntType} {text : List Char} (nonempty : text ≠ [])
    (noNumber : ∀ num, ¬ IntText int text num) : strToInt int text = none := by
  have noNumeral : ¬ Numeral decDigit (splitSign int text).2 := fun numeral =>
    noNumber _ (intText_iff.mpr ⟨numeral, rfl⟩)
  have stops : (fromChars int text 0).ptr ≠ [] := by
    rw [fromChars_ptr]
    split
    · exact nonempty
    · next some =>
      intro none
      -- digits up to the end would be a numeral
      have whole : front decDigit _ ++ behind decDigit _ = (splitSign int text).2 :=
        front_append_behind _
      rw [none, List.append_nil] at whole
      exact noNumeral (whole ▸ (numeral_front_iff _).mpr some)
  exact if_neg stops

/-- `str_to_int` is exact on the string: it returns the number the string is the text of, where
that number fits, and nothing else. -/
def ExactFor (int : IntType) (text : List Char) : Prop :=
  ∀ num, strToInt int text = some num ↔ IntText int text num ∧ int.Fits num

/-- The string is not empty and is no number that does not fit. -/
def Present (int : IntType) (text : List Char) : Prop :=
  text ≠ [] ∧ ∀ num, IntText int text num → int.Fits num

theorem not_intText_nil (int : IntType) (num : ℤ) : ¬ IntText int [] num := by
  rintro (⟨numeral, -⟩ | ⟨-, digits, same, -⟩)
  · exact numeral.1 rfl
  · exact absurd same (by simp)

theorem exactFor_of_present {int : IntType} {text : List Char} (present : Present int text) :
    ExactFor int text := by
  intro num
  by_cases number : ∃ num, IntText int text num
  · obtain ⟨num', isText⟩ := number
    rw [strToInt_of_intText isText, if_pos (present.2 num' isText)]
    constructor
    · intro same
      obtain rfl := Option.some.inj same
      exact ⟨isText, present.2 num' isText⟩
    · rintro ⟨isText', -⟩
      rw [isText.unique isText']
  · rw [strToInt_of_not_intText present.1 fun num isText => number ⟨num, isText⟩]
    exact iff_of_false (by simp) fun both => number ⟨num, both.1⟩

theorem exactFor_iff (int : IntType) (text : List Char) : ExactFor int text ↔ Present int text := by
  refine ⟨fun exact => ?_, exactFor_of_present⟩
  refine ⟨fun empty => ?_, fun num isText => ?_⟩
  · rw [empty] at exact
    exact not_intText_nil int 0 ((exact 0).mp (strToInt_nil int)).1
  · by_contra large
    have read := strToInt_of_intText isText
    rw [if_neg large] at read
    -- what does not fit is not the zero that is read
    obtain ⟨zero, fits⟩ := (exact 0).mp read
    exact large (isText.unique zero ▸ fits)

end TrafficGenerator
