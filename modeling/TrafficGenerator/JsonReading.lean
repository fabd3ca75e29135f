/-
This file reads integers out of a JSON object. A member is found by its name,
and a number is read as an integer where it is written as one. What is read from
an object that was written with decimals, each under a name of its own, are the
integers that were written.
-/

import TrafficGenerator.JsonText
import TrafficGenerator.Numerals

namespace JsonText

open Numerals

/-! ### Reading a document -/

/-- The names of the members of an object, in their order. -/
def Json.names : Json → Option (List (List Char))
  | .object members => some (members.map Prod.fst)
  | _ => none

/-- The value of the first member of that name. -/
def Json.find (name : List Char) : Json → Option Json
  | .object members => members.lookup name
  | _ => none

/-- The integer a literal of digits says, with a minus in front of them or without. -/
def intOf : List Char → Option ℤ
  | '-' :: digits =>
    if Numeral decDigit digits then some (-value decDigit 10 digits) else none
  | digits => if Numeral decDigit digits then some (value decDigit 10 digits) else none

/-- The integer a number says, if it says one. -/
def Json.int : Json → Option ℤ
  | .number literal => intOf literal
  | _ => none

/-- An object of integers, each under a name of its own. -/
structure Json.Reads (doc : Json) (ints : List (String × ℤ)) : Prop where
  names : doc.names = some (ints.map fun entry => entry.1.toList)
  distinct : (ints.map Prod.fst).Nodup
  values : ∀ entry ∈ ints, (doc.find entry.1.toList).bind Json.int = some entry.2

/-- Where no two members have one name, the value under a name is the one given under it. -/
theorem lookup_of_mem {Name Value : Type} [BEq Name] [LawfulBEq Name]
    {members : List (Name × Value)} (distinct : (members.map Prod.fst).Nodup)
    {entry : Name × Value} (member : entry ∈ members) :
    members.lookup entry.1 = some entry.2 := by
  induction members with
  | nil => exact absurd member List.not_mem_nil
  | cons first rest inductionHypothesis =>
    obtain ⟨notLater, distinct⟩ := List.nodup_cons.mp distinct
    rcases List.mem_cons.mp member with rfl | later
    · exact List.lookup_cons_self
    · have other : entry.1 ≠ first.1 := fun same =>
        notLater (same ▸ List.mem_map_of_mem later)
      rw [List.lookup_cons, beq_eq_false_iff_ne.mpr other]
      exact inductionHypothesis distinct later

/-- An integer is read from the literal it is written as. -/
theorem intOf_toString (num : ℤ) : intOf (toString num).toList = some num := by
  cases num with
  | ofNat num =>
    have numeral := numeral_toDigits (by decide) decDigit_digitChar num
    show intOf (Nat.repr num).toList = _
    rw [Nat.toList_repr]
    unfold intOf
    split
    · next digits signed => exact absurd (signed ▸ numeral) (not_numeral_minus digits)
    · rw [if_pos numeral, value_toDigits (by decide) decDigit_digitChar]
      rfl
  | negSucc num =>
    have literal : (toString (Int.negSucc num)).toList = '-' :: Nat.toDigits 10 (num + 1) := by
      show ("-" ++ (num + 1).repr).toList = _
      rw [String.toList_append, Nat.toList_repr]
      rfl
    rw [literal, intOf, if_pos (numeral_toDigits (by decide) decDigit_digitChar _),
      value_toDigits (by decide) decDigit_digitChar]
    rfl

/-- Integers written in decimal are read back. -/
theorem reads_decimals {ints : List (String × ℤ)} (distinct : (ints.map Prod.fst).Nodup) :
    (Json.object (ints.map fun entry =>
      (entry.1.toList, .number (toString entry.2).toList))).Reads ints where
  names := by
    rw [Json.names, List.map_map]
    rfl
  distinct := distinct
  values entry member := by
    let written (entry : String × ℤ) : List Char × Json :=
      (entry.1.toList, .number (toString entry.2).toList)
    have chars : ((ints.map Prod.fst).map String.toList).Nodup :=
      List.pairwise_map.mpr (distinct.imp fun other same => other (String.toList_injective same))
    have apart : ((ints.map written).map Prod.fst).Nodup := by
      rwa [List.map_map] at chars ⊢
    have found : (ints.map written).lookup entry.1.toList = some (written entry).2 :=
      lookup_of_mem apart (List.mem_map_of_mem member)
    rw [Json.find, found, Option.bind_some]
    exact intOf_toString entry.2

end JsonText
