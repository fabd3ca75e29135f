/-
This file is the data model of Boost.JSON as far as a reader of documents sees
it: the kinds of a value, the three of them a number can have, the accessors
that throw on another kind or a missing key, and the kind a number literal of a
text is stored with. A reader is a computation in `Except`; the file also takes
such a computation apart.
-/

import Mathlib.Algebra.Order.Ring.Int
import Mathlib.Algebra.Order.Ring.Nat
import Mathlib.Algebra.Order.Ring.Rat

namespace BoostJson

/-- `boost::json::value`. -/
inductive Value where
  | null
  | bool (val : Bool)
  | int64 (num : Int64)
  | uint64 (num : UInt64)
  | double (num : Float)
  | string (text : String)
  | array (elems : List Value)
  | object (members : List (String × Value))

/-- What the parser and the throwing accessors throw. -/
inductive Error where
  /-- A text that is no document, with the parser's code. -/
  | syntaxError (code : ℕ)
  | notObject
  | notArray
  | notString
  | notUint64
  | notDouble
  /-- A key that is not there. -/
  | outOfRange
deriving DecidableEq

/-! ### Accessors -/

def Value.asObject : Value → Except Error (List (String × Value))
  | .object members => .ok members
  | _ => .error .notObject

def Value.asArray : Value → Except Error (List Value)
  | .array elems => .ok elems
  | _ => .error .notArray

def Value.asString : Value → Except Error String
  | .string text => .ok text
  | _ => .error .notString

def Value.asUint64 : Value → Except Error UInt64
  | .uint64 num => .ok num
  | _ => .error .notUint64

def Value.asDouble : Value → Except Error Float
  | .double num => .ok num
  | _ => .error .notDouble

/-- `if_uint64`: a null pointer for every other kind. -/
def Value.ifUint64 : Value → Option UInt64
  | .uint64 num => some num
  | _ => none

/-- `object::at`. An object has a key once. -/
def atKey (members : List (String × Value)) (key : String) : Except Error Value :=
  match members.lookup key with
  | some value => .ok value
  | none => .error .outOfRange

theorem asObject_ok {value : Value} {members : List (String × Value)} :
    value.asObject = .ok members ↔ value = .object members := by
  cases value <;> simp [Value.asObject]

theorem asArray_ok {value : Value} {elems : List Value} :
    value.asArray = .ok elems ↔ value = .array elems := by
  cases value <;> simp [Value.asArray]

theorem asString_ok {value : Value} {text : String} :
    value.asString = .ok text ↔ value = .string text := by
  cases value <;> simp [Value.asString]

theorem asUint64_ok {value : Value} {num : UInt64} :
    value.asUint64 = .ok num ↔ value = .uint64 num := by
  cases value <;> simp [Value.asUint64]

theorem asDouble_ok {value : Value} {num : Float} :
    value.asDouble = .ok num ↔ value = .double num := by
  cases value <;> simp [Value.asDouble]

theorem at_ok {members : List (String × Value)} {key : String} {value : Value} :
    atKey members key = .ok value ↔ members.lookup key = some value := by
  rw [atKey]
  cases members.lookup key <;> simp

/-! ### Number literals -/

/-- A number as a text writes it: an integer, or a literal with a fraction or an exponent, given
by the number it writes and the double nearest to that. -/
inductive NumberText where
  | integer (num : ℤ)
  | decimal (num : ℚ) (nearest : Float)

/-- The value the parser stores: an integer is an `int64` if it fits, else a `uint64` if it fits,
else a double. -/
def NumberText.value : NumberText → Value
  | .integer num =>
    if -2 ^ 63 ≤ num ∧ num < 2 ^ 63 then .int64 (Int64.ofInt num)
    else if 0 ≤ num ∧ num < 2 ^ 64 then .uint64 (UInt64.ofNat num.toNat)
    else .double (Float.ofInt num)
  | .decimal _ nearest => .double nearest

/-- The number is above zero. -/
def NumberText.Positive : NumberText → Prop
  | .integer num => 0 < num
  | .decimal num _ => 0 < num

/-- An integer that fits a signed 64-bit number is stored as one. -/
theorem integer_value_of_fits {num : ℤ} (fits : -2 ^ 63 ≤ num ∧ num < 2 ^ 63) :
    (NumberText.integer num).value = .int64 (Int64.ofInt num) := if_pos fits

/-- The literals that are stored as doubles: those with a fraction or an exponent, and the
integers that fit neither 64-bit kind. -/
def NumberText.IsDouble : NumberText → Prop
  | .integer num => num < -2 ^ 63 ∨ 2 ^ 64 ≤ num
  | .decimal _ _ => True

theorem NumberText.asDouble_isOk (literal : NumberText) :
    (∃ num, literal.value.asDouble = .ok num) ↔ literal.IsDouble := by
  cases literal with
  | integer num =>
    rw [value, IsDouble]
    split
    · next fits => exact ⟨fun ⟨_, ok⟩ => absurd ok (by simp [Value.asDouble]), by omega⟩
    · split
      · next fits => exact ⟨fun ⟨_, ok⟩ => absurd ok (by simp [Value.asDouble]), by omega⟩
      · exact ⟨fun _ => by omega, fun _ => ⟨_, rfl⟩⟩
  | decimal _ nearest => exact ⟨fun _ => trivial, fun _ => ⟨nearest, rfl⟩⟩

/-! ### Readers -/

variable {Thrown Result Other : Type}

/-- A computation that returns went through its first part. -/
theorem bind_ok {first : Except Thrown Result} {next : Result → Except Thrown Other}
    {result : Other} : first >>= next = .ok result ↔
      ∃ middle, first = .ok middle ∧ next middle = .ok result := by
  cases first with
  | error thrown => exact ⟨fun ok => absurd ok (by simp [bind, Except.bind]), by simp⟩
  | ok middle =>
    exact ⟨fun ok => ⟨middle, rfl, ok⟩, fun ⟨other, same, ok⟩ => by
      obtain rfl := Except.ok.inj same
      exact ok⟩

end BoostJson
