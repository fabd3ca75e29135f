/-
This file is about growing arrays and the pointers into them. An array keeps its
elements in one block of memory and moves to another one when it needs more room
than that has, which leaves every pointer to an element behind. While there is
room it stays, and the pointers stay good.
-/

import Mathlib.Data.List.Basic

/-- Where an element is: the block of memory, and its position there. -/
structure Address where
  block : ℕ
  index : ℕ
deriving DecidableEq

/-- An array that grows: its block, how many elements that has room for, and the elements. The
blocks are numbered in the order in which they are allocated, so none is used twice. -/
structure VectorStorage (Elem : Type*) where
  block : ℕ
  capacity : ℕ
  elems : List Elem

namespace VectorStorage

variable {Elem : Type*} (storage : VectorStorage Elem) (fresh : ℕ)

/-- An array without elements has no block; its number is that of none. -/
def empty : VectorStorage Elem := ⟨0, 0, []⟩

/-- `&v[index]`. -/
def addressOf (index : ℕ) : Address := ⟨storage.block, index⟩

/-- The element a pointer leads to, `none` when it leads to none of this array. -/
def deref (address : Address) : Option Elem :=
  if address.block = storage.block then storage.elems[address.index]? else none

/-- `reserve`, and the number of the next block. -/
def reserve (count : ℕ) : VectorStorage Elem × ℕ :=
  if count ≤ storage.capacity then (storage, fresh)
  else ({ storage with block := fresh, capacity := count }, fresh + 1)

/-- Room for one more element; without it the array moves to a block of double the size. -/
def grow : VectorStorage Elem × ℕ :=
  if storage.elems.length < storage.capacity then (storage, fresh)
  else ({ storage with
    block := fresh
    capacity := storage.elems.length + max 1 storage.elems.length }, fresh + 1)

/-- An element is constructed behind the last one. -/
def append (elem : Elem) : VectorStorage Elem :=
  { storage with elems := storage.elems ++ [elem] }

/-- `push_back`. -/
def pushBack (elem : Elem) : VectorStorage Elem × ℕ :=
  ((storage.grow fresh).1.append elem, (storage.grow fresh).2)

/-- `push_back` of several elements. -/
def pushAll : VectorStorage Elem → ℕ → List Elem → VectorStorage Elem × ℕ
  | storage, fresh, [] => (storage, fresh)
  | storage, fresh, elem :: rest =>
    pushAll (storage.pushBack fresh elem).1 (storage.pushBack fresh elem).2 rest

/-- `clear`: the block and its room stay. -/
def clear : VectorStorage Elem := { storage with elems := [] }

/-! ### While there is room -/

variable {storage fresh}

theorem deref_addressOf (index : ℕ) :
    storage.deref (storage.addressOf index) = storage.elems[index]? := if_pos rfl

theorem grow_of_room (room : storage.elems.length < storage.capacity) :
    storage.grow fresh = (storage, fresh) := if_pos room

theorem pushBack_of_room (elem : Elem) (room : storage.elems.length < storage.capacity) :
    storage.pushBack fresh elem = (storage.append elem, fresh) := by
  rw [pushBack, grow_of_room room]

/-- As many elements as there is room for stay in the block. -/
theorem pushAll_of_room {elems : List Elem}
    (room : storage.elems.length + elems.length ≤ storage.capacity) :
    storage.pushAll fresh elems =
      ({ storage with elems := storage.elems ++ elems }, fresh) := by
  induction elems generalizing storage with
  | nil => rw [pushAll, List.append_nil]
  | cons elem rest inductionHypothesis =>
    rw [List.length_cons] at room
    have more : (storage.append elem).elems.length + rest.length ≤
        storage.capacity := by
      rw [append, List.length_append, List.length_singleton]
      omega
    rw [pushAll, pushBack_of_room elem (by omega), inductionHypothesis more, append,
      List.append_assoc, List.singleton_append]

/-- An empty array is promised room. -/
theorem reserve_empty (fresh count : ℕ) :
    ((empty : VectorStorage Elem).reserve fresh count).1.elems = [] ∧
      count ≤ ((empty : VectorStorage Elem).reserve fresh count).1.capacity ∧
      fresh ≤ ((empty : VectorStorage Elem).reserve fresh count).2 := by
  unfold reserve
  split
  · next enough => exact ⟨rfl, enough, Nat.le_refl _⟩
  · exact ⟨rfl, Nat.le_refl _, Nat.le_succ _⟩

/-- What an array was promised is room enough, in a block of its own. -/
theorem pushAll_reserved (fresh : ℕ) {elems : List Elem} (some : elems ≠ []) :
    ((empty : VectorStorage Elem).reserve fresh elems.length).1.pushAll
      ((empty : VectorStorage Elem).reserve fresh elems.length).2 elems =
        (⟨fresh, elems.length, elems⟩, fresh + 1) := by
  have more : ¬ elems.length ≤ (empty : VectorStorage Elem).capacity :=
    Nat.not_le_of_lt (List.length_pos_iff.mpr some)
  rw [reserve, if_neg more]
  have room : (empty : VectorStorage Elem).elems.length + elems.length ≤ elems.length :=
    Nat.le_of_eq (Nat.zero_add _)
  exact pushAll_of_room room

end VectorStorage
