/-
This file is the general part of a ring buffer: an unbounded log of values is
laid out over `size` slots, position `p` of the log in slot `p % size`. A buffer
shows the log from position `low` on when each of the `size` slots holds the
log's value at the one position of the window `[low, low + size)` that falls on
it, and holds nothing where the log has not got that far. Appending to the log
fills the slot after its end, and moving the window past its first position
empties that slot. The positions themselves are kept in 64-bit counters that
wrap; the difference of two such counters is the difference of the positions as
long as that fits 64 bits. A slot can also be read as the place of an object with
a lifetime: constructing over a live object and destroying a dead one fail.
-/

import Mathlib.Data.Nat.ModEq
import Mathlib.Data.List.Basic
import Mathlib.Logic.Function.Basic
import Mathlib.Tactic.Ring.RingNF

namespace Circular

variable {Value : Type*}

/-! ### Wrapping counters -/

/-- The difference of two wrapped counters is the difference of the counts. -/
theorem toNat_ofNat_sub {first second : ℕ} (order : first ≤ second)
    (small : second - first < 2 ^ 64) :
    (UInt64.ofNat second - UInt64.ofNat first).toNat = second - first := by
  rw [UInt64.toNat_sub, UInt64.toNat_ofNat', UInt64.toNat_ofNat']
  omega

/-- Subtracting a counter that is ahead leaves the complement of what it is ahead by. -/
theorem toNat_ofNat_sub_ahead {first second : ℕ} (order : first ≤ second) :
    (UInt64.ofNat first - UInt64.ofNat second).toNat =
      (2 ^ 64 - (second - first) % 2 ^ 64) % 2 ^ 64 := by
  rw [UInt64.toNat_sub, UInt64.toNat_ofNat', UInt64.toNat_ofNat']
  omega

/-- Moving both counters on keeps their difference. -/
theorem ofNat_add_sub_add (first second more : ℕ) :
    UInt64.ofNat (first + more) - UInt64.ofNat (second + more) =
      UInt64.ofNat first - UInt64.ofNat second := by
  rw [← UInt64.toNat_inj, UInt64.toNat_sub, UInt64.toNat_sub, UInt64.toNat_ofNat',
    UInt64.toNat_ofNat', UInt64.toNat_ofNat', UInt64.toNat_ofNat']
  omega

/-- Two wrapped counters less than one revolution apart agree only when the counts do. -/
theorem ofNat_sub_eq_zero {first second : ℕ} (order : first ≤ second)
    (small : second - first < 2 ^ 64) :
    UInt64.ofNat second - UInt64.ofNat first = 0 ↔ second = first := by
  rw [← UInt64.toNat_inj, toNat_ofNat_sub order small, UInt64.toNat_zero]
  omega

/-! ### Positions and slots -/

/-- Two positions less than one revolution apart fall on different slots. -/
theorem mod_ne_mod {size first second : ℕ} (before : first < second)
    (close : second < first + size) : first % size ≠ second % size := by
  intro same
  have divides : size ∣ second - first := (Nat.modEq_iff_dvd' before.le).mp same
  have atLeast := Nat.le_of_dvd (by omega) divides
  omega

/-- Within one window a slot belongs to one position. -/
theorem eq_of_mod_eq {size low first second : ℕ} (firstLow : low ≤ first)
    (firstHigh : first < low + size) (secondLow : low ≤ second) (secondHigh : second < low + size)
    (same : first % size = second % size) : first = second := by
  rcases Nat.lt_trichotomy first second with before | equal | after
  · exact absurd same (mod_ne_mod before (by omega))
  · exact equal
  · exact absurd same.symm (mod_ne_mod after (by omega))

/-! ### The window a buffer shows -/

/-- The slots show `log` from position `low` on: inside the window a slot holds the value of
its position, and is empty past the end of the log. -/
def Shows (size : ℕ) (buffer : ℕ → Option Value) (log : List Value) (low : ℕ) : Prop :=
  ∀ position, low ≤ position → position < low + size → buffer (position % size) = log[position]?

variable {size low : ℕ} {buffer : ℕ → Option Value} {log : List Value}

theorem shows_empty (size : ℕ) : Shows size (fun _ => none) ([] : List Value) 0 :=
  fun _ _ _ => rfl

/-- A slot inside the window and before the end of the log holds its value. -/
theorem Shows.read (shown : Shows size buffer log low) {position : ℕ} (after : low ≤ position)
    (before : position < log.length) (inside : position < low + size) :
    buffer (position % size) = some log[position] := by
  rw [shown position after inside, List.getElem?_eq_getElem before]

/-- The slot after the end of the log is empty while the window has room. -/
theorem Shows.free (shown : Shows size buffer log low) (after : low ≤ log.length)
    (room : log.length < low + size) : buffer (log.length % size) = none := by
  rw [shown log.length after room, List.getElem?_eq_none le_rfl]

/-- Every slot belongs to a position of the window. -/
theorem exists_position {slot : ℕ} (low : ℕ) (inside : slot < size) :
    ∃ position, low ≤ position ∧ position < low + size ∧ position % size = slot := by
  refine ⟨low + (slot + size - low % size) % size, Nat.le_add_right _ _,
    Nat.add_lt_add_left (Nat.mod_lt _ (by omega)) low, ?_⟩
  have start := Nat.mod_lt low (show 0 < size by omega)
  rw [Nat.add_mod_mod, ← Nat.mod_add_mod, show low % size + (slot + size - low % size) =
    slot + size by omega, Nat.add_mod_right, Nat.mod_eq_of_lt inside]

/-- Once the window starts at the end of the log nothing is left in the slots. -/
theorem Shows.all_empty (shown : Shows size buffer log log.length) {slot : ℕ}
    (inside : slot < size) : buffer slot = none := by
  obtain ⟨position, after, before, rfl⟩ := exists_position log.length inside
  rw [shown position after before, List.getElem?_eq_none after]

/-- Filling the slot after the end of the log appends to the log. -/
theorem Shows.write (shown : Shows size buffer log low) (value : Value)
    (after : low ≤ log.length) (room : log.length < low + size) :
    Shows size (Function.update buffer (log.length % size) (some value)) (log ++ [value]) low := by
  intro position positionLow positionHigh
  by_cases last : position = log.length
  · subst last
    rw [Function.update_self, List.getElem?_concat_length]
  · have different : position % size ≠ log.length % size := fun same =>
      last (eq_of_mod_eq positionLow positionHigh after room same)
    rw [Function.update_of_ne different, shown position positionLow positionHigh]
    rcases Nat.lt_or_gt_of_ne last with before | past
    · rw [List.getElem?_append_left before]
    · rw [List.getElem?_eq_none past.le,
        List.getElem?_eq_none (by rw [List.length_append, List.length_singleton]; exact past)]

/-- Emptying the first slot of the window moves the window on by one position. -/
theorem Shows.erase (shown : Shows size buffer log low) (positive : 0 < size)
    (ended : log.length ≤ low + size) :
    Shows size (Function.update buffer (low % size) none) log (low + 1) := by
  intro position positionLow positionHigh
  by_cases wrapped : position = low + size
  · subst wrapped
    rw [Nat.add_mod_right, Function.update_self, List.getElem?_eq_none ended]
  · have different : position % size ≠ low % size := fun same =>
      absurd (eq_of_mod_eq (show low ≤ position by omega) (by omega) le_rfl (by omega) same)
        (by omega)
    rw [Function.update_of_ne different, shown position (by omega) (by omega)]

/-! ### Contiguous slots -/

/-- The values in the slots `slot`, `slot + 1`, ..., `none` when one of them is empty. -/
def readRange (buffer : ℕ → Option Value) (slot : ℕ) : ℕ → Option (List Value)
  | 0 => some []
  | count + 1 => do
    let value ← buffer slot
    let rest ← readRange buffer (slot + 1) count
    some (value :: rest)

/-- Empty the slots `slot`, `slot + 1`, .... -/
def eraseRange (buffer : ℕ → Option Value) (slot : ℕ) : ℕ → ℕ → Option Value
  | 0 => buffer
  | count + 1 => eraseRange (Function.update buffer slot none) (slot + 1) count

/-- Before the end of the buffer the slots of consecutive positions are consecutive. -/
theorem succ_mod_of_lt {size position : ℕ} (inside : position % size + 1 < size) :
    (position + 1) % size = position % size + 1 := by
  rw [Nat.add_mod, Nat.mod_eq_of_lt (show 1 < size by omega), Nat.mod_eq_of_lt inside]

/-- Reading consecutive slots up to the end of the buffer reads a piece of the log. -/
theorem Shows.readRange_eq (shown : Shows size buffer log low) (count position : ℕ)
    (after : low ≤ position) (before : position + count ≤ log.length)
    (inside : position + count ≤ low + size) (fits : position % size + count ≤ size) :
    readRange buffer (position % size) count = some ((log.drop position).take count) := by
  induction count generalizing position with
  | zero => rw [List.take_zero]; rfl
  | succ count inductionHypothesis =>
    have value := shown.read after (by omega) (by omega : position < low + size)
    rw [readRange, value]
    rcases count with _ | count
    · simp only [readRange, Option.bind_eq_bind, Option.bind_some, List.drop_eq_getElem_cons
        (show position < log.length by omega), List.take_succ_cons, List.take_zero]
    · have next := inductionHypothesis (position + 1) (by omega) (by omega)
        (by omega) (by rw [succ_mod_of_lt (by omega)]; omega)
      rw [succ_mod_of_lt (by omega)] at next
      rw [next, List.drop_eq_getElem_cons (show position < log.length by omega),
        List.take_succ_cons]
      rfl

/-- Emptying consecutive slots from the first one of the window on moves the window past
them. -/
theorem Shows.eraseRange (shown : Shows size buffer log low) (count : ℕ)
    (ended : log.length ≤ low + size) (fits : low % size + count ≤ size) :
    Shows size (eraseRange buffer (low % size) count) log (low + count) := by
  induction count generalizing buffer low with
  | zero => exact shown
  | succ count inductionHypothesis =>
    have erased := shown.erase (by omega) ended
    rw [Circular.eraseRange]
    rcases count with _ | count
    · exact erased
    · have next := inductionHypothesis erased (by omega)
        (by rw [succ_mod_of_lt (by omega)]; omega)
      rw [succ_mod_of_lt (by omega)] at next
      rwa [Nat.add_right_comm] at next

/-- Emptying slots leaves the others as they are. -/
theorem eraseRange_other {slot count other : ℕ} (outside : other < slot ∨ slot + count ≤ other) :
    Circular.eraseRange buffer slot count other = buffer other := by
  induction count generalizing buffer slot with
  | zero => rfl
  | succ count inductionHypothesis =>
    rw [Circular.eraseRange, inductionHypothesis (by omega), Function.update_of_ne (by omega)]

/-! ### Lifetimes -/

/-- Construct an object in a slot, `none` when another one still lives there. -/
def construct (buffer : ℕ → Option Value) (slot : ℕ) (value : Value) :
    Option (ℕ → Option Value) :=
  match buffer slot with
  | some _ => none
  | none => some (Function.update buffer slot (some value))

theorem construct_of_none {slot : ℕ} (value : Value) (free : buffer slot = none) :
    construct buffer slot value = some (Function.update buffer slot (some value)) := by
  unfold construct
  rw [free]

theorem construct_eq_some {slot : ℕ} {value : Value} {next : ℕ → Option Value}
    (result : construct buffer slot value = some next) :
    next = Function.update buffer slot (some value) := by
  unfold construct at result
  split at result
  · exact absurd result (by simp)
  · exact (Option.some.inj result).symm

/-- Destroy the object in a slot, `none` when no object lives there. -/
def destroy (buffer : ℕ → Option Value) (slot : ℕ) : Option ((ℕ → Option Value) × Value) :=
  (buffer slot).map fun value => (Function.update buffer slot none, value)

/-- Destroy the objects in the slots `slot`, `slot + 1`, .... -/
def destroyRange (buffer : ℕ → Option Value) (slot : ℕ) :
    ℕ → Option ((ℕ → Option Value) × List Value)
  | 0 => some (buffer, [])
  | count + 1 => do
    let (buffer, value) ← destroy buffer slot
    let (buffer, rest) ← destroyRange buffer (slot + 1) count
    some (buffer, value :: rest)

theorem readRange_succ_eq_some {slot count : ℕ} {values : List Value}
    (read : readRange buffer slot (count + 1) = some values) :
    ∃ value rest, values = value :: rest ∧ buffer slot = some value ∧
      readRange buffer (slot + 1) count = some rest := by
  rw [readRange, Option.bind_eq_bind, Option.bind_eq_some_iff] at read
  obtain ⟨value, held, read⟩ := read
  rw [Option.bind_eq_bind, Option.bind_eq_some_iff] at read
  obtain ⟨rest, tail, result⟩ := read
  exact ⟨value, rest, (Option.some.inj result).symm, held, tail⟩

/-- A range does not read the slots before it. -/
theorem readRange_update {slot other : ℕ} (count : ℕ) (held : Option Value)
    (before : other < slot) :
    readRange (Function.update buffer other held) slot count = readRange buffer slot count := by
  induction count generalizing slot with
  | zero => rfl
  | succ count inductionHypothesis =>
    rw [readRange, readRange, Function.update_of_ne (by omega),
      inductionHypothesis (Nat.lt_succ_of_lt before)]

/-- The first slots of a range. -/
theorem readRange_take {slot count first : ℕ} {values : List Value}
    (read : readRange buffer slot count = some values) (within : first ≤ count) :
    readRange buffer slot first = some (values.take first) := by
  induction first generalizing slot count values with
  | zero => rw [List.take_zero, readRange]
  | succ first inductionHypothesis =>
    obtain ⟨count, rfl⟩ : ∃ more, count = more + 1 := ⟨count - 1, by omega⟩
    obtain ⟨value, rest, rfl, held, tail⟩ := readRange_succ_eq_some read
    rw [readRange, held, inductionHypothesis tail (Nat.le_of_succ_le_succ within),
      List.take_succ_cons]
    rfl

theorem readRange_length {slot count : ℕ} {values : List Value}
    (read : readRange buffer slot count = some values) : values.length = count := by
  induction count generalizing slot values with
  | zero => rw [← Option.some.inj read, List.length_nil]
  | succ count inductionHypothesis =>
    obtain ⟨value, rest, rfl, -, tail⟩ := readRange_succ_eq_some read
    rw [List.length_cons, inductionHypothesis tail]

/-- Objects that can be read can be destroyed, each once. -/
theorem destroyRange_of_readRange {slot count : ℕ} {values : List Value}
    (read : readRange buffer slot count = some values) :
    destroyRange buffer slot count = some (Circular.eraseRange buffer slot count, values) := by
  induction count generalizing buffer slot values with
  | zero => rw [← Option.some.inj read, destroyRange, Circular.eraseRange]
  | succ count inductionHypothesis =>
    obtain ⟨value, rest, rfl, held, tail⟩ := readRange_succ_eq_some read
    have later : readRange (Function.update buffer slot none) (slot + 1) count = some rest := by
      rw [readRange_update count none (Nat.lt_succ_self slot), tail]
    rw [destroyRange, destroy, held, Option.map_some, Option.bind_eq_bind, Option.bind_some]
    dsimp only
    rw [inductionHypothesis later, Option.bind_eq_bind, Option.bind_some, Circular.eraseRange]

end Circular
