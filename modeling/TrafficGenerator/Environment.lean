/-
This file collects what the generator does not decide: the files it opens, the
frequency of the clock, the pool's and the NIC's answers, the texts the standard
library writes, and what `TG_ENFORCE` does with the condition it is given.

The last one is a parameter because results are wanted about two of them: the
macro as `put/tg_assert.h` defines it, and the macro as a no-op.
-/

import TrafficGenerator.Cycles
import TrafficGenerator.Mbuf

namespace TrafficGenerator

/-- The value of `errno`. -/
abbrev Errno := ℕ

/-- `EINVAL`. -/
def einval : Errno := 22

/-- `ENOMEM`. -/
def enomem : Errno := 12

/-! ### Files -/

/-- A file opened for reading: the bytes not read yet, the error reading ends in (`none` at
the end of the file), the end-of-file indicator and the `errno` of the thread. -/
structure File where
  data : List UInt8
  failure : Option Errno := none
  eof : Bool := false
  errno : Errno := 0

/-- `fread` of one object of `size` bytes: `none` when it returns zero, which it also does for
an object of no bytes. -/
def fread (size : ℕ) (file : File) : Option (List UInt8) × File :=
  if size = 0 then (none, file)
  else if size ≤ file.data.length then
    (some (file.data.take size), { file with data := file.data.drop size })
  else match file.failure with
    | none => (none, { file with data := [], eof := true })
    | some code => (none, { file with data := [], errno := code })

/-- The little endian number in the bytes, the byte order of the host. -/
def hostNum : List UInt8 → ℕ
  | [] => 0
  | byte :: rest => byte.toNat + 256 * hostNum rest

/-- The number in `size` bytes at an offset of a structure read from a file. -/
def hostNumAt (bytes : List UInt8) (off size : ℕ) : ℕ := hostNum ((bytes.drop off).take size)

/-! ### The NIC -/

/-- `rte_eth_stats`, the counters the generator reads. -/
structure EthStats where
  ipackets : UInt64 := 0
  opackets : UInt64 := 0
  ibytes : UInt64 := 0
  obytes : UInt64 := 0
  imissed : UInt64 := 0
  ierrors : UInt64 := 0
  oerrors : UInt64 := 0
  rxNombuf : UInt64 := 0
deriving DecidableEq

/-- What `rte_eth_tx_burst` accepts of a burst of a given length. -/
structure TxAnswer where
  accept : ℕ → ℕ
  accept_le : ∀ offered, accept offered ≤ offered

/-- The NIC takes the whole burst. -/
def TxAnswer.all : TxAnswer := ⟨id, fun _ => Nat.le_refl _⟩

/-! ### Everything together -/

/-- The texts written by the standard library and by fmt. -/
structure LibraryTexts where
  /-- A path as `fmt` prints it. -/
  path : String → String
  /-- `what()` of a `system_error` with a code and a message. -/
  systemError : Errno → String → String

structure Env where
  /-- Whether `TG_ENFORCE` of a condition with this value aborts. -/
  enforce : Bool → Bool
  /-- `rte_get_timer_hz`. -/
  hz : UInt64
  answers : PoolAnswers
  macAddr : EtherAddr
  /-- `fopen`: the file, or the error. -/
  fopen : String → Except Errno File
  texts : LibraryTexts

/-- `TG_ENFORCE` as `put/tg_assert.h` defines it: `if (cond) ::abort()`. -/
def Env.EnforceAsDefined (env : Env) : Prop := env.enforce = id

/-- `TG_ENFORCE` as a no-op. -/
def Env.EnforceNoop (env : Env) : Prop := env.enforce = fun _ => false

end TrafficGenerator
