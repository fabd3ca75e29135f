/-
This file models `mgmt/gen_config.cpp` and `put/ether_addr.cpp`: the constructor
of `gen_config`, which reads a generation configuration from a JSON text, and
the parser of Ethernet addresses it uses.

The JSON parser and `make_network_v4` belong to Boost, so the environment gives
them. A string is a list of characters here; all that is looked for in one is
ASCII.
-/

import TrafficGenerator.BoostJson
import TrafficGenerator.GenConfig
import Mathlib.Data.List.Forall2

namespace TrafficGenerator

open BoostJson

/-! ### Ethernet addresses -/

/-- The digits `bx3::hex` takes. -/
def hexDigit (char : Char) : Option ℕ :=
  if '0' ≤ char ∧ char ≤ '9' then some (char.toNat - '0'.toNat)
  else if 'a' ≤ char ∧ char ≤ 'f' then some (char.toNat - 'a'.toNat + 10)
  else if 'A' ≤ char ∧ char ≤ 'F' then some (char.toNat - 'A'.toNat + 10)
  else none

def isHex (char : Char) : Bool := (hexDigit char).isSome

/-- `bx3::hex[fill]`: all the digits up to the next other character, at least one. `fill` passes
numbers up to `UINT8_MAX` only, which the numbers too large for `bx3::hex` are not either. -/
def parseHex (text : List Char) : Option (UInt8 × List Char) :=
  let digits := (text.takeWhile isHex).filterMap hexDigit
  let val := digits.foldl (fun val digit => val * 16 + digit) 0
  if digits = [] ∨ 255 < val then none
  else some (UInt8.ofNat val, text.dropWhile isHex)

/-- `':' >> bx3::hex[fill]`. -/
def parseColonHex : List Char → Option (UInt8 × List Char)
  | ':' :: text => parseHex text
  | _ => none

/-- `count` more bytes, each after a colon. -/
def parseMoreHex : (count : ℕ) → List Char → Option (List UInt8 × List Char)
  | 0, text => some ([], text)
  | count + 1, text => do
    let (byte, text) ← parseColonHex text
    let (bytes, text) ← parseMoreHex count text
    some (byte :: bytes, text)

theorem parseMoreHex_length {count : ℕ} {text rest : List Char} {bytes : List UInt8}
    (run : parseMoreHex count text = some (bytes, rest)) : bytes.length = count := by
  induction count generalizing text bytes with
  | zero =>
    obtain ⟨rfl, -⟩ := Prod.mk.inj (Option.some.inj run)
    rfl
  | succ count inductionHypothesis =>
    simp only [parseMoreHex, Option.bind_eq_bind, Option.bind_eq_some_iff] at run
    obtain ⟨⟨byte, text⟩, -, ⟨more, text'⟩, step, same⟩ := run
    obtain ⟨rfl, rfl⟩ := Prod.mk.inj (Option.some.inj same)
    rw [List.length_cons, inductionHypothesis step]

/-- The bytes of an address text: six numbers between colons, and then the end. -/
def parseEtherBytes (text : List Char) : Option (List UInt8) := do
  let (byte, text) ← parseHex text
  let (bytes, text) ← parseMoreHex 5 text
  if text = [] then some (byte :: bytes) else none

theorem parseEtherBytes_length {text : List Char} {bytes : List UInt8}
    (run : parseEtherBytes text = some bytes) : bytes.length = 6 := by
  simp only [parseEtherBytes, Option.bind_eq_bind, Option.bind_eq_some_iff] at run
  obtain ⟨⟨byte, rest⟩, -, ⟨more, left⟩, step, last⟩ := run
  split at last
  · obtain rfl := Option.some.inj last
    rw [List.length_cons, parseMoreHex_length step]
  · exact absurd last (by simp)

/-- `parse_ether_addr`. -/
def parseEtherAddr (text : String) : Option EtherAddr :=
  match run : parseEtherBytes text.toList with
  | some bytes => some ⟨bytes, parseEtherBytes_length run⟩
  | none => none

theorem parseEtherAddr_of_bytes {text : String} {bytes : List UInt8}
    (run : parseEtherBytes text.toList = some bytes) :
    ∃ addr, parseEtherAddr text = some addr ∧ addr.addrBytes = bytes := by
  rw [parseEtherAddr]
  split
  · next other result =>
    obtain rfl := Option.some.inj (run.symm.trans result)
    exact ⟨_, rfl, rfl⟩
  · next result => exact absurd (run.symm.trans result) (by simp)

/-! ### The constructor -/

/-- What of Boost the constructor of `gen_config` rests on: the parser with `release`, the network
parser, and the texts of the exceptions the library throws. -/
structure CfgEnv where
  parse : String → Except Error Value
  makeNetworkV4 : String → Option NetworkV4
  errorText : Error → String

/-- What the constructor throws. -/
inductive CfgThrown where
  | json (error : Error)
  | runtimeError (text : String)
deriving DecidableEq

/-- `what()`. -/
def CfgThrown.what (env : CfgEnv) : CfgThrown → String
  | .json error => env.errorText error
  | .runtimeError text => text

/-- An exception of Boost.JSON leaves the constructor. -/
def ofJson {Result : Type} (read : Except Error Result) : Except CfgThrown Result :=
  read.mapError CfgThrown.json

/-- `in_range_inclusive`. -/
def inRangeInclusive (val low high : UInt64) : Prop := low ≤ val ∧ val ≤ high

instance (val low high : UInt64) : Decidable (inRangeInclusive val low high) :=
  inferInstanceAs (Decidable (_ ∧ _))

/-- The check of a number that may be absent. -/
def optInRange (num : Option UInt64) (low high : UInt64) : Prop :=
  ∀ val ∈ num, inRangeInclusive val low high

instance (num : Option UInt64) (low high : UInt64) : Decidable (optInRange num low high) :=
  match num with
  | none => .isTrue fun _ member => absurd member (Option.not_mem_none _)
  | some val => decidable_of_iff (inRangeInclusive val low high)
      ⟨fun range _ member => Option.some.inj member ▸ range, fun range => range val rfl⟩

/-- The values one element of `captures` is read into, before any check. -/
structure CaptureValues where
  name : String
  burst : UInt64
  fps : UInt64
  ipg : Option UInt64
  clnIps : String
  srvIps : String
  clnPort : Option UInt64

/-- `load_opt_u64`. -/
def loadOptU64 (members : List (String × Value)) (name : String) : Except Error (Option UInt64) :=
  do return (← atKey members name).ifUint64

/-- The first half of the loop body. Both networks are read from `cln_ips`. -/
def readCapture (cap : Value) : Except Error CaptureValues := do
  let members ← cap.asObject
  let name ← (← atKey members "name").asString
  let burst ← (← atKey members "burst").asUint64
  let fps ← (← atKey members "fps").asUint64
  let ipg ← loadOptU64 members "ipg"
  let clnIps ← (← atKey members "cln_ips").asString
  let srvIps ← (← atKey members "cln_ips").asString
  let clnPort ← loadOptU64 members "cln_port"
  return { name, burst, fps, ipg, clnIps, srvIps, clnPort }

/-- `make_network_v4` with the check of its error code. -/
def readNetwork (env : CfgEnv) (key text : String) : Except CfgThrown NetworkV4 :=
  match env.makeNetworkV4 text with
  | some net => .ok net
  | none => .error (.runtimeError s!"Invalid `{key}` network: {text}")

/-- A checked number narrowed to 32 bits. -/
theorem toUInt32_limits {val high : UInt64} (small : high.toNat < 2 ^ 32)
    (range : inRangeInclusive val 1 high) : 1 ≤ val.toUInt32 ∧ val.toUInt32 ≤ high.toUInt32 := by
  obtain ⟨low, high⟩ := range
  rw [UInt64.le_iff_toNat_le] at low high
  constructor
  · rw [UInt32.le_iff_toNat_le, UInt64.toNat_toUInt32, Nat.mod_eq_of_lt (by omega)]
    exact low
  · rw [UInt32.le_iff_toNat_le, UInt64.toNat_toUInt32, UInt64.toNat_toUInt32,
      Nat.mod_eq_of_lt (by omega), Nat.mod_eq_of_lt small]
    exact high

/-- `inter_pkts_gap`, in microseconds. -/
def CaptureValues.interPktsGap (vals : CaptureValues) : Option ℤ :=
  vals.ipg.map fun num => (num.toNat : ℤ)

theorem CaptureValues.ipgLimits {vals : CaptureValues}
    (range : optInRange vals.ipg 1 1000000) :
    ∀ gap ∈ vals.interPktsGap, 1 ≤ gap ∧ gap ≤ 1000000 := by
  intro gap member
  obtain ⟨num, stored, rfl⟩ := Option.map_eq_some_iff.mp member
  obtain ⟨low, high⟩ := range num stored
  rw [UInt64.le_iff_toNat_le] at low high
  exact ⟨Int.ofNat_le.mpr low, Int.ofNat_le.mpr high⟩

theorem CaptureValues.portLimits {vals : CaptureValues}
    (range : optInRange vals.clnPort 1024 65535) :
    ∀ port ∈ vals.clnPort.map UInt64.toUInt16, 1024 ≤ port := by
  intro port member
  obtain ⟨num, stored, rfl⟩ := Option.map_eq_some_iff.mp member
  obtain ⟨low, high⟩ := range num stored
  rw [UInt64.le_iff_toNat_le] at low high
  rw [UInt16.le_iff_toNat_le, UInt64.toNat_toUInt16,
    Nat.mod_eq_of_lt (show num.toNat < 2 ^ 16 from Nat.lt_succ_of_le high)]
  exact low

/-- The second half of the loop body: the checks, and the entry. -/
def checkCapture (env : CfgEnv) (vals : CaptureValues) : Except CfgThrown FlowsConfig :=
  if burst : inRangeInclusive vals.burst 1 5 then
    if fps : inRangeInclusive vals.fps 1 1000000 then
      if ipg : optInRange vals.ipg 1 1000000 then
        if port : optInRange vals.clnPort 1024 65535 then do
          let clnIps ← readNetwork env "cln_ips" vals.clnIps
          let srvIps ← readNetwork env "srv_ips" vals.srvIps
          return {
            name := vals.name
            burst := vals.burst.toUInt32
            flowsPerSec := vals.fps.toUInt32
            interPktsGap := vals.interPktsGap
            clnIps, srvIps
            clnPort := vals.clnPort.map UInt64.toUInt16
            burstLimits := toUInt32_limits (by decide) burst
            fpsLimits := toUInt32_limits (by decide) fps
            ipgLimits := CaptureValues.ipgLimits ipg
            portLimits := CaptureValues.portLimits port }
        else .error (.runtimeError "The `cln_port` value must be between 1024 and 65535")
      else .error (.runtimeError
        "The `inter_packet_gaps (ipg)` value must be between 1 and 1'000'000")
    else .error (.runtimeError
      "The `flows_per_second (fps)` value must be between 1 and 1'000'000")
  else .error (.runtimeError "The `burst` value must be between 1 and 5")

/-- The loop over `captures`. -/
def loadCaptures (env : CfgEnv) : List Value → Except CfgThrown (List FlowsConfig)
  | [] => .ok []
  | cap :: rest => do
    let cfg ← checkCapture env (← ofJson (readCapture cap))
    let cfgs ← loadCaptures env rest
    return cfg :: cfgs

/-- What the constructor reads before its loop. -/
structure ConfigValues where
  duration : Float
  etherAddr : String
  captures : List Value

/-- `duration_secs`, `dut_ether_addr` and `captures`. -/
def readConfig (json : Value) : Except Error ConfigValues := do
  let members ← json.asObject
  let duration ← (← atKey members "duration_secs").asDouble
  let etherAddr ← (← atKey members "dut_ether_addr").asString
  let captures ← (← atKey members "captures").asArray
  return { duration, etherAddr, captures }

/-- `stdcr::milliseconds(static_cast<uint64_t>(dur_num * 1000))`, a signed 64-bit count. The cast
is undefined for a product that no `uint64_t` holds, one of `-1` and less or one of `2^64` and more.
It saturates here: a negative duration is none at all, which the source does not promise. -/
def durationMsecs (duration : Float) : Int64 := (duration * 1000).toUInt64.toInt64

/-- The message of an address that is none: an empty optional is what it prints. -/
def invalidDutAddr : CfgThrown := .runtimeError "Invalid `dut_ether_addr`: none"

/-- The constructor of `gen_config` from the value of the text on. -/
def genConfigOf (env : CfgEnv) (json : Value) : Except CfgThrown GenConfig := do
  let vals ← ofJson (readConfig json)
  match parseEtherAddr vals.etherAddr with
  | none => .error invalidDutAddr
  | some dutAddr =>
    let flowsCfgs ← loadCaptures env vals.captures
    return {
      duration := (durationMsecs vals.duration).toInt
      dutAddr, flowsCfgs
      durationFits := ⟨Int64.le_toInt _, Int64.toInt_lt _⟩ }

/-- The constructor of `gen_config`. -/
def genConfig (env : CfgEnv) (cfgInfo : String) : Except CfgThrown GenConfig := do
  genConfigOf env (← ofJson (env.parse cfgInfo))

/-! ### What an accepted text says -/

variable {env : CfgEnv}

theorem ofJson_ok {Result : Type} {read : Except Error Result} {result : Result} :
    ofJson read = .ok result ↔ read = .ok result := by
  cases read <;> simp [ofJson, Except.mapError]

theorem loadOptU64_ok {members : List (String × Value)} {name : String} {num : Option UInt64} :
    loadOptU64 members name = .ok num ↔
      ∃ value, members.lookup name = some value ∧ value.ifUint64 = num := by
  rw [loadOptU64, bind_ok]
  constructor
  · rintro ⟨value, found, same⟩
    exact ⟨value, at_ok.mp found, Except.ok.inj same⟩
  · rintro ⟨value, found, rfl⟩
    exact ⟨value, at_ok.mpr found, rfl⟩

/-- What an element of `captures` holds when it can be read. -/
structure Holds (members : List (String × Value)) (vals : CaptureValues) : Prop where
  name : members.lookup "name" = some (.string vals.name)
  burst : members.lookup "burst" = some (.uint64 vals.burst)
  fps : members.lookup "fps" = some (.uint64 vals.fps)
  ipg : ∃ value, members.lookup "ipg" = some value ∧ value.ifUint64 = vals.ipg
  clnIps : members.lookup "cln_ips" = some (.string vals.clnIps)
  srvIps : vals.srvIps = vals.clnIps
  clnPort : ∃ value, members.lookup "cln_port" = some value ∧ value.ifUint64 = vals.clnPort

theorem readCapture_ok {cap : Value} {vals : CaptureValues} (run : readCapture cap = .ok vals) :
    ∃ members, cap = .object members ∧ Holds members vals := by
  simp only [readCapture, bind_ok, asObject_ok, at_ok, asString_ok, asUint64_ok,
    loadOptU64_ok] at run
  obtain ⟨members, rfl, -, name, ⟨nameText, rfl, -, burst, burstNum, rfl, -, fps, fpsNum, rfl, ipg,
    ipgStored, -, clnIps, clnText, rfl, -, srvIps, srvText, rfl, clnPort, clnPortStored,
    same⟩⟩ := run
  obtain rfl := Except.ok.inj same
  rw [clnIps] at srvIps
  exact ⟨members, rfl, name, burst, fps, ipgStored, clnIps,
    (Value.string.inj (Option.some.inj srvIps)).symm, clnPortStored⟩

theorem readNetwork_ok {key text : String} {net : NetworkV4} :
    readNetwork env key text = .ok net ↔ env.makeNetworkV4 text = some net := by
  rw [readNetwork]
  cases env.makeNetworkV4 text <;> simp

/-- The entry of an element that passes the checks. -/
structure Entered (env : CfgEnv) (vals : CaptureValues) (cfg : FlowsConfig) : Prop where
  name : cfg.name = vals.name
  burst : cfg.burst.toNat = vals.burst.toNat
  flowsPerSec : cfg.flowsPerSec.toNat = vals.fps.toNat
  interPktsGap : cfg.interPktsGap = vals.ipg.map fun num => (num.toNat : ℤ)
  clnIps : env.makeNetworkV4 vals.clnIps = some cfg.clnIps
  srvIps : env.makeNetworkV4 vals.srvIps = some cfg.srvIps
  clnPort : cfg.clnPort.map UInt16.toNat = vals.clnPort.map UInt64.toNat

theorem checkCapture_ok {vals : CaptureValues} {cfg : FlowsConfig}
    (run : checkCapture env vals = .ok cfg) : Entered env vals cfg := by
  rw [checkCapture] at run
  split at run
  · next burst =>
    split at run
    · next fps =>
      split at run
      · split at run
        · next port =>
          simp only [bind_ok, readNetwork_ok] at run
          obtain ⟨clnIps, cln, srvIps, srv, same⟩ := run
          obtain rfl := Except.ok.inj same
          refine ⟨rfl, ?_, ?_, rfl, cln, srv, ?_⟩
          · exact Nat.mod_eq_of_lt (Nat.lt_of_le_of_lt burst.2 (by decide))
          · exact Nat.mod_eq_of_lt (Nat.lt_of_le_of_lt fps.2 (by decide))
          · show (vals.clnPort.map UInt64.toUInt16).map UInt16.toNat = _
            rw [Option.map_map]
            refine Option.map_congr fun num member => ?_
            exact Nat.mod_eq_of_lt (Nat.lt_of_le_of_lt (port num member).2 (by decide))
        · exact absurd run (by simp)
      · exact absurd run (by simp)
    · exact absurd run (by simp)
  · exact absurd run (by simp)

theorem loadCaptures_ok {caps : List Value} {cfgs : List FlowsConfig}
    (run : loadCaptures env caps = .ok cfgs) :
    List.Forall₂ (fun cap cfg => ∃ members vals, cap = .object members ∧ Holds members vals ∧
      Entered env vals cfg) caps cfgs := by
  induction caps generalizing cfgs with
  | nil =>
    obtain rfl := Except.ok.inj run
    exact .nil
  | cons cap rest inductionHypothesis =>
    simp only [loadCaptures, bind_ok, ofJson_ok] at run
    obtain ⟨vals, read, cfg, checked, more, loaded, same⟩ := run
    obtain rfl := Except.ok.inj same
    obtain ⟨members, object, holds⟩ := readCapture_ok read
    exact .cons ⟨members, vals, object, holds, checkCapture_ok checked⟩
      (inductionHypothesis loaded)

theorem readConfig_ok {json : Value} {vals : ConfigValues} :
    readConfig json = .ok vals ↔ ∃ members, json = .object members ∧
      members.lookup "duration_secs" = some (.double vals.duration) ∧
      members.lookup "dut_ether_addr" = some (.string vals.etherAddr) ∧
      members.lookup "captures" = some (.array vals.captures) := by
  simp only [readConfig, bind_ok, asObject_ok, at_ok, asString_ok, asArray_ok, asDouble_ok]
  constructor
  · rintro ⟨members, rfl, -, duration, num, rfl, -, ether, text, rfl, -, captures, elems, rfl, same⟩
    obtain rfl := Except.ok.inj same
    exact ⟨members, rfl, duration, ether, captures⟩
  · rintro ⟨members, rfl, duration, ether, captures⟩
    exact ⟨members, rfl, _, duration, _, rfl, _, ether, _, rfl, _, captures, _, rfl, rfl⟩

theorem genConfigOf_ok {json : Value} {cfg : GenConfig} (run : genConfigOf env json = .ok cfg) :
    ∃ vals, readConfig json = .ok vals ∧ parseEtherAddr vals.etherAddr = some cfg.dutAddr ∧
      loadCaptures env vals.captures = .ok cfg.flowsCfgs := by
  simp only [genConfigOf, bind_ok, ofJson_ok] at run
  obtain ⟨vals, read, run⟩ := run
  split at run
  · exact absurd run (by simp)
  · next dutAddr parsed =>
    obtain ⟨flowsCfgs, loaded, same⟩ := bind_ok.mp run
    obtain rfl := Except.ok.inj same
    exact ⟨vals, read, parsed, loaded⟩

theorem genConfig_ok {text : String} {cfg : GenConfig} :
    genConfig env text = .ok cfg ↔
      ∃ json, env.parse text = .ok json ∧ genConfigOf env json = .ok cfg := by
  rw [genConfig, bind_ok]
  simp only [ofJson_ok]

end TrafficGenerator
