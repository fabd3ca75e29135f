/-
This file compares the constructor of `gen_config` with the format its comment
documents: which of the documented texts it accepts.
-/

import TrafficGenerator.EtherAddrText
import TrafficGenerator.MgmtManager
import Mathlib.Data.List.Forall2

namespace TrafficGenerator

open BoostJson

variable {env : CfgEnv}

/-! ### The documented format -/

/-- A key with an integer between two bounds. -/
def StoresInteger (members : List (String × Value)) (key : String) (low high : ℤ) : Prop :=
  ∃ num, low ≤ num ∧ num ≤ high ∧ members.lookup key = some (NumberText.integer num).value

/-- A key with a valid IPv4 network. -/
def StoresNetwork (env : CfgEnv) (members : List (String × Value)) (key : String) : Prop :=
  ∃ text net, members.lookup key = some (.string text) ∧ env.makeNetworkV4 text = some net

/-- An element of `captures` as documented. -/
structure DocumentedCapture (env : CfgEnv) (members : List (String × Value)) : Prop where
  name : ∃ text, members.lookup "name" = some (.string text)
  burst : StoresInteger members "burst" 1 5
  fps : StoresInteger members "fps" 1 1000000
  ipg : members.lookup "ipg" = none ∨ StoresInteger members "ipg" 1 1000000
  clnIps : StoresNetwork env members "cln_ips"
  srvIps : StoresNetwork env members "srv_ips"
  clnPort : members.lookup "cln_port" = none ∨ StoresInteger members "cln_port" 1024 65535

/-- A valid Ethernet address: six hexadecimal numerals of a byte each, with single colons in
between. -/
def ValidEtherText (text : String) : Prop := ∃ numerals, SixNumerals text numerals

/-- A document with its duration and captures as documented. -/
structure DocumentedConfig (env : CfgEnv) (members : List (String × Value))
    (duration : NumberText) (captures : List Value) : Prop where
  durationSecs : members.lookup "duration_secs" = some duration.value
  positive : duration.Positive
  dutEtherAddr : ∃ text, members.lookup "dut_ether_addr" = some (.string text) ∧
    ValidEtherText text
  array : members.lookup "captures" = some (.array captures)
  each : ∀ cap ∈ captures, ∃ members, cap = .object members ∧ DocumentedCapture env members

/-! ### Valid addresses are accepted -/

/-- `parse_ether_addr` takes every valid address. -/
theorem parseEtherAddr_of_valid {text : String} (valid : ValidEtherText text) :
    ∃ addr, parseEtherAddr text = some addr := by
  obtain ⟨numerals, six⟩ := valid
  exact six.exists_parsed

/-! ### Which documented texts are accepted -/

/-- The optional members are empty exactly when their keys are absent. -/
def OptionalsAsWritten (cap : Value) (cfg : FlowsConfig) : Prop :=
  ∃ members, cap = .object members ∧
    (cfg.interPktsGap = none ↔ members.lookup "ipg" = none) ∧
    (cfg.clnPort = none ↔ members.lookup "cln_port" = none)

/-- A documented element cannot be read: its `burst` is stored as a signed number. -/
theorem documentedCapture_not_read {members : List (String × Value)} {vals : CaptureValues}
    (documented : DocumentedCapture env members) : ¬ Holds members vals := by
  intro holds
  obtain ⟨num, low, high, stored⟩ := documented.burst
  rw [integer_value_of_fits (by omega), holds.burst] at stored
  exact absurd stored (by simp)

/-- A documented text that is accepted has no captures and a duration stored as a double. -/
theorem documented_of_accepted {text : String} {members : List (String × Value)}
    {duration : NumberText} {captures : List Value} {cfg : GenConfig}
    (parsed : env.parse text = .ok (.object members))
    (documented : DocumentedConfig env members duration captures)
    (accepted : genConfig env text = .ok cfg) : duration.IsDouble ∧ captures = [] := by
  obtain ⟨json, parsed', accepted⟩ := genConfig_ok.mp accepted
  obtain rfl := Except.ok.inj (parsed.symm.trans parsed')
  obtain ⟨vals, read, -, loaded⟩ := genConfigOf_ok accepted
  obtain ⟨members', same, durationSecs, -, array⟩ := readConfig_ok.mp read
  obtain rfl := Value.object.inj same
  rw [documented.durationSecs] at durationSecs
  rw [documented.array] at array
  obtain rfl := Value.array.inj (Option.some.inj array)
  refine ⟨duration.asDouble_isOk.mp ⟨_, asDouble_ok.mpr (Option.some.inj durationSecs)⟩, ?_⟩
  cases captures : vals.captures with
  | nil => rfl
  | cons cap rest =>
    have each := loadCaptures_ok loaded
    rw [captures] at each
    obtain ⟨-, -, ⟨stored, capVals, object, holds, -⟩, -, -⟩ := List.forall₂_cons_left_iff.mp each
    obtain ⟨stored', object', documentedCap⟩ := documented.each cap (by
      rw [captures]
      exact List.mem_cons_self)
    obtain rfl := Value.object.inj (object.symm.trans object')
    exact absurd holds (documentedCapture_not_read documentedCap)

/-- Of the documented texts the constructor accepts those whose duration is stored as a double,
which an integer below `2^64` is not, and that have no captures: a small integer is stored as
a signed number, and `as_double` and `as_uint64` throw on it. -/
theorem documented_accepted_iff (env : CfgEnv) (text : String) {members : List (String × Value)}
    {duration : NumberText} {captures : List Value}
    (parsed : env.parse text = .ok (.object members))
    (documented : DocumentedConfig env members duration captures) :
    (∃ cfg, genConfig env text = .ok cfg ∧
      List.Forall₂ OptionalsAsWritten captures cfg.flowsCfgs) ↔
    duration.IsDouble ∧ captures = [] := by
  constructor
  · rintro ⟨cfg, accepted, -⟩
    exact documented_of_accepted parsed documented accepted
  · rintro ⟨isDouble, rfl⟩
    obtain ⟨num, double⟩ := duration.asDouble_isOk.mpr isDouble
    obtain ⟨etherText, ether, valid⟩ := documented.dutEtherAddr
    obtain ⟨addr, parsedAddr⟩ := parseEtherAddr_of_valid valid
    have read : readConfig (.object members) = .ok ⟨num, etherText, []⟩ := by
      refine readConfig_ok.mpr ⟨members, rfl, ?_, ether, documented.array⟩
      rw [documented.durationSecs, asDouble_ok.mp double]
    refine ⟨⟨(durationMsecs num).toInt, addr, [], ⟨Int64.le_toInt _, Int64.toInt_lt _⟩⟩, ?_, .nil⟩
    refine genConfig_ok.mpr ⟨_, parsed, ?_⟩
    simp only [genConfigOf, bind_ok, ofJson_ok]
    refine ⟨_, read, ?_⟩
    rw [parsedAddr]
    rfl

/-- The constructor as the management manager calls it. -/
def CfgEnv.parseCfg (env : CfgEnv) (cfgInfo : String) : Except String GenConfig :=
  (genConfig env cfgInfo).mapError (CfgThrown.what env)

/-- A start request with a documented text that has captures is answered as a bad one, and sends
nothing to the generator. -/
theorem documented_start_refused {mgmt : MgmtEnv} (reads : mgmt.parseCfg = env.parseCfg)
    {text : String} {members : List (String × Value)} {duration : NumberText}
    {captures : List Value} (parsed : env.parse text = .ok (.object members))
    (documented : DocumentedConfig env members duration captures) (some : captures ≠ [])
    (cb : ℕ) (manager : MgmtManager) (queue : ReqQueue) (idle : manager.startCb = none) :
    ∃ what : String, onReqStartGen mgmt cb text manager queue =
      (manager.answer cb .badRequest
        (makeResponseBody s!"Invalid generation configuration: {what}"), queue) := by
  cases result : genConfig env text with
  | ok cfg => exact absurd (documented_of_accepted parsed documented result).2 some
  | error thrown =>
    refine ⟨thrown.what env, ?_⟩
    rw [onReqStartGen, idle, Option.isSome_none, if_neg Bool.false_ne_true, reads, CfgEnv.parseCfg,
      result]
    rfl

/-- The address of the documented example. -/
def exampleEther : String := "e4:8d:8c:20:fb:bc"

theorem exampleEther_valid : ValidEtherText exampleEther := by
  have written : formatEtherAddr ⟨[0xe4, 0x8d, 0x8c, 0x20, 0xfb, 0xbc], rfl⟩ = exampleEther := rfl
  exact written ▸ ⟨_, formatEtherAddr_numerals _⟩

/-- An element of the documented example. -/
def exampleCapture (name : String) : List (String × Value) :=
  [("name", .string name), ("burst", (NumberText.integer 1).value),
    ("fps", (NumberText.integer 1).value), ("ipg", (NumberText.integer 10000).value),
    ("cln_ips", .string "16.0.0.1/29"), ("srv_ips", .string "48.0.0.1/29"),
    ("cln_port", (NumberText.integer 1024).value)]

/-- The networks of the documented example. -/
def exampleNetworks (text : String) : Option NetworkV4 :=
  if text = "16.0.0.1/29" then some ⟨0x10000001, 29, by decide⟩
  else if text = "48.0.0.1/29" then some ⟨0x30000001, 29, by decide⟩
  else none

/-- A document with a duration and captures. -/
def exampleMembers (duration : NumberText) (captures : List (List (String × Value))) :
    List (String × Value) :=
  [("duration_secs", duration.value), ("dut_ether_addr", .string exampleEther),
    ("captures", .array (captures.map .object))]

/-- An environment whose parser is asked for one text. -/
def exampleEnv (text : String) (members : List (String × Value)) : CfgEnv where
  parse other := if other = text then .ok (.object members) else .error (.syntaxError 1)
  makeNetworkV4 := exampleNetworks
  errorText _ := "boost.json"

theorem exampleEnv_parse (text : String) (members : List (String × Value)) :
    (exampleEnv text members).parse text = .ok (.object members) := if_pos rfl

theorem exampleCapture_documented (text : String) (members : List (String × Value))
    (name : String) :
    DocumentedCapture (exampleEnv text members) (exampleCapture name) where
  name := ⟨name, rfl⟩
  burst := ⟨1, by decide, by decide, rfl⟩
  fps := ⟨1, by decide, by decide, rfl⟩
  ipg := Or.inr ⟨10000, by decide, by decide, rfl⟩
  clnIps := ⟨_, _, rfl, rfl⟩
  srvIps := ⟨_, _, rfl, rfl⟩
  clnPort := Or.inr ⟨1024, by decide, by decide, rfl⟩

theorem exampleMembers_documented (text : String) {duration : NumberText}
    (positive : duration.Positive) (names : List String) :
    DocumentedConfig (exampleEnv text (exampleMembers duration (names.map exampleCapture)))
      (exampleMembers duration (names.map exampleCapture)) duration
      ((names.map exampleCapture).map .object) where
  durationSecs := rfl
  positive := positive
  dutEtherAddr := ⟨exampleEther, rfl, exampleEther_valid⟩
  array := rfl
  each := by
    intro cap member
    obtain ⟨capture, among, rfl⟩ := List.mem_map.mp member
    obtain ⟨name, -, rfl⟩ := List.mem_map.mp among
    exact ⟨_, rfl, exampleCapture_documented _ _ name⟩

/-- The text of an element. -/
def exampleCaptureText (name : String) : String :=
  "\x7b\"name\": \"" ++ name ++ "\", \"burst\": 1, \"fps\": 1, \"ipg\": 10000, " ++
    "\"cln_ips\": \"16.0.0.1/29\", \"srv_ips\": \"48.0.0.1/29\", \"cln_port\": 1024\x7d"

/-- The document of the comment above the constructor. -/
def documentedText : String :=
  "\x7b\"duration_secs\": 10, \"dut_ether_addr\": \"e4:8d:8c:20:fb:bc\", \"captures\": [" ++
    exampleCaptureText "test.pcap" ++ ", " ++ exampleCaptureText "test2.pcap" ++ "]\x7d"

def documentedMembers : List (String × Value) :=
  exampleMembers (.integer 10) [exampleCapture "test.pcap", exampleCapture "test2.pcap"]

/-- It is in the documented format, and refused. -/
theorem documented_example_refused :
    let env := exampleEnv documentedText documentedMembers
    env.parse documentedText = .ok (.object documentedMembers) ∧
    DocumentedConfig env documentedMembers (.integer 10)
      [.object (exampleCapture "test.pcap"), .object (exampleCapture "test2.pcap")] ∧
    ¬ ∃ cfg, genConfig env documentedText = .ok cfg := by
  have positive : (NumberText.integer 10).Positive := show (0 : ℤ) < 10 by decide
  refine ⟨exampleEnv_parse _ _,
    exampleMembers_documented documentedText positive ["test.pcap", "test2.pcap"], ?_⟩
  rintro ⟨cfg, accepted⟩
  obtain ⟨json, parsed, accepted⟩ := genConfig_ok.mp accepted
  rw [exampleEnv_parse] at parsed
  obtain rfl := Except.ok.inj parsed
  obtain ⟨vals, read, -⟩ := genConfigOf_ok accepted
  obtain ⟨members, same, duration, -⟩ := readConfig_ok.mp read
  obtain rfl := Value.object.inj same
  have stored : documentedMembers.lookup "duration_secs" = some (.int64 10) := rfl
  exact absurd (stored.symm.trans duration) (by simp)

/-- A text with a decimal duration and no captures. -/
def idleText : String :=
  "\x7b\"duration_secs\": 1.0, \"dut_ether_addr\": \"e4:8d:8c:20:fb:bc\", \"captures\": []\x7d"

def idleDuration : NumberText := .decimal 1 1.0

/-- It is accepted, and the documented example with its two captures is not. -/
theorem documented_accepted_examples :
    (∃ cfg, genConfig (exampleEnv idleText (exampleMembers idleDuration [])) idleText = .ok cfg ∧
      List.Forall₂ OptionalsAsWritten [] cfg.flowsCfgs) ∧
    ¬ ∃ cfg, genConfig (exampleEnv documentedText documentedMembers) documentedText = .ok cfg ∧
      List.Forall₂ OptionalsAsWritten
        [.object (exampleCapture "test.pcap"), .object (exampleCapture "test2.pcap")]
        cfg.flowsCfgs := by
  have idle : idleDuration.Positive := show (0 : ℚ) < 1 from zero_lt_one
  have positive : (NumberText.integer 10).Positive := show (0 : ℤ) < 10 by decide
  constructor
  · refine (documented_accepted_iff _ idleText (exampleEnv_parse _ _)
      (exampleMembers_documented idleText idle [])).mpr ⟨?_, rfl⟩
    trivial
  · rintro accepted
    have none := ((documented_accepted_iff _ documentedText (exampleEnv_parse _ _)
      (exampleMembers_documented documentedText positive ["test.pcap", "test2.pcap"])).mp
      accepted).2
    exact absurd none (List.cons_ne_nil _ _)

end TrafficGenerator
