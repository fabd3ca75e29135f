/-
This file asks what an accepted configuration has to do with the document it was
read from: for every value of the data model, however it came about, on which
the constructor does not throw.
-/

import TrafficGenerator.ConfigFormat

namespace TrafficGenerator

open BoostJson

variable {env : CfgEnv}

/-! ### A faithful configuration -/

/-- A value is the number. -/
def StoresNum (value : Value) (num : ℤ) : Prop :=
  match value with
  | .int64 stored => stored.toInt = num
  | .uint64 stored => (stored.toNat : ℤ) = num
  | _ => False

/-- A value is the number, or null for none. -/
def StoresOpt (value : Value) (num : Option ℤ) : Prop :=
  match num with
  | some num => StoresNum value num
  | none => value = .null

/-- An entry holds what is stored under the keys of its element, within the limits. -/
structure StoredAs (env : CfgEnv) (members : List (String × Value)) (cfg : FlowsConfig) : Prop where
  name : members.lookup "name" = some (.string cfg.name)
  burst : ∃ value, members.lookup "burst" = some value ∧ StoresNum value cfg.burst.toNat
  fps : ∃ value, members.lookup "fps" = some value ∧ StoresNum value cfg.flowsPerSec.toNat
  ipg : ∃ value, members.lookup "ipg" = some value ∧ StoresOpt value cfg.interPktsGap
  clnIps : ∃ text, members.lookup "cln_ips" = some (.string text) ∧
    env.makeNetworkV4 text = some cfg.clnIps
  srvIps : ∃ text, members.lookup "srv_ips" = some (.string text) ∧
    env.makeNetworkV4 text = some cfg.srvIps
  clnPort : ∃ value, members.lookup "cln_port" = some value ∧
    StoresOpt value (cfg.clnPort.map fun port => (port.toNat : ℤ))
  burstLimits : 1 ≤ cfg.burst.toNat ∧ cfg.burst.toNat ≤ 5
  fpsLimits : 1 ≤ cfg.flowsPerSec.toNat ∧ cfg.flowsPerSec.toNat ≤ 1000000
  ipgLimits : ∀ gap ∈ cfg.interPktsGap, 1 ≤ gap ∧ gap ≤ 1000000
  portLimits : ∀ port ∈ cfg.clnPort, 1024 ≤ port.toNat ∧ port.toNat ≤ 65535

/-- An entry of the configuration and the element it is for. -/
def EntryOf (env : CfgEnv) (cap : Value) (cfg : FlowsConfig) : Prop :=
  ∃ members, cap = .object members ∧ StoredAs env members cfg

/-- A configuration holds what is stored in the document: one entry for each element of
`captures`, in order. -/
def FaithfulTo (env : CfgEnv) (json : Value) (cfg : GenConfig) : Prop :=
  ∃ members etherText captures, json = .object members ∧
    members.lookup "dut_ether_addr" = some (.string etherText) ∧
    parseEtherAddr etherText = some cfg.dutAddr ∧
    members.lookup "captures" = some (.array captures) ∧
    List.Forall₂ (EntryOf env) captures cfg.flowsCfgs

/-! ### When it is -/

/-- Null, or a number of the kind `load_opt_u64` looks for. -/
def NullOrUint64 (value : Value) : Prop := value = .null ∨ ∃ num, value = .uint64 num

/-- The server's network is the client's, and the optional numbers are of the right kind. -/
structure Representable (env : CfgEnv) (members : List (String × Value)) : Prop where
  networks : ∃ clnText srvText, members.lookup "cln_ips" = some (.string clnText) ∧
    members.lookup "srv_ips" = some (.string srvText) ∧
    env.makeNetworkV4 srvText = env.makeNetworkV4 clnText
  ipg : ∃ value, members.lookup "ipg" = some value ∧ NullOrUint64 value
  clnPort : ∃ value, members.lookup "cln_port" = some value ∧ NullOrUint64 value

/-- An element of `captures` that is. -/
def RepresentableElem (env : CfgEnv) (cap : Value) : Prop :=
  ∃ members, cap = .object members ∧ Representable env members

/-- All the elements of `captures` are. -/
def AllRepresentable (env : CfgEnv) (json : Value) : Prop :=
  ∀ members captures, json = .object members → members.lookup "captures" = some (.array captures) →
    ∀ cap ∈ captures, RepresentableElem env cap

/-- What `load_opt_u64` makes of a value is the value exactly when the value is null or of the
kind it looks for. -/
theorem storesOpt_ifUint64 (value : Value) :
    StoresOpt value (value.ifUint64.map fun num => (num.toNat : ℤ)) ↔ NullOrUint64 value := by
  cases value <;> simp [StoresOpt, StoresNum, Value.ifUint64, NullOrUint64]

/-- An entry is faithful exactly when its element is representable. -/
theorem storedAs_iff {members : List (String × Value)} {vals : CaptureValues} {cfg : FlowsConfig}
    (holds : Holds members vals) (entered : Entered env vals cfg) :
    StoredAs env members cfg ↔ Representable env members := by
  obtain ⟨ipg, ipgFound, ipgRead⟩ := holds.ipg
  obtain ⟨port, portFound, portRead⟩ := holds.clnPort
  have gap : cfg.interPktsGap = ipg.ifUint64.map fun num => (num.toNat : ℤ) := by
    rw [entered.interPktsGap, ipgRead]
  have clnPort : (cfg.clnPort.map fun port => (port.toNat : ℤ)) =
      port.ifUint64.map fun num => (num.toNat : ℤ) := by
    have same := congrArg (Option.map Int.ofNat) entered.clnPort
    rw [Option.map_map, Option.map_map] at same
    rw [portRead]
    exact same
  constructor
  · intro stored
    obtain ⟨text, srvFound, srv⟩ := stored.srvIps
    obtain ⟨gapValue, gapFound, gapStored⟩ := stored.ipg
    obtain ⟨portValue, portFound', portStored⟩ := stored.clnPort
    obtain rfl := Option.some.inj (ipgFound.symm.trans gapFound)
    obtain rfl := Option.some.inj (portFound.symm.trans portFound')
    refine ⟨⟨vals.clnIps, text, holds.clnIps, srvFound, ?_⟩,
      ⟨ipg, ipgFound, (storesOpt_ifUint64 ipg).mp (gap ▸ gapStored)⟩,
      ⟨port, portFound, (storesOpt_ifUint64 port).mp (clnPort ▸ portStored)⟩⟩
    rw [srv, ← entered.srvIps, holds.srvIps]
  · intro representable
    obtain ⟨clnText, srvText, clnFound, srvFound, same⟩ := representable.networks
    obtain ⟨gapValue, gapFound, gapKind⟩ := representable.ipg
    obtain ⟨portValue, portFound', portKind⟩ := representable.clnPort
    obtain rfl := Option.some.inj (ipgFound.symm.trans gapFound)
    obtain rfl := Option.some.inj (portFound.symm.trans portFound')
    obtain rfl := Value.string.inj (Option.some.inj (holds.clnIps.symm.trans clnFound))
    exact {
      name := by rw [holds.name, entered.name]
      burst := ⟨_, holds.burst, by rw [entered.burst]; rfl⟩
      fps := ⟨_, holds.fps, by rw [entered.flowsPerSec]; rfl⟩
      ipg := ⟨ipg, ipgFound, gap ▸ (storesOpt_ifUint64 ipg).mpr gapKind⟩
      clnIps := ⟨_, holds.clnIps, entered.clnIps⟩
      srvIps := ⟨srvText, srvFound, by rw [same, ← holds.srvIps, entered.srvIps]⟩
      clnPort := ⟨port, portFound, clnPort ▸ (storesOpt_ifUint64 port).mpr portKind⟩
      burstLimits := cfg.burstLimits
      fpsLimits := cfg.fpsLimits
      ipgLimits := cfg.ipgLimits
      portLimits := fun port member => ⟨cfg.portLimits port member,
        Nat.le_of_lt_succ port.toNat_lt⟩ }

/-- An element that was read, and the entry made from it. -/
def ReadInto (env : CfgEnv) (cap : Value) (cfg : FlowsConfig) : Prop :=
  ∃ members vals, cap = .object members ∧ Holds members vals ∧ Entered env vals cfg

theorem entryOf_iff {cap : Value} {cfg : FlowsConfig} (read : ReadInto env cap cfg) :
    EntryOf env cap cfg ↔ RepresentableElem env cap := by
  obtain ⟨members, vals, rfl, holds, entered⟩ := read
  constructor
  · rintro ⟨members', same, stored⟩
    obtain rfl := Value.object.inj same
    exact ⟨_, rfl, (storedAs_iff holds entered).mp stored⟩
  · rintro ⟨members', same, representable⟩
    obtain rfl := Value.object.inj same
    exact ⟨_, rfl, (storedAs_iff holds entered).mpr representable⟩

theorem entriesOf_iff {captures : List Value} {cfgs : List FlowsConfig}
    (each : List.Forall₂ (ReadInto env) captures cfgs) :
    List.Forall₂ (EntryOf env) captures cfgs ↔ ∀ cap ∈ captures, RepresentableElem env cap := by
  induction each with
  | nil => exact ⟨fun _ cap member => absurd member List.not_mem_nil, fun _ => .nil⟩
  | cons read _ inductionHypothesis =>
    rw [List.forall₂_cons, inductionHypothesis, entryOf_iff read, List.forall_mem_cons]

/-- An accepted configuration holds what its document stores exactly when each element of
`captures` has the same network for the server as for the client, and its optional numbers are
null or `uint64`. Then every value is from its own key; else the server's network is the client's,
or a number of another kind is dropped. -/
theorem config_faithful_iff (env : CfgEnv) (json : Value) {cfg : GenConfig}
    (accepted : genConfigOf env json = .ok cfg) :
    FaithfulTo env json cfg ↔ AllRepresentable env json := by
  obtain ⟨vals, read, dutAddr, loaded⟩ := genConfigOf_ok accepted
  obtain ⟨members, rfl, -, ether, array⟩ := readConfig_ok.mp read
  have entries := entriesOf_iff (loadCaptures_ok loaded)
  constructor
  · rintro ⟨members', etherText, captures, same, -, -, array', faithful⟩
    obtain rfl := Value.object.inj same
    obtain rfl := Value.array.inj (Option.some.inj (array.symm.trans array'))
    intro members'' captures same' array''
    obtain rfl := Value.object.inj same'
    obtain rfl := Value.array.inj (Option.some.inj (array.symm.trans array''))
    exact entries.mp faithful
  · intro representable
    exact ⟨members, vals.etherAddr, vals.captures, rfl, ether, dutAddr, array,
      entries.mpr (representable members vals.captures rfl array)⟩

/-- An element with the numbers of the kinds the code looks for. -/
def storedCapture (srvIps : String) : List (String × Value) :=
  [("name", .string "test.pcap"), ("burst", .uint64 1), ("fps", .uint64 1), ("ipg", .uint64 10000),
    ("cln_ips", .string "16.0.0.1/29"), ("srv_ips", .string srvIps), ("cln_port", .uint64 1024)]

/-- A document with that element. -/
def storedConfig (srvIps : String) : Value :=
  .object [("duration_secs", .double 10), ("dut_ether_addr", .string exampleEther),
    ("captures", .array [.object (storedCapture srvIps)])]

theorem storedConfig_accepted {srvIps : String} (known : srvIps ∈ ["16.0.0.1/29", "48.0.0.1/29"]) :
    ∃ cfg, genConfigOf (exampleEnv "" []) (storedConfig srvIps) = .ok cfg := by
  have accepted : ∀ srvIps ∈ ["16.0.0.1/29", "48.0.0.1/29"],
      (genConfigOf (exampleEnv "" []) (storedConfig srvIps)).isOk = true := by
    decide +kernel
  cases result : genConfigOf (exampleEnv "" []) (storedConfig srvIps) with
  | ok cfg => exact ⟨cfg, rfl⟩
  | error thrown =>
    have ok := accepted srvIps known
    rw [result] at ok
    exact absurd ok Bool.false_ne_true

/-- The same network under both keys. -/
theorem config_faithful_sameNetwork :
    ∃ cfg, genConfigOf (exampleEnv "" []) (storedConfig "16.0.0.1/29") = .ok cfg ∧
      (FaithfulTo (exampleEnv "" []) (storedConfig "16.0.0.1/29") cfg ↔
        AllRepresentable (exampleEnv "" []) (storedConfig "16.0.0.1/29")) := by
  obtain ⟨cfg, accepted⟩ := storedConfig_accepted (List.mem_cons_self : "16.0.0.1/29" ∈ _)
  exact ⟨cfg, accepted, config_faithful_iff _ _ accepted⟩

/-- With a network of its own under `srv_ips`, the server gets the client's. -/
theorem config_srvIps_ignored :
    ∃ cfg, genConfigOf (exampleEnv "" []) (storedConfig "48.0.0.1/29") = .ok cfg ∧
      ¬ FaithfulTo (exampleEnv "" []) (storedConfig "48.0.0.1/29") cfg := by
  obtain ⟨cfg, accepted⟩ := storedConfig_accepted (by simp : "48.0.0.1/29" ∈ _)
  refine ⟨cfg, accepted, ?_⟩
  rintro ⟨members, etherText, captures, same, -, -, array, faithful⟩
  obtain ⟨vals, read, -, loaded⟩ := genConfigOf_ok accepted
  obtain ⟨members', same', -, -, array'⟩ := readConfig_ok.mp read
  obtain rfl := Value.object.inj (same.symm.trans same')
  obtain rfl := Value.array.inj (Option.some.inj (array.symm.trans array'))
  have entries := (entriesOf_iff (loadCaptures_ok loaded)).mp faithful
  obtain rfl := Value.object.inj same
  have elems : some (Value.array [.object (storedCapture "48.0.0.1/29")]) =
    some (.array vals.captures) := array
  rw [← Value.array.inj (Option.some.inj elems)] at entries
  obtain ⟨capMembers, capSame, representable⟩ := entries _ List.mem_cons_self
  obtain rfl := Value.object.inj capSame
  obtain ⟨clnText, srvText, cln, srv, networks⟩ := representable.networks
  have clnIs : some (Value.string "16.0.0.1/29") = some (.string clnText) := cln
  have srvIs : some (Value.string "48.0.0.1/29") = some (.string srvText) := srv
  obtain rfl := Value.string.inj (Option.some.inj clnIs)
  obtain rfl := Value.string.inj (Option.some.inj srvIs)
  exact absurd networks (by decide)

end TrafficGenerator
