/-
This file models the parsers of two options in `app/priv/config.cpp`: the endpoint
of the management server and the indices of the CPUs. The endpoint is split at its
colons, and of the two parts the third one is read as the port, so that every
address with a port leads outside of the parts; all other strings are refused. The
indices go through `str_to_int`, which takes an empty part and a number that does
not fit as zero.

Boost is not here: its splitting, its addresses, its exceptions, and the printing
of a list of strings are given by the environment.
-/

import Mathlib.Data.List.Forall2
import TrafficGenerator.StringUtils

namespace TrafficGenerator

/-! ### The environment -/

/-- What the parsers call: `get_single_string`, `balgo::split` (with or without
`token_compress_on`), `make_address_v4`, and the formatting of the values. -/
structure OptionEnv where
  getSingleString : (allowEmpty : Bool) → List (List Char) → Except String (List Char)
  split : (compress : Bool) → (Char → Bool) → List Char → List (List Char)
  makeAddressV4 : List Char → Option UInt32
  format : List (List Char) → String

/-- What Boost documents: a single value is returned, and a text is split at each separator. -/
structure OptionEnv.Documented (env : OptionEnv) : Prop where
  single : ∀ allowEmpty text, env.getSingleString allowEmpty [text] = .ok text
  splits : ∀ isSep text, env.split false isSep text = text.splitOnP isSep

/-! ### The endpoint -/

/-- `boost::asio::ip::tcp::endpoint` of an IPv4 address. -/
structure TcpEndpoint where
  address : UInt32
  port : ℤ

/-- How a parser of an option ends: with a value in `out`, with an exception, or with an index
outside of the parts. -/
inductive Validated (Value : Type) where
  | stored (value : Value)
  | thrown (what : String)
  | outOfRange

/-- `parts[idx]`, and what is done with it. -/
def Validated.index {Value : Type} (parts : List (List Char)) (idx : ℕ)
    (next : List Char → Validated Value) : Validated Value :=
  match parts[idx]? with
  | some part => next part
  | none => .outOfRange

theorem Validated.index_of_some {Value : Type} {parts : List (List Char)} {idx : ℕ}
    {part : List Char} (found : parts[idx]? = some part) (next : List Char → Validated Value) :
    Validated.index parts idx next = next part := by
  unfold Validated.index
  rw [found]

/-- `validate` for `baio_tcp_endpoint`. -/
def validateEndpoint (env : OptionEnv) (val : List (List Char)) : Validated TcpEndpoint :=
  match env.getSingleString false val with
  | .error what => .thrown what
  | .ok str =>
    let parts := env.split false (· == ':') str
    if parts.length ≠ 2 then .thrown ("No port in endpoint: " ++ env.format val)
    else .index parts 0 fun addrText =>
      match env.makeAddressV4 addrText with
      | none => .thrown ("Invalid address in endpoint: " ++ env.format val)
      | some addr => .index parts 2 fun portText =>
        match strToInt uint16Type portText with
        | none => .thrown ("Invalid port in endpoint: " ++ env.format val)
        | some port => .stored ⟨addr, port⟩

/-- An address that is accepted, a colon, and a port from 0 to 65535. -/
def IsEndpointText (env : OptionEnv) (text : List Char) (endpoint : TcpEndpoint) : Prop :=
  ∃ addrText portText, text = addrText ++ ':' :: portText ∧ ':' ∉ addrText ∧
    env.makeAddressV4 addrText = some endpoint.address ∧
      IntText uint16Type portText endpoint.port ∧ uint16Type.Fits endpoint.port

/-- The option is parsed exactly and safely: inside the parts, to the endpoint the text is one
of, and to an exception if it is one of none. -/
def EndpointExact (env : OptionEnv) (text : List Char) : Prop :=
  validateEndpoint env [text] ≠ .outOfRange ∧
    (∀ endpoint, validateEndpoint env [text] = .stored endpoint ↔
      IsEndpointText env text endpoint) ∧
    ((∀ endpoint, ¬ IsEndpointText env text endpoint) →
      ∃ what, validateEndpoint env [text] = .thrown what)

/-- One colon, and an address that is accepted in front of it. -/
def ReachesPort (env : OptionEnv) (text : List Char) : Prop :=
  ∃ addrText portText addr, text = addrText ++ ':' :: portText ∧ ':' ∉ addrText ∧
    ':' ∉ portText ∧ env.makeAddressV4 addrText = some addr

/-! ### Splitting in two -/

/-- A text has no separator, or it has a first one. -/
theorem exists_first_sep (isSep : Char → Bool) (text : List Char) :
    (∀ char ∈ text, isSep char = false) ∨ ∃ first sep rest, text = first ++ sep :: rest ∧
      isSep sep = true ∧ ∀ char ∈ first, isSep char = false := by
  induction text with
  | nil => exact Or.inl fun _ member => absurd member List.not_mem_nil
  | cons char others inductionHypothesis =>
    cases separates : isSep char with
    | true => exact Or.inr ⟨[], char, others, rfl, separates, fun _ member =>
        absurd member List.not_mem_nil⟩
    | false =>
      rcases inductionHypothesis with none | ⟨first, sep, rest, rfl, isSep', all⟩
      · exact Or.inl (List.forall_mem_cons.mpr ⟨separates, none⟩)
      · exact Or.inr ⟨char :: first, sep, rest, rfl, isSep',
          List.forall_mem_cons.mpr ⟨separates, all⟩⟩

/-- A text is split in two parts where it has one separator. -/
theorem splitOnP_pair {isSep : Char → Bool} {text first second : List Char}
    (pair : text.splitOnP isSep = [first, second]) : ∃ sep, isSep sep = true ∧
      text = first ++ sep :: second ∧ (∀ char ∈ first, isSep char = false) ∧
        ∀ char ∈ second, isSep char = false := by
  rcases exists_first_sep isSep text with none | ⟨first', sep, rest, rfl, separates, all⟩
  · rw [List.splitOnP_eq_singleton none] at pair
    exact absurd pair (by simp)
  · rw [List.splitOnP_append_cons_of_forall_mem all sep separates] at pair
    obtain ⟨rfl, others⟩ := List.cons.inj pair
    rcases exists_first_sep isSep rest with none | ⟨first'', sep', rest', rfl, separates', all'⟩
    · rw [List.splitOnP_eq_singleton none] at others
      obtain ⟨rfl, -⟩ := List.cons.inj others
      exact ⟨sep, separates, rfl, all, none⟩
    · rw [List.splitOnP_append_cons_of_forall_mem all' sep' separates'] at others
      exact absurd (List.cons.inj others).2 (List.splitOnP_ne_nil _ _)

theorem not_mem_colon_iff {text : List Char} :
    ':' ∉ text ↔ ∀ char ∈ text, (char == ':') = false := by
  constructor
  · exact fun absent char member => beq_eq_false_iff_ne.mpr fun same => absent (same ▸ member)
  · exact fun other member => absurd (other ':' member) (by decide)

/-- Only a text with one colon has two parts. -/
theorem splitOnP_colon {text : List Char} (two : (text.splitOnP (· == ':')).length = 2) :
    ∃ first second, text.splitOnP (· == ':') = [first, second] ∧
      text = first ++ ':' :: second ∧ ':' ∉ first ∧ ':' ∉ second := by
  obtain ⟨first, second, pair⟩ := List.length_eq_two.mp two
  obtain ⟨sep, separates, written, all, all'⟩ := splitOnP_pair pair
  obtain rfl := beq_iff_eq.mp separates
  exact ⟨first, second, pair, written, not_mem_colon_iff.mpr all, not_mem_colon_iff.mpr all'⟩

/-! ### Which strings are parsed -/

variable {env : OptionEnv}

/-- An accepted address with a port leads to the third of two parts. -/
theorem validateEndpoint_of_reachesPort (documented : env.Documented) {text : List Char}
    (reaches : ReachesPort env text) : validateEndpoint env [text] = .outOfRange := by
  obtain ⟨addrText, portText, addr, rfl, noColon, noColon', accepted⟩ := reaches
  have parts : env.split false (· == ':') (addrText ++ ':' :: portText) = [addrText, portText] := by
    rw [documented.splits, List.splitOnP_append_cons_of_forall_mem
      (not_mem_colon_iff.mp noColon) ':' (by decide),
      List.splitOnP_eq_singleton (not_mem_colon_iff.mp noColon')]
  have two : ¬ [addrText, portText].length ≠ 2 := not_not_intro rfl
  unfold validateEndpoint
  rw [documented.single]
  dsimp only
  rw [parts, if_neg two, Validated.index_of_some rfl, accepted]
  rfl

/-- All other strings are refused. -/
theorem validateEndpoint_of_not_reachesPort (documented : env.Documented) {text : List Char}
    (refused : ¬ ReachesPort env text) : ∃ what, validateEndpoint env [text] = .thrown what := by
  unfold validateEndpoint
  rw [documented.single]
  dsimp only
  rw [documented.splits]
  split
  · exact ⟨_, rfl⟩
  · next two =>
    obtain ⟨first, second, pair, written, noColon, noColon'⟩ := splitOnP_colon (not_not.mp two)
    rw [pair, Validated.index_of_some rfl]
    cases accepted : env.makeAddressV4 first with
    | none => exact ⟨_, rfl⟩
    | some addr => exact absurd ⟨first, second, addr, written, noColon, noColon', accepted⟩ refused

/-- The text of an endpoint has one colon: there is none in a port. -/
theorem reachesPort_of_isEndpointText {text : List Char} {endpoint : TcpEndpoint}
    (isText : IsEndpointText env text endpoint) : ReachesPort env text := by
  obtain ⟨addrText, portText, written, noColon, accepted, port, -⟩ := isText
  refine ⟨addrText, portText, endpoint.address, written, noColon, fun colon => ?_, accepted⟩
  rcases port with ⟨numeral, -⟩ | ⟨signed, -⟩
  · exact absurd (numeral.2 ':' colon) (by decide)
  · exact absurd signed Bool.false_ne_true

/-- The endpoint is parsed exactly and safely from the strings without an accepted address in
front of a single colon. -/
theorem endpointExact_iff (documented : env.Documented) (text : List Char) :
    EndpointExact env text ↔ ¬ ReachesPort env text := by
  constructor
  · rintro ⟨inside, -⟩ reaches
    exact inside (validateEndpoint_of_reachesPort documented reaches)
  · intro refused
    obtain ⟨what, thrown⟩ := validateEndpoint_of_not_reachesPort documented refused
    unfold EndpointExact
    rw [thrown]
    refine ⟨by simp, fun endpoint => iff_of_false (by simp) fun isText => ?_, fun _ => ⟨_, rfl⟩⟩
    exact refused (reachesPort_of_isEndpointText isText)

/-- Boost for texts without two separators in a row, with one address it accepts. -/
def loopbackOptions : OptionEnv where
  getSingleString allowEmpty val :=
    match val with
    | [] => if allowEmpty then .ok [] else .error "at least one value required"
    | [text] => .ok text
    | _ => .error "multiple values not allowed"
  split _ isSep text := text.splitOnP isSep
  makeAddressV4 text := if text = "127.0.0.1".toList then some 0x7f000001 else none
  format val := toString (val.map String.ofList)

theorem loopbackOptions_documented : loopbackOptions.Documented where
  single _ _ := rfl
  splits _ _ := rfl

/-- An address without a port is refused, as it should be. -/
theorem endpointExact_noPort : ¬ ReachesPort loopbackOptions "127.0.0.1".toList ∧
    EndpointExact loopbackOptions "127.0.0.1".toList := by
  have refused : ¬ ReachesPort loopbackOptions "127.0.0.1".toList := by
    rintro ⟨addrText, portText, addr, written, -⟩
    have colon : ':' ∈ "127.0.0.1".toList := by
      rw [written]
      exact List.mem_append_right _ List.mem_cons_self
    exact absurd colon (by decide)
  exact ⟨refused, (endpointExact_iff loopbackOptions_documented _).mpr refused⟩

/-- The endpoint of the configuration that comes with the program. -/
theorem endpointExact_fails : ¬ EndpointExact loopbackOptions "127.0.0.1:12345".toList := by
  rintro ⟨inside, -⟩
  exact inside (validateEndpoint_of_reachesPort loopbackOptions_documented
    ⟨"127.0.0.1".toList, "12345".toList, 0x7f000001, by decide, by decide, by decide, rfl⟩)

/-! ### The CPUs -/

/-- `std::array<uint16_t, 2>`. -/
def cpuIdxsSize : ℕ := 2

/-- `validate` for `cpu_idxs`; every exception leaves `out` as it was. -/
def validateCpuIdxs (env : OptionEnv) (val : List (List Char)) : Option (List ℤ) := do
  let str ← (env.getSingleString true val).toOption
  let parts := env.split true (· == ',') str
  if parts.length ≠ cpuIdxsSize then none
  else parts.mapM fun part => strToInt uint16Type (strTrim part)

/-- Every index that is stored is the number its part is the text of. -/
def CpusExact (env : OptionEnv) (val : List (List Char)) : Prop :=
  ∀ str, env.getSingleString true val = .ok str → ∀ idxs, validateCpuIdxs env val = some idxs →
    List.Forall₂ (fun part idx => IntText uint16Type (strTrim part) idx ∧ uint16Type.Fits idx)
      (env.split true (· == ',') str) idxs

/-- Where there are as many parts as CPUs, each of them empty or a number, none of them is empty
or too large. -/
def CpusPresent (env : OptionEnv) (val : List (List Char)) : Prop :=
  ∀ str, env.getSingleString true val = .ok str →
    (env.split true (· == ',') str).length = cpuIdxsSize →
      (∀ part ∈ env.split true (· == ',') str,
        strTrim part = [] ∨ ∃ num, IntText uint16Type (strTrim part) num) →
        ∀ part ∈ env.split true (· == ',') str, Present uint16Type (strTrim part)

theorem mapM_eq_some_iff {First Second : Type} {read : First → Option Second}
    {firsts : List First} {seconds : List Second} : firsts.mapM read = some seconds ↔
      List.Forall₂ (fun first second => read first = some second) firsts seconds := by
  induction firsts generalizing seconds with
  | nil => simp [eq_comm]
  | cons first rest inductionHypothesis =>
    simp only [List.mapM_cons, Option.bind_eq_bind, Option.bind_eq_some_iff,
      List.forall₂_cons_left_iff, ← inductionHypothesis]
    constructor
    · rintro ⟨second, one, seconds, others, same⟩
      exact ⟨second, seconds, one, others, (Option.some.inj same).symm⟩
    · rintro ⟨second, seconds, one, others, rfl⟩
      exact ⟨second, one, seconds, others, rfl⟩

theorem validateCpuIdxs_eq_some_iff {val : List (List Char)} {str : List Char} {idxs : List ℤ}
    (single : env.getSingleString true val = .ok str) : validateCpuIdxs env val = some idxs ↔
      (env.split true (· == ',') str).length = cpuIdxsSize ∧
        List.Forall₂ (fun part idx => strToInt uint16Type (strTrim part) = some idx)
          (env.split true (· == ',') str) idxs := by
  unfold validateCpuIdxs
  rw [single]
  show (if _ then none else _) = some idxs ↔ _
  split
  · next other => exact iff_of_false (by simp) fun both => other both.1
  · next same =>
    rw [mapM_eq_some_iff]
    exact (and_iff_right (not_not.mp same)).symm

/-- A part that is read at all is empty or a number. -/
theorem empty_or_intText {int : IntType} {text : List Char} {num : ℤ}
    (read : strToInt int text = some num) : text = [] ∨ ∃ num, IntText int text num := by
  by_contra neither
  rw [not_or, not_exists] at neither
  rw [strToInt_of_not_intText neither.1 neither.2] at read
  exact absurd read (by simp)

/-- A part that is empty or a number is read. -/
theorem exists_strToInt {int : IntType} {text : List Char}
    (acceptable : text = [] ∨ ∃ num, IntText int text num) :
    ∃ num, strToInt int text = some num := by
  rcases acceptable with rfl | ⟨num, isText⟩
  · exact ⟨0, strToInt_nil int⟩
  · exact ⟨_, strToInt_of_intText isText⟩

/-- A number that fits is there and not too large. -/
theorem present_of_intText {int : IntType} {text : List Char} {num : ℤ}
    (isText : IntText int text num) (fits : int.Fits num) : Present int text :=
  ⟨fun empty => not_intText_nil int num (empty ▸ isText),
    fun _ isText' => isText.unique isText' ▸ fits⟩

/-- The indices are numbers of the text exactly where none is missing and none is too large. -/
theorem cpusExact_iff (env : OptionEnv) (val : List (List Char)) :
    CpusExact env val ↔ CpusPresent env val := by
  constructor
  · intro exact str single length acceptable
    have reads : List.Forall₂ (fun part idx => strToInt uint16Type (strTrim part) = some idx)
        (env.split true (· == ',') str) ((env.split true (· == ',') str).map fun part =>
          (strToInt uint16Type (strTrim part)).getD 0) := by
      rw [List.forall₂_map_right_iff, List.forall₂_same]
      intro part member
      obtain ⟨idx, read⟩ := exists_strToInt (acceptable part member)
      rw [read]
      rfl
    have genuine := exact str single _ ((validateCpuIdxs_eq_some_iff single).mpr ⟨length, reads⟩)
    have present := genuine.imp fun part idx both =>
      And.intro (present_of_intText both.1 both.2) both.1
    exact ((List.forall₂_and_left _ _).mp present).1
  · intro present str single idxs stored
    obtain ⟨length, reads⟩ := (validateCpuIdxs_eq_some_iff single).mp stored
    have acceptable := reads.imp fun part idx read => And.intro (empty_or_intText read) read
    have all := present str single length ((List.forall₂_and_left _ _).mp acceptable).1
    exact ((List.forall₂_and_left _ _).mpr ⟨all, reads⟩).imp fun part idx both =>
      (exactFor_of_present both.1 idx).mp both.2

/-- `str_to_int` is exact on the strings that are not empty and no numbers that are too large;
and with it the option of the CPUs. -/
theorem strToInt_exact_iff (int : IntType) (text : List Char) (env : OptionEnv)
    (val : List (List Char)) : (ExactFor int text ↔ Present int text) ∧
      (CpusExact env val ↔ CpusPresent env val) :=
  ⟨exactFor_iff int text, cpusExact_iff env val⟩

/-- The empty string is zero, and so is a CPU that is missing behind a comma. -/
theorem strToInt_inexact :
    ¬ ExactFor uint16Type [] ∧ ¬ CpusExact loopbackOptions ["1,".toList] := by
  constructor
  · rw [exactFor_iff]
    exact fun present => present.1 rfl
  · intro exact
    have stored : validateCpuIdxs loopbackOptions ["1,".toList] = some [1, 0] := by decide
    have parts : loopbackOptions.split true (· == ',') "1,".toList = [['1'], []] := by decide
    have genuine := exact "1,".toList rfl _ stored
    rw [parts] at genuine
    have last := (List.forall₂_cons.mp (List.forall₂_cons.mp genuine).2).1
    exact not_intText_nil uint16Type 0 last.1

end TrafficGenerator
