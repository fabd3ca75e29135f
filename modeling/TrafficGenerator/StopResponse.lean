/-
This file reads the body of the answer to a stopped run back. The body is printed
into a string piece by piece, each piece with a comma behind it; the comma behind
the last counter is taken off without a look, the one behind the last entry only
if the string ends in a comma, which it does not when there are no entries. What
is printed so is the JSON text of the report, and since it has no escapes it says
nothing else: the counters under their names and one object for each entry.
-/

import Mathlib.Data.List.Forall2
import TrafficGenerator.CycleConversions
import TrafficGenerator.JsonReading
import TrafficGenerator.ResponseBodies

namespace TrafficGenerator

open JsonText

/-! ### The body as it is printed -/

/-- `body.pop_back()`. -/
def popBack (body : String) : String := String.ofList body.toList.dropLast

/-- `if (body.back() == ',') body.pop_back();`. -/
def popComma (body : String) : String :=
  if body.toList.getLast? = some ',' then popBack body else body

/-- `fmt::format_to(std::back_inserter(body), "\"{}\":{},", nam, val)`. -/
def printCounter (body : String) (counter : String × UInt64) : String :=
  body ++ "\"" ++ counter.1 ++ "\":" ++ toString counter.2 ++ ","

/-- One turn of the loop over the entries. -/
def printEntry (hz : UInt64) (body : String) (ent : SummaryEntry) : String :=
  let body := body ++ "\x7b"
  let body := body ++ "\"gen_idx\":" ++ toString ent.genIdx ++ ","
  let body := body ++ "\"flow_idx\":" ++ toString ent.flowIdx ++ ","
  let body := body ++ "\"cnt_pkts\":" ++ toString ent.cntPkts ++ ","
  let body := body ++ "\"cnt_bytes\":" ++ toString ent.cntBytes ++ ","
  let body := body ++ "\"duration_usec\":" ++
    toString (Cycles.countOf hz .microseconds ent.duration)
  body ++ "\x7d,"

/-- What `on_inc_msg(res_stop_generation)` makes of an empty body. -/
def printStopBody (hz : UInt64) (res : SummaryStats) : String :=
  let body := "\x7b\"result\": \x7b"
  let body := popBack (res.summary.visit.foldl printCounter body)
  let body := body ++ "\x7d, \"detailed\": ["
  let body := popComma (res.detailed.foldl (printEntry hz) body)
  body ++ "]\x7d"

/-! ### Commas that are taken off again -/

section Printing

variable {Piece : Type} {print : String → Piece → String} {text : Piece → List Char}

/-- A loop that prints pieces, each with a comma behind it. -/
theorem foldl_print (each : ∀ body piece, (print body piece).toList =
    body.toList ++ (text piece ++ [','])) (pieces : List Piece) (body : String) :
    (pieces.foldl print body).toList =
      body.toList ++ (pieces.map text).flatMap (· ++ [',']) := by
  induction pieces generalizing body with
  | nil => rw [List.foldl_nil, List.map_nil, List.flatMap_nil, List.append_nil]
  | cons piece rest inductionHypothesis =>
    rw [List.foldl_cons, inductionHypothesis, each, List.map_cons, List.flatMap_cons,
      List.append_assoc]

theorem foldl_print_comma (each : ∀ body piece, (print body piece).toList =
    body.toList ++ (text piece ++ [','])) {pieces : List Piece} (nonempty : pieces ≠ [])
    (body : String) :
    (pieces.foldl print body).toList = body.toList ++ commas (pieces.map text) ++ [','] := by
  have pieces' : pieces.map text ≠ [] := fun none => nonempty (List.map_eq_nil_iff.mp none)
  rw [foldl_print each, flatMap_comma pieces', List.append_assoc]

theorem popBack_print (each : ∀ body piece, (print body piece).toList =
    body.toList ++ (text piece ++ [','])) {pieces : List Piece} (nonempty : pieces ≠ [])
    (body : String) :
    (popBack (pieces.foldl print body)).toList = body.toList ++ commas (pieces.map text) := by
  rw [popBack, String.toList_ofList, foldl_print_comma each nonempty, List.dropLast_concat]

/-- With nothing printed, the end of the body is looked at and left alone. -/
theorem popComma_print (each : ∀ body piece, (print body piece).toList =
    body.toList ++ (text piece ++ [','])) (pieces : List Piece) {body : String}
    (ends : body.toList.getLast? ≠ some ',') :
    (popComma (pieces.foldl print body)).toList = body.toList ++ commas (pieces.map text) := by
  unfold popComma
  cases pieces with
  | nil =>
    rw [List.foldl_nil, if_neg ends]
    exact (List.append_nil _).symm
  | cons piece rest =>
    have nonempty := List.cons_ne_nil piece rest
    have comma := congrArg List.getLast? (foldl_print_comma each nonempty body)
    rw [List.getLast?_concat] at comma
    rw [if_pos comma]
    exact popBack_print each nonempty body

end Printing

theorem printCounter_toList (body : String) (counter : String × UInt64) :
    (printCounter body counter).toList = body.toList ++
      ((("\"" ++ counter.1 ++ "\":" ++ toString counter.2) : String).toList ++ [',']) := by
  unfold printCounter
  simp only [String.toList_append, List.append_assoc]
  rfl

/-- The names of an entry are printed with their quotes and the colon. -/
theorem quoted_names : "\"gen_idx\":" = "\"" ++ "gen_idx" ++ "\":" ∧
    "\"flow_idx\":" = "\"" ++ "flow_idx" ++ "\":" ∧ "\"cnt_pkts\":" = "\"" ++ "cnt_pkts" ++ "\":" ∧
    "\"cnt_bytes\":" = "\"" ++ "cnt_bytes" ++ "\":" ∧
    "\"duration_usec\":" = "\"" ++ "duration_usec" ++ "\":" := by
  decide

theorem printEntry_toList (hz : UInt64) (body : String) (ent : SummaryEntry) :
    (printEntry hz body ent).toList = body.toList ++ ((entryText hz ent).toList ++ [',']) := by
  obtain ⟨gen, flow, pkts, bytes, duration⟩ := quoted_names
  have close : "\x7d,".toList = "\x7d".toList ++ [','] := by decide
  unfold printEntry entryText entryMembers jsonMembers
  simp only [gen, flow, pkts, bytes, duration, close, String.toList_append, List.append_assoc,
    String.toList_intercalate, List.map_cons, List.map_nil, List.intercalate_cons_cons,
    List.intercalate_singleton, Cycles.countOf]

theorem statsMembers_joined (stats : Stats) : (statsMembers stats).toList =
    commas (stats.visit.map fun counter =>
      (("\"" ++ counter.1 ++ "\":" ++ toString counter.2) : String).toList) := by
  rw [statsMembers, jsonMembers, String.toList_intercalate, List.map_map, List.map_map]
  rfl

/-- What is printed is the text of the report. -/
theorem printStopBody_eq (hz : UInt64) (res : SummaryStats) :
    printStopBody hz res = stopBody hz res := by
  refine String.toList_injective ?_
  have counters := popBack_print printCounter_toList
    (show res.summary.visit ≠ [] from List.cons_ne_nil _ _) "\x7b\"result\": \x7b"
  have opens : ("\x7d, \"detailed\": [" : String).toList.getLast? = some '[' := by decide
  have ends : (popBack (res.summary.visit.foldl printCounter "\x7b\"result\": \x7b") ++
      "\x7d, \"detailed\": [").toList.getLast? ≠ some ',' := by
    rw [String.toList_append, List.getLast?_append, opens, Option.some_or]
    decide
  have entries := popComma_print (printEntry_toList hz) res.detailed ends
  unfold printStopBody stopBody
  rw [String.toList_append, entries, String.toList_append, counters, String.toList_append,
    String.toList_append, String.toList_append, String.toList_append, statsMembers_joined,
    stopBody_joined]

/-! ### What the body says -/

/-- The counters as integers, each under its name. -/
def statsInts (stats : Stats) : List (String × ℤ) :=
  stats.visit.map fun counter => (counter.1, counter.2.toNat)

/-- The values of an entry as integers, with the duration in microseconds. -/
def entryInts (hz : UInt64) (ent : SummaryEntry) : List (String × ℤ) :=
  [("gen_idx", ent.genIdx.toNat), ("flow_idx", ent.flowIdx.toNat),
    ("cnt_pkts", ent.cntPkts.toNat), ("cnt_bytes", ent.cntBytes.toNat),
    ("duration_usec", Cycles.countOf hz .microseconds ent.duration)]

theorem statsCounters_reads (stats : Stats) :
    (countersDoc (statsCounters stats)).Reads (statsInts stats) := by
  have distinct : ((statsInts stats).map Prod.fst).Nodup := by
    unfold statsInts
    rw [List.map_map]
    exact (by decide : (Stats.visit {} |>.map Prod.fst).Nodup)
  exact reads_decimals distinct

theorem entryCounters_reads (hz : UInt64) (ent : SummaryEntry) :
    (countersDoc (entryCounters hz ent)).Reads (entryInts hz ent) := by
  have distinct : ((entryInts hz ent).map Prod.fst).Nodup :=
    (by decide : ["gen_idx", "flow_idx", "cnt_pkts", "cnt_bytes", "duration_usec"].Nodup)
  exact reads_decimals distinct

/-- An object with two members: the counters, and one object for each entry, in order. -/
def SaysReport (hz : UInt64) (res : SummaryStats) (doc : Json) : Prop :=
  ∃ result detailed,
    doc = .object [("result".toList, result), ("detailed".toList, .array detailed)] ∧
      result.Reads (statsInts res.summary) ∧
      List.Forall₂ (fun ent item => item.Reads (entryInts hz ent)) res.detailed detailed

theorem stopDoc_saysReport (hz : UInt64) (res : SummaryStats) :
    SaysReport hz res (stopDoc hz res) := by
  refine ⟨_, _, rfl, statsCounters_reads res.summary, ?_⟩
  rw [List.forall₂_map_right_iff]
  exact List.forall₂_same.mpr fun ent _ => entryCounters_reads hz ent

/-- The answer to a stopped run has the printed body, which is a JSON document that says the
report and nothing else. -/
theorem stopResponse_decodes (env : MgmtEnv) (manager : MgmtManager) (res : SummaryStats) :
    onResStopGeneration env res manager =
        respond env .stop .ok (printStopBody env.hz res) manager ∧
      ∃ doc, SaysReport env.hz res doc ∧
        ∀ other, IsJson (cxxBytes (printStopBody env.hz res)) other ↔ other = doc := by
  rw [printStopBody_eq]
  refine ⟨rfl, stopDoc env.hz res, stopDoc_saysReport env.hz res, fun other => ?_⟩
  have unescaped := unescaped_stopBody env.hz res
  have encoded := (cxxBytes_ascii unescaped.ascii).symm
  have form : IsJson (cxxBytes (stopBody env.hz res)) (stopDoc env.hz res) :=
    ⟨_, encoded, stopBody_document env.hz res⟩
  constructor
  · exact fun form' => IsJson.unique encoded unescaped.no_backslash form' form
  · rintro rfl
    exact form

end TrafficGenerator
