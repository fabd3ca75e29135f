/-
This file settles which bodies of HTTP answers are JSON documents.

The bodies with the counters of a run are put together from fixed names and
decimal numbers, and are documents for all values. The other ones put a text
between two quotes as it is. Such a body is a document that says the text exactly
when the text is UTF-8 and has no quote, no backslash and no control character,
which is true of every fixed text but not of those that come from outside: the
target of a request, the text of an exception, and the reason why a start failed,
which ends in a line feed of its own.
-/

import TrafficGenerator.JsonUnique
import TrafficGenerator.MgmtSteps

namespace TrafficGenerator

open JsonText

/-! ### Strings of bytes -/

/-- The bytes of a string of the source, which are the characters of the model's. -/
def cxxBytes (text : String) : List UInt8 := text.toList.map fun char => UInt8.ofNat char.toNat

/-- Every sequence of bytes is such a string. -/
theorem exists_cxxBytes (bytes : List UInt8) : ∃ text, cxxBytes text = bytes := by
  refine ⟨String.ofList (bytes.map fun byte => Char.ofNat byte.toNat), ?_⟩
  rw [cxxBytes, String.toList_ofList, List.map_map]
  refine (List.map_congr_left fun byte _ => ?_).trans (List.map_id bytes)
  have small := byte.toNat_lt
  have valid : byte.toNat.isValidChar := Or.inl (by omega)
  show UInt8.ofNat (Char.ofNat byte.toNat).toNat = byte
  rw [Char.ofNat, dif_pos valid]
  exact UInt8.ofNat_toNat

theorem cxxBytes_append (first second : String) :
    cxxBytes (first ++ second) = cxxBytes first ++ cxxBytes second := by
  rw [cxxBytes, String.toList_append, List.map_append]
  rfl

theorem cxxBytes_ascii {text : String} (ascii : Ascii text.toList) :
    cxxBytes text = utf8 text.toList := (utf8_ascii ascii).symm

/-- A text that means the same between two quotes: UTF-8 without a quote, a backslash or a
control character. -/
def CleanText (text : String) : Prop :=
  ∃ chars, utf8 chars = cxxBytes text ∧ PlainText chars

/-- The body is a JSON document, and where it was made from a message its result is a string
that decodes to the message. -/
def GoodBody (body : String) : Prop :=
  ∃ doc, IsJson (cxxBytes body) doc ∧ ∀ message, body = makeResponseBody message →
    ∃ text members, utf8 text = cxxBytes message ∧ doc = .object members ∧
      ("result".toList, .string text) ∈ members

/-! ### Bodies with a message -/

theorem cxxBytes_makeResponseBody {message : String} {text : List Char}
    (encoded : utf8 text = cxxBytes message) :
    cxxBytes (makeResponseBody message) = utf8 (verbatim "result".toList text) := by
  unfold makeResponseBody
  rw [cxxBytes_append, cxxBytes_append, ← encoded, cxxBytes_ascii (by decide),
    cxxBytes_ascii (by decide), ← utf8_append, ← utf8_append]
  rfl

theorem makeResponseBody_inj {message message' : String}
    (same : makeResponseBody message = makeResponseBody message') : message = message' := by
  have chars := congrArg String.toList same
  unfold makeResponseBody at chars
  simp only [String.toList_append] at chars
  exact String.toList_inj.mp (List.append_cancel_left (List.append_cancel_right chars))

theorem goodBody_message_iff (message : String) :
    GoodBody (makeResponseBody message) ↔ CleanText message := by
  constructor
  · rintro ⟨doc, ⟨chars, encoded, form⟩, decodes⟩
    obtain ⟨text, members, encoded', rfl, found⟩ := decodes message rfl
    rw [cxxBytes_makeResponseBody encoded'] at encoded
    rw [utf8_inj encoded] at form
    exact ⟨text, encoded', plain_of_document (by decide) found form⟩
  · rintro ⟨text, encoded, plain⟩
    refine ⟨_, ⟨_, (cxxBytes_makeResponseBody encoded).symm, document_verbatim (by decide) plain⟩,
      fun other same => ?_⟩
    rw [← makeResponseBody_inj same]
    exact ⟨text, _, encoded, rfl, List.mem_cons_self⟩

/-- A fixed text without a quote, a backslash or a control character. -/
theorem cleanText_of_ascii {text : String} (ascii : Ascii text.toList)
    (plain : PlainText text.toList) : CleanText text :=
  ⟨text.toList, (cxxBytes_ascii ascii).symm, plain⟩

/-- What is put behind a fixed text decides. -/
theorem cleanText_append_iff {fixed : String} (ascii : Ascii fixed.toList)
    (plain : PlainText fixed.toList) (text : String) :
    CleanText (fixed ++ text) ↔ CleanText text := by
  unfold CleanText
  rw [cxxBytes_append, cxxBytes_ascii ascii]
  constructor
  · rintro ⟨chars, encoded, all⟩
    obtain ⟨rest, rfl, encoded'⟩ := utf8_eq_append encoded
    exact ⟨rest, encoded', fun char member => all char (List.mem_append_right _ member)⟩
  · rintro ⟨rest, encoded, all⟩
    refine ⟨fixed.toList ++ rest, by rw [utf8_append, encoded], fun char member => ?_⟩
    exact (List.mem_append.mp member).elim (plain char) (all char)

/-- A text with the byte of an ASCII character that is not plain is not clean. -/
theorem not_cleanText_of_mem {text : String} {special : Char}
    (member : UInt8.ofNat special.toNat ∈ cxxBytes text) (ascii : special.toNat < 128)
    (meaning : ¬ Plain special) : ¬ CleanText text := by
  rintro ⟨chars, encoded, all⟩
  have code : (UInt8.ofNat special.toNat).toNat = special.toNat := by
    rw [UInt8.toNat_ofNat', Nat.mod_eq_of_lt (by omega)]
  rw [← encoded] at member
  obtain ⟨char, among, same⟩ := mem_of_mem_utf8 member (by rw [code]; exact ascii)
  rw [code] at same
  obtain rfl : char = special := Char.ext (UInt32.toNat_inj.mp same)
  exact meaning (all char among)

/-- The answer to a start that failed is never a document. -/
theorem failedStart_notGood (text : String) :
    ¬ GoodBody (makeResponseBody s!"Failed to start generation: {text}\n") := by
  rw [goodBody_message_iff]
  have member : UInt8.ofNat ('\n').toNat ∈
      cxxBytes ("Failed to start generation: " ++ text ++ "\n") := by
    rw [cxxBytes_append]
    exact List.mem_append_right _ List.mem_cons_self
  exact not_cleanText_of_mem member (by decide) (by decide)

/-! ### Bodies with counters -/

/-- An ASCII body that is a document and does not start like one with a message. -/
theorem goodBody_of_document {body : String} {doc : Json} (ascii : Ascii body.toList)
    (form : Document body.toList doc) (other : body.toList[11]? = some '\x7b') : GoodBody body := by
  refine ⟨doc, ⟨body.toList, (cxxBytes_ascii ascii).symm, form⟩, fun message same => ?_⟩
  have quoted : (makeResponseBody message).toList[11]? = some quote := by
    unfold makeResponseBody
    simp [quote]
  rw [← same, other] at quoted
  exact absurd (Option.some.inj quoted) (by decide)

/-- A member written with the given white space before its name and its value. -/
def memberOf (before : List Char) (name : String) (between raw : List Char) (value : Json) :
    Member :=
  ⟨before, name.toList, name.toList, [], between, raw, [], value⟩

theorem memberOf_named {before between raw : List Char} {name : String} {value : Json}
    (spaces : Spaces before) (plain : PlainText name.toList)
    (spaces' : Spaces between) : (memberOf before name between raw value).Named :=
  ⟨spaces, .of_plain plain, spaces_nil, spaces', spaces_nil⟩

/-- The name of a counter with its value in decimal. -/
structure CounterEntry (entry : String × String) : Prop where
  asciiName : Ascii entry.1.toList
  plainName : PlainText entry.1.toList
  asciiValue : Ascii entry.2.toList
  number : NumberText entry.2.toList

/-- What an object of counters says. -/
def countersDoc (entries : List (String × String)) : Json :=
  .object (entries.map fun entry => (entry.1.toList, .number entry.2.toList))

/-- The members of an object of counters make an object. -/
theorem jsonMembers_object {entries : List (String × String)} (nonempty : entries ≠ [])
    (counters : ∀ entry ∈ entries, CounterEntry entry) :
    ValueText ('\x7b' :: (jsonMembers entries).toList ++ ['\x7d']) (countersDoc entries) := by
  let member (entry : String × String) : Member :=
    memberOf [] entry.1 [] entry.2.toList (.number entry.2.toList)
  have named : ∀ written ∈ entries.map member, written.Named := by
    intro written among
    obtain ⟨entry, counted, rfl⟩ := List.mem_map.mp among
    exact memberOf_named spaces_nil (counters entry counted).plainName spaces_nil
  have values : ∀ written ∈ entries.map member,
      ValueText written.item.raw written.item.value := by
    intro written among
    obtain ⟨entry, counted, rfl⟩ := List.mem_map.mp among
    exact .number _ (counters entry counted).number
  have pieces : (jsonMembers entries).toList = commas ((entries.map member).map Member.text) := by
    rw [jsonMembers, String.toList_intercalate, List.map_map, List.map_map]
    refine congrArg commas (List.map_congr_left fun entry _ => ?_)
    simp [member, memberOf, Member.text, Item.text, quote]
  have meaning : countersDoc entries = .object ((entries.map member).map Member.entry) := by
    rw [List.map_map]
    rfl
  rw [pieces, meaning]
  exact .object _ (by simpa using nonempty) named values

theorem unescaped_jsonMembers {entries : List (String × String)}
    (counters : ∀ entry ∈ entries, CounterEntry entry) :
    Unescaped (jsonMembers entries).toList := by
  rw [jsonMembers, String.toList_intercalate, List.map_map]
  refine unescaped_commas fun piece among => ?_
  obtain ⟨entry, counted, rfl⟩ := List.mem_map.mp among
  have counter := counters entry counted
  have name := unescaped_plain counter.asciiName counter.plainName
  have value := unescaped_number counter.asciiValue counter.number
  simp only [Function.comp, String.toList_append]
  exact (((by decide : Unescaped "\"".toList).append name).append
    (by decide : Unescaped "\":".toList)).append value

/-- Counters under names that are known to be plain ASCII. -/
theorem counterEntries {entries : List (String × String)}
    (names : ∀ name ∈ entries.map Prod.fst, Ascii name.toList ∧ PlainText name.toList)
    (values : ∀ entry ∈ entries, ∃ num : ℤ, entry.2 = toString num) :
    ∀ entry ∈ entries, CounterEntry entry := by
  intro entry among
  obtain ⟨ascii, plain⟩ := names entry.1 (List.mem_map_of_mem among)
  obtain ⟨num, decimal⟩ := values entry among
  exact ⟨ascii, plain, decimal ▸ ascii_int num, decimal ▸ numberText_int num⟩

/-- The counters with their values in decimal. -/
def statsCounters (stats : Stats) : List (String × String) :=
  stats.visit.map fun entry => (entry.1, toString entry.2)

/-- The values of one entry of the summary. -/
def entryCounters (hz : UInt64) (ent : SummaryEntry) : List (String × String) :=
  [("gen_idx", toString ent.genIdx), ("flow_idx", toString ent.flowIdx),
    ("cnt_pkts", toString ent.cntPkts), ("cnt_bytes", toString ent.cntBytes),
    ("duration_usec",
      toString (Cycles.toDuration hz .microseconds ent.duration).toInt64.toInt)]

theorem statsMembers_counters (stats : Stats) :
    ∀ entry ∈ statsCounters stats, CounterEntry entry := by
  unfold statsCounters
  refine counterEntries ?_ fun entry among => ?_
  · rw [List.map_map]
    exact (by decide : ∀ name ∈ Stats.visit {} |>.map Prod.fst,
      Ascii name.toList ∧ PlainText name.toList)
  · obtain ⟨counter, -, rfl⟩ := List.mem_map.mp among
    exact ⟨counter.2.toNat, rfl⟩

theorem entryMembers_counters (hz : UInt64) (ent : SummaryEntry) :
    ∀ entry ∈ entryCounters hz ent, CounterEntry entry := by
  have names : ∀ name ∈ ["gen_idx", "flow_idx", "cnt_pkts", "cnt_bytes", "duration_usec"],
      Ascii name.toList ∧ PlainText name.toList := by
    decide
  refine counterEntries names fun entry among => ?_
  simp only [entryCounters, List.mem_cons, List.not_mem_nil, or_false] at among
  rcases among with rfl | rfl | rfl | rfl | rfl
  · exact ⟨ent.genIdx.toNat, rfl⟩
  · exact ⟨ent.flowIdx.toNat, rfl⟩
  · exact ⟨ent.cntPkts.toNat, rfl⟩
  · exact ⟨ent.cntBytes.toNat, rfl⟩
  · exact ⟨_, rfl⟩

/-- Two members that make a document, or one. -/
theorem document_of_members {members : List Member} {body : String} (nonempty : members ≠ [])
    (named : ∀ member ∈ members, member.Named)
    (values : ∀ member ∈ members, ValueText member.item.raw member.item.value)
    (written : body.toList = '\x7b' :: commas (members.map Member.text) ++ ['\x7d']) :
    Document body.toList (.object (members.map Member.entry)) := by
  refine ⟨[], _, [], ?_, spaces_nil, spaces_nil, .object members nonempty named values⟩
  rw [written, List.nil_append, List.append_nil]

/-- The statistics are always a document. -/
theorem statsBody_good (res : Stats) : GoodBody (statsBody res) := by
  have object := jsonMembers_object (List.cons_ne_nil _ _) (statsMembers_counters res)
  have ascii : Ascii (statsBody res).toList := by
    unfold statsBody
    rw [String.toList_append, String.toList_append]
    exact ((by decide : Ascii "\x7b\"result\": \x7b".toList).append
      (unescaped_jsonMembers (statsMembers_counters res)).ascii).append (by decide)
  let result : Member :=
    memberOf [] "result" [' '] ('\x7b' :: (statsMembers res).toList ++ ['\x7d'])
      (countersDoc (statsCounters res))
  have named : ∀ member ∈ [result], member.Named := by
    intro member among
    rw [List.mem_singleton.mp among]
    exact memberOf_named spaces_nil (by decide) spaces_blank
  have values : ∀ member ∈ [result], ValueText member.item.raw member.item.value := by
    intro member among
    rw [List.mem_singleton.mp among]
    exact object
  have form := document_of_members (List.cons_ne_nil _ _) named values
    (show (statsBody res).toList = _ by
      unfold statsBody
      rw [List.map_singleton, commas_singleton]
      simp [result, memberOf, Member.text, Item.text, quote])
  refine goodBody_of_document ascii form ?_
  unfold statsBody
  simp

/-- The text of one entry of the summary. -/
def entryText (hz : UInt64) (ent : SummaryEntry) : String := "\x7b" ++ entryMembers hz ent ++ "\x7d"

theorem entryText_object (hz : UInt64) (ent : SummaryEntry) :
    ValueText (entryText hz ent).toList (countersDoc (entryCounters hz ent)) := by
  rw [entryText, String.toList_append, String.toList_append]
  exact jsonMembers_object (List.cons_ne_nil _ _) (entryMembers_counters hz ent)

theorem unescaped_entryText (hz : UInt64) (ent : SummaryEntry) :
    Unescaped (entryText hz ent).toList := by
  rw [entryText, String.toList_append, String.toList_append]
  exact ((by decide : Unescaped "\x7b".toList).append
    (unescaped_jsonMembers (entryMembers_counters hz ent))).append (by decide)

/-- The entries of the summary make an array. -/
theorem detailed_array (hz : UInt64) (detailed : List SummaryEntry) : ValueText
    ('[' :: commas (detailed.map fun ent => (entryText hz ent).toList) ++ [']'])
    (.array (detailed.map fun ent => countersDoc (entryCounters hz ent))) := by
  cases detailed with
  | nil => exact .emptyArray [] spaces_nil
  | cons first rest =>
    let item (ent : SummaryEntry) : Item :=
      ⟨[], (entryText hz ent).toList, [], countersDoc (entryCounters hz ent)⟩
    have spaced : ∀ written ∈ (first :: rest).map item, written.Spaced := by
      intro written among
      obtain ⟨ent, -, rfl⟩ := List.mem_map.mp among
      exact ⟨spaces_nil, spaces_nil⟩
    have values : ∀ written ∈ (first :: rest).map item, ValueText written.raw written.value := by
      intro written among
      obtain ⟨ent, -, rfl⟩ := List.mem_map.mp among
      dsimp only [item]
      exact entryText_object hz ent
    have pieces : ((first :: rest).map fun ent => (entryText hz ent).toList) =
        ((first :: rest).map item).map Item.text := by
      rw [List.map_map]
      refine List.map_congr_left fun ent _ => ?_
      simp [item, Item.text]
    have meaning : ((first :: rest).map fun ent => countersDoc (entryCounters hz ent)) =
        ((first :: rest).map item).map Item.value := by
      rw [List.map_map]
      rfl
    rw [pieces, meaning]
    exact .array _ (by simp) spaced values

/-- What the report of a stopped run says. -/
def stopDoc (hz : UInt64) (res : SummaryStats) : Json :=
  .object [("result".toList, countersDoc (statsCounters res.summary)),
    ("detailed".toList,
      .array (res.detailed.map fun ent => countersDoc (entryCounters hz ent)))]

theorem stopBody_joined (hz : UInt64) (detailed : List SummaryEntry) :
    (String.intercalate "," (detailed.map fun ent =>
      "\x7b" ++ entryMembers hz ent ++ "\x7d")).toList =
      commas (detailed.map fun ent => (entryText hz ent).toList) := by
  rw [String.toList_intercalate, List.map_map]
  rfl

theorem unescaped_stopBody (hz : UInt64) (res : SummaryStats) :
    Unescaped (stopBody hz res).toList := by
  have summary := unescaped_jsonMembers (statsMembers_counters res.summary)
  have detailed :
      Unescaped (commas (res.detailed.map fun ent => (entryText hz ent).toList)) := by
    refine unescaped_commas fun piece among => ?_
    obtain ⟨ent, -, rfl⟩ := List.mem_map.mp among
    exact unescaped_entryText hz ent
  unfold stopBody
  rw [String.toList_append, String.toList_append, String.toList_append, String.toList_append,
    stopBody_joined]
  exact ((((by decide : Unescaped "\x7b\"result\": \x7b".toList).append summary).append
    (by decide)).append detailed).append (by decide)

theorem stopBody_document (hz : UInt64) (res : SummaryStats) :
    Document (stopBody hz res).toList (stopDoc hz res) := by
  let result : Member :=
    memberOf [] "result" [' '] ('\x7b' :: (statsMembers res.summary).toList ++ ['\x7d'])
      (countersDoc (statsCounters res.summary))
  let detailed : Member := memberOf [' '] "detailed" [' ']
    ('[' :: commas (res.detailed.map fun ent => (entryText hz ent).toList) ++ [']'])
    (.array (res.detailed.map fun ent => countersDoc (entryCounters hz ent)))
  have named : ∀ member ∈ [result, detailed], member.Named := by
    intro member among
    rcases List.mem_pair.mp among with rfl | rfl
    · exact memberOf_named spaces_nil (by decide) spaces_blank
    · exact memberOf_named spaces_blank (by decide) spaces_blank
  have values : ∀ member ∈ [result, detailed],
      ValueText member.item.raw member.item.value := by
    intro member among
    rcases List.mem_pair.mp among with rfl | rfl
    · exact jsonMembers_object (List.cons_ne_nil _ _) (statsMembers_counters res.summary)
    · exact detailed_array hz res.detailed
  exact document_of_members (List.cons_ne_nil _ _) named values
    (show (stopBody hz res).toList = _ by
      unfold stopBody
      rw [List.map_cons, List.map_singleton, commas_cons_cons, commas_singleton,
        String.toList_append, String.toList_append, String.toList_append, String.toList_append,
        stopBody_joined]
      simp [result, detailed, memberOf, Member.text, Item.text, quote])

/-- The report of a stopped run is always a document. -/
theorem stopBody_good (hz : UInt64) (res : SummaryStats) : GoodBody (stopBody hz res) := by
  refine goodBody_of_document (unescaped_stopBody hz res).ascii (stopBody_document hz res) ?_
  unfold stopBody
  simp

/-! ### The answers handed to a callback -/

/-- The calls of callbacks a request was waiting behind. An abort comes before the call it is
recorded with. -/
def MgmtManager.handed (manager : MgmtManager) : List HttpAnswer :=
  (if manager.aborted then manager.answers.dropLast else manager.answers).filter fun answer =>
    answer.request.isSome

variable {manager : MgmtManager} {queue : ReqQueue}

theorem handed_setCb (cb : Option ℕ) (kind : ReqKind) :
    (manager.setCb cb kind).handed = manager.handed := by
  rw [MgmtManager.handed, MgmtManager.handed, setCb_answers, setCb_aborted]

theorem handed_answer (running : manager.aborted = false) (cb : ℕ) (status : HttpStatus)
    (body : String) : (manager.answer (some cb) status body).handed =
      manager.handed ++ [{ request := some cb, status, body }] := by
  have running' : (manager.answer (some cb) status body).aborted = false := running
  rw [MgmtManager.handed, MgmtManager.handed, running, running']
  exact List.filter_append _ _

/-- A response reaches the callback that waits for it unless `TG_ENFORCE` aborts. -/
theorem handed_respond (env : MgmtEnv) (running : manager.aborted = false) (kind : ReqKind)
    (status : HttpStatus) (body : String) : (respond env kind status body manager).handed =
      manager.handed ++ if (manager.cb kind).isSome ∧ env.enforce true = false then
        [{ request := manager.cb kind, status, body }] else [] := by
  have answers := respond_answers env kind status body manager
  have aborted := respond_aborted env kind status body manager
  rw [running, Bool.false_or] at aborted
  rw [MgmtManager.handed, MgmtManager.handed, answers, aborted, running]
  cases waiting : manager.cb kind with
  | none =>
    cases env.enforce (none : Option ℕ).isSome <;> simp
  | some cb =>
    cases enforced : env.enforce (some cb).isSome <;>
      simp [show env.enforce true = _ from enforced]

/-! ### Which answers are documents -/

/-- Nothing that means anything in a string literal is put between the quotes: not by the target
of a request, not by the exception of a configuration that is read, and not by a start that
failed, whose text ends in a line feed, unless it reaches nobody. -/
def NothingToEscape (env : MgmtEnv) (state : MgmtState) : MgmtLabel → Prop
  | .http _ target req => CleanText target ∧
      (target = "/start_gen" → state.manager.startCb = none →
        ∀ what, env.parseCfg req = .error what → CleanText what)
  | .handle (.startGeneration (.error _)) =>
      ¬ (state.manager.startCb.isSome ∧ env.enforce true = false)
  | .handle _ | .drain _ => True

theorem goodBody_fixed {message : String} (ascii : Ascii message.toList)
    (plain : PlainText message.toList) : GoodBody (makeResponseBody message) :=
  (goodBody_message_iff message).mpr (cleanText_of_ascii ascii plain)

/-- The bodies handed out from `manager` to `next` are good exactly on a condition. -/
def HandsGood (manager next : MgmtManager) (condition : Prop) : Prop :=
  ∃ added, next.handed = manager.handed ++ added ∧
    ((∀ answer ∈ added, GoodBody answer.body) ↔ condition)

theorem handsGood_nothing {next : MgmtManager} (same : next.handed = manager.handed)
    {condition : Prop} (holds : condition) : HandsGood manager next condition :=
  ⟨[], by rw [same, List.append_nil],
    fun _ => holds, fun _ _ member => absurd member List.not_mem_nil⟩

theorem handsGood_answer (running : manager.aborted = false) (cb : ℕ) (status : HttpStatus)
    {body : String} {condition : Prop} (good : GoodBody body ↔ condition) :
    HandsGood manager (manager.answer (some cb) status body) condition := by
  refine ⟨_, handed_answer running cb status body, ?_⟩
  rw [← good]
  simp only [List.mem_singleton, forall_eq]

theorem enqueueReq_handsGood (running : manager.aborted = false) (kind : ReqKind) (cb : ℕ)
    (msg : ReqMsg) {condition : Prop} (holds : condition) :
    HandsGood manager (enqueueReq kind cb msg manager queue).1 condition := by
  unfold enqueueReq
  split
  · exact handsGood_nothing (handed_setCb _ _) holds
  · exact handsGood_answer running cb _
      (iff_of_true (goodBody_fixed (by decide) (by decide)) holds)

/-- A request to stop or for the statistics is refused while one waits. -/
theorem pendingReq_handsGood (running : manager.aborted = false) (pending : Bool) (kind : ReqKind)
    (cb : ℕ) (msg : ReqMsg) {refusal : String} (ascii : Ascii refusal.toList)
    (plain : PlainText refusal.toList) {condition : Prop} (holds : condition) :
    HandsGood manager (if pending then (manager.answer (some cb) .preconditionFailed
      (makeResponseBody refusal), queue) else enqueueReq kind cb msg manager queue).1
      condition := by
  split
  · exact handsGood_answer running cb _ (iff_of_true (goodBody_fixed ascii plain) holds)
  · exact enqueueReq_handsGood running kind cb msg holds

/-- A request is answered at once, or not yet. -/
theorem onHttpRequest_handsGood (env : MgmtEnv) (state : MgmtState)
    (running : state.manager.aborted = false) (cb : ℕ) (target req : String) :
    HandsGood state.manager (onHttpRequest env cb target req state.manager state.queue).1
      (NothingToEscape env state (.http cb target req)) := by
  unfold onHttpRequest
  split
  · next start =>
    have clean : CleanText target := start ▸ cleanText_of_ascii (by decide) (by decide)
    unfold onReqStartGen
    split
    · next waiting =>
      refine handsGood_answer running cb _ (iff_of_true (goodBody_fixed (by decide) (by decide))
        ⟨clean, fun _ free => ?_⟩)
      rw [free] at waiting
      exact absurd waiting Bool.false_ne_true
    · next free =>
      split
      · next cfg parsed =>
        exact enqueueReq_handsGood running _ cb _ ⟨clean, fun _ _ what thrown => by
          rw [parsed] at thrown
          exact absurd thrown (by simp)⟩
      · next what thrown =>
        refine handsGood_answer running cb _ ((goodBody_message_iff _).trans
          ((cleanText_append_iff (by decide) (by decide) what).trans ?_))
        refine ⟨fun plain => ⟨clean, fun _ _ other thrown' => ?_⟩,
          fun nothing => nothing.2 start (by simpa using free) what thrown⟩
        rw [thrown] at thrown'
        exact Except.error.inj thrown' ▸ plain
  · next notStart =>
    split
    · next stop =>
      have nothing : NothingToEscape env state (.http cb target req) :=
        ⟨stop ▸ cleanText_of_ascii (by decide) (by decide), fun start => absurd start notStart⟩
      exact pendingReq_handsGood running _ .stop cb _ (by decide) (by decide) nothing
    · split
      · next stats =>
        have nothing : NothingToEscape env state (.http cb target req) :=
          ⟨stats ▸ cleanText_of_ascii (by decide) (by decide), fun start => absurd start notStart⟩
        exact pendingReq_handsGood running _ .stats cb _ (by decide) (by decide) nothing
      · exact handsGood_answer running cb _ ((goodBody_message_iff _).trans
          ((cleanText_append_iff (by decide) (by decide) target).trans
            ⟨fun clean => ⟨clean, fun start => absurd start notStart⟩, And.left⟩))

/-- A response with a body that is always good. -/
theorem respond_handsGood (env : MgmtEnv) (running : manager.aborted = false) (kind : ReqKind)
    (status : HttpStatus) {body : String} (good : GoodBody body) {condition : Prop}
    (holds : condition) : HandsGood manager (respond env kind status body manager) condition := by
  refine ⟨_, handed_respond env running kind status body, fun _ => holds, fun _ answer member => ?_⟩
  split at member
  · rw [List.mem_singleton.mp member]
    exact good
  · exact absurd member List.not_mem_nil

theorem onResMsg_handsGood (env : MgmtEnv) (state : MgmtState)
    (running : state.manager.aborted = false) (msg : ResMsg) :
    HandsGood state.manager (onResMsg env state.manager msg)
      (NothingToEscape env state (.handle msg)) := by
  cases msg with
  | startGeneration res =>
    cases res with
    | ok =>
      exact respond_handsGood env running .start .ok (goodBody_fixed (by decide) (by decide))
        trivial
    | error text =>
      refine ⟨_, handed_respond env running .start _ _, ?_⟩
      rw [NothingToEscape]
      by_cases reaches : (state.manager.cb .start).isSome ∧ env.enforce true = false
      · rw [if_pos reaches]
        refine iff_of_false (fun good => ?_) (not_not_intro reaches)
        have failed := good _ List.mem_cons_self
        exact failedStart_notGood text failed
      · rw [if_neg reaches]
        exact iff_of_true (fun _ member => absurd member List.not_mem_nil) reaches
  | stopGeneration res =>
    exact respond_handsGood env running .stop .ok (stopBody_good env.hz res) trivial
  | statsReport res =>
    exact respond_handsGood env running .stats .ok (statsBody_good res) trivial
  | generationReport report => exact handsGood_nothing rfl trivial

/-- One step of the manager. -/
theorem mgmtStep_handsGood {env : MgmtEnv} {state next : MgmtState} {label : MgmtLabel}
    (step : mgmtStep env state label = some next) :
    HandsGood state.manager next.manager (NothingToEscape env state label) := by
  unfold mgmtStep at step
  split at step
  · exact absurd step (by simp)
  · next notAborted =>
    have running : state.manager.aborted = false := by simpa using notAborted
    cases label with
    | http cb target req =>
      rw [← Option.some.inj step]
      exact onHttpRequest_handsGood env state running cb target req
    | handle msg =>
      rw [← Option.some.inj step]
      exact onResMsg_handsGood env state running msg
    | drain count =>
      obtain ⟨popped, -, rfl⟩ := Option.map_eq_some_iff.mp step
      exact handsGood_nothing rfl trivial

/-- A run from any state. -/
theorem mgmtRun_handsGood {env : MgmtEnv} {start final : MgmtState} {labels : List MgmtLabel}
    (run : (mgmtMachine env).run start labels = some final) :
    HandsGood start.manager final.manager
      ((mgmtMachine env).AllSteps (NothingToEscape env) start labels) := by
  induction labels generalizing start with
  | nil => exact handsGood_nothing (by rw [Option.some.inj run]) trivial
  | cons label rest inductionHypothesis =>
    obtain ⟨next, step, run⟩ := (Machine.run_cons_eq_some _).mp run
    obtain ⟨first, handed, goodFirst⟩ := mgmtStep_handsGood step
    obtain ⟨others, handed', goodOthers⟩ := inductionHypothesis run
    refine ⟨first ++ others, by rw [handed', handed, List.append_assoc], ?_⟩
    simp only [List.mem_append, or_imp, forall_and]
    rw [goodFirst, goodOthers]
    constructor
    · rintro ⟨nothing, all⟩ next' step'
      rw [Option.some.inj (step'.symm.trans step)]
      exact ⟨nothing, all⟩
    · intro all
      exact all next step

/-- In every run every body handed to a callback is a JSON document that says its message
exactly when no step puts a text between the quotes that has to be escaped there. -/
theorem responses_json_iff {env : MgmtEnv} {labels : List MgmtLabel} {final : MgmtState}
    (run : (mgmtMachine env).run {} labels = some final) :
    (∀ answer ∈ final.manager.handed, GoodBody answer.body) ↔
      (mgmtMachine env).AllSteps (NothingToEscape env) {} labels := by
  obtain ⟨added, handed, good⟩ := mgmtRun_handsGood run
  rw [handed, ← good]
  rfl

/-- A management that never aborts and has no valid configuration. -/
def steadyMgmt : MgmtEnv where
  enforce _ := false
  hz := 1000000
  parseCfg _ := .error "invalid"

theorem responses_json_unknownTarget : ∃ final,
    (mgmtMachine steadyMgmt).run {} [.http 0 "/nowhere" ""] = some final ∧
    ((∀ answer ∈ final.manager.handed, GoodBody answer.body) ↔
      (mgmtMachine steadyMgmt).AllSteps (NothingToEscape steadyMgmt) {}
        [.http 0 "/nowhere" ""]) :=
  ⟨_, rfl, responses_json_iff
    (show (mgmtMachine steadyMgmt).run {} [.http 0 "/nowhere" ""] = some _ from rfl)⟩

/-- A target with a quote in it. -/
theorem quotedTarget_notGood : ∃ final,
    (mgmtMachine steadyMgmt).run {} [.http 0 "/a\"b" ""] = some final ∧
    ∃ answer ∈ final.manager.handed, ¬ GoodBody answer.body := by
  refine ⟨_, rfl, ⟨some 0, .notFound, makeResponseBody "Invalid target: /a\"b"⟩, ?_, ?_⟩
  · exact List.mem_cons_self
  · rw [goodBody_message_iff]
    have member : UInt8.ofNat quote.toNat ∈ cxxBytes "Invalid target: /a\"b" := by decide
    exact not_cleanText_of_mem member (by decide) (by decide)

end TrafficGenerator
