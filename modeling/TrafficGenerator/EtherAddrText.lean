/-
This file models `put/ether_addr.cpp` with the effects of its parser: the action
stores each number through an index the six parsers share, before it is known
whether the number or the whole text is accepted. The stores stay inside the
address whatever the text is, because each parser runs its action at most once;
what is accepted is what the parser without effects accepts, which is six
hexadecimal numerals with single colons in between; and the text an address is
formatted to is such a text.
-/

import TrafficGenerator.ActionParsers
import TrafficGenerator.ConfigReader
import TrafficGenerator.Numerals

namespace TrafficGenerator

open ActionParsers Numerals

/-! ### The parser with its effects -/

/-- A store through `addr_bytes[index]`; one outside of it is not a store to the address. -/
def EtherAddr.store (addr : EtherAddr) (index : ℕ) (byte : UInt8) : EtherAddr :=
  ⟨addr.addrBytes.set index byte, List.length_set.trans addr.six⟩

/-- The variables the action captures, and the indices of the stores so far. -/
structure EtherFill where
  i : ℕ
  ret : EtherAddr
  stores : List ℕ

/-- `ret.addr_bytes[i++] = val`, which keeps the low byte of `val`. -/
def EtherFill.store (fill : EtherFill) (val : ℕ) : EtherFill :=
  { i := fill.i + 1
    ret := fill.ret.store fill.i (UInt8.ofNat val)
    stores := fill.stores ++ [fill.i] }

/-- The action `fill`; `_pass` is set before the store. -/
def fillByte (val : ℕ) (fill : EtherFill) : Bool × EtherFill := (decide (val ≤ 255), fill.store val)

/-- `bx3::hex`: all the digits there are, at least one; it fails where the number is too large
for `unsigned int`. -/
def readHex (text : List Char) : Option (ℕ × List Char) :=
  if front hexDigit text = [] ∨ 2 ^ 32 ≤ value hexDigit 16 (front hexDigit text) then none
  else some (value hexDigit 16 (front hexDigit text), behind hexDigit text)

/-- `bx3::hex[fill]`. -/
def hexFill : Parser EtherFill := act readHex fillByte

/-- The parser of the whole text. -/
def etherParser : Parser EtherFill :=
  hexFill |>.seq (lit ':') |>.seq hexFill |>.seq (lit ':') |>.seq hexFill |>.seq (lit ':')
    |>.seq hexFill |>.seq (lit ':') |>.seq hexFill |>.seq (lit ':') |>.seq hexFill |>.seq eoi

/-- `parse_ether_addr`; the address starts with whatever is in its memory. -/
def readEtherAddr (memory : EtherAddr) (text : String) : Option EtherAddr × EtherFill :=
  let outcome := etherParser text.toList ⟨0, memory, []⟩
  (outcome.1.map fun _ => outcome.2.ret, outcome.2)

/-- The rest of the parser: some numbers, each behind a colon, and the end. -/
def moreHexFill : (count : ℕ) → Parser EtherFill
  | 0 => eoi
  | count + 1 => (lit ':').seq (hexFill.seq (moreHexFill count))

theorem etherParser_eq : etherParser = hexFill.seq (moreHexFill 5) := by
  unfold etherParser
  simp only [Parser.seq_assoc, moreHexFill]

/-! ### Where the action stores -/

/-- At most `count` stores, at the index and the ones after it. -/
def StoresFrom (count : ℕ) (before after : EtherFill) : Prop := ∃ done ≤ count,
  after.i = before.i + done ∧ after.stores = before.stores ++ List.range' before.i done

theorem storesFrom_refl (count : ℕ) (fill : EtherFill) : StoresFrom count fill fill :=
  ⟨0, Nat.zero_le count, rfl, (List.append_nil _).symm⟩

theorem StoresFrom.mono {count more : ℕ} {before after : EtherFill}
    (stores : StoresFrom count before after) (order : count ≤ more) :
    StoresFrom more before after := by
  obtain ⟨done, most, rest⟩ := stores
  exact ⟨done, most.trans order, rest⟩

theorem StoresFrom.append {count more : ℕ} {before middle after : EtherFill}
    (stores : StoresFrom count before middle) (stores' : StoresFrom more middle after) :
    StoresFrom (count + more) before after := by
  obtain ⟨done, most, index, list⟩ := stores
  obtain ⟨done', most', index', list'⟩ := stores'
  refine ⟨done + done', Nat.add_le_add most most', ?_, ?_⟩
  · rw [index', index, Nat.add_assoc]
  · rw [list', list, index, List.append_assoc, List.range'_append_1]

theorem hexFill_stores : hexFill.Relates (StoresFrom 1) :=
  relates_act (storesFrom_refl 1) fun _ _ => ⟨1, le_rfl, rfl, rfl⟩

/-- Each of the parsers that follow stores once, where the one before it stopped. -/
theorem moreHexFill_stores (count : ℕ) : (moreHexFill count).Relates (StoresFrom count) := by
  induction count with
  | zero => exact relates_eoi (storesFrom_refl 0)
  | succ count inductionHypothesis =>
    have one : (hexFill.seq (moreHexFill count)).Relates (StoresFrom (1 + count)) :=
      relates_seq hexFill_stores inductionHypothesis
        (fun stores => stores.mono (Nat.le_add_right 1 count)) StoresFrom.append
    refine relates_seq (relates_lit ':' (storesFrom_refl 0)) one
      (fun stores => stores.mono (Nat.zero_le _)) fun none stores => ?_
    exact (none.append stores).mono (by omega)

theorem etherParser_stores : etherParser.Relates (StoresFrom 6) := by
  rw [etherParser_eq]
  exact relates_seq hexFill_stores (moreHexFill_stores 5) (fun stores => stores.mono (by decide))
    StoresFrom.append

/-- The bytes are stored from the first one on, and no more than there are. -/
theorem readEtherAddr_stores (memory : EtherAddr) (text : String) :
    ∃ done ≤ 6, (readEtherAddr memory text).2.stores = List.range done := by
  have stores := etherParser_stores text.toList ⟨0, memory, []⟩
  unfold readEtherAddr
  generalize etherParser text.toList ⟨0, memory, []⟩ = outcome at *
  obtain ⟨done, most, -, stores⟩ := stores
  rw [List.nil_append, ← List.range_eq_range'] at stores
  exact ⟨done, most, stores⟩

/-! ### What the action stores -/

theorem parseHex_eq (text : List Char) : parseHex text =
    if front hexDigit text = [] ∨ 255 < value hexDigit 16 (front hexDigit text) then none
    else some (UInt8.ofNat (value hexDigit 16 (front hexDigit text)), behind hexDigit text) := by
  have digits : (front hexDigit text).filterMap hexDigit = [] ↔ front hexDigit text = [] := by
    refine ⟨fun none => ?_, fun none => by rw [none, List.filterMap_nil]⟩
    refine List.eq_nil_iff_forall_not_mem.mpr fun char member => ?_
    have isDigit := digits_front char member
    rw [List.filterMap_eq_nil_iff.mp none char member] at isDigit
    exact Bool.false_ne_true isDigit
  exact if_congr (or_congr digits Iff.rfl) rfl rfl

/-- The parser with its action takes the numbers the parser without effects takes. -/
theorem hexFill_eq_some_iff {text rest : List Char} {fill final : EtherFill} :
    hexFill text fill = (some rest, final) ↔
      ∃ byte, parseHex text = some (byte, rest) ∧ final = fill.store byte.toNat := by
  unfold hexFill
  rw [act_eq_some_iff, parseHex_eq, readHex]
  generalize value hexDigit 16 (front hexDigit text) = val
  constructor
  · rintro ⟨_, read, pass, rfl⟩
    split at read
    · exact absurd read (by simp)
    · next accepted =>
      obtain ⟨rfl, rfl⟩ := Prod.mk.inj (Option.some.inj read)
      have small : val ≤ 255 := of_decide_eq_true pass
      have fits : ¬ (front hexDigit text = [] ∨ 255 < val) := by
        rintro (none | large)
        · exact accepted (Or.inl none)
        · omega
      refine ⟨UInt8.ofNat val, if_neg fits, ?_⟩
      rw [UInt8.toNat_ofNat', Nat.mod_eq_of_lt (by omega)]
      rfl
  · rintro ⟨byte, parsed, rfl⟩
    split at parsed
    · exact absurd parsed (by simp)
    · next accepted =>
      obtain ⟨rfl, rfl⟩ := Prod.mk.inj (Option.some.inj parsed)
      have small : val ≤ 255 := by omega
      have fits : ¬ (front hexDigit text = [] ∨ 2 ^ 32 ≤ val) := by
        rintro (none | large)
        · exact accepted (Or.inl none)
        · omega
      refine ⟨val, if_neg fits, decide_eq_true small, ?_⟩
      rw [UInt8.toNat_ofNat', Nat.mod_eq_of_lt (by omega)]
      rfl

/-- The stores of several bytes. -/
def EtherFill.storeAll (fill : EtherFill) (bytes : List UInt8) : EtherFill :=
  bytes.foldl (fun fill byte => fill.store byte.toNat) fill

theorem moreHexFill_eq_some_iff {count : ℕ} {text rest : List Char} {fill final : EtherFill} :
    moreHexFill count text fill = (some rest, final) ↔ rest = [] ∧
      ∃ bytes, parseMoreHex count text = some (bytes, []) ∧ final = fill.storeAll bytes := by
  induction count generalizing text fill with
  | zero =>
    rw [moreHexFill, eoi_eq_some_iff]
    constructor
    · rintro ⟨rfl, rfl, rfl⟩
      exact ⟨rfl, [], rfl, rfl⟩
    · rintro ⟨rfl, bytes, parsed, rfl⟩
      obtain ⟨rfl, rfl⟩ := Prod.mk.inj (Option.some.inj parsed)
      exact ⟨rfl, rfl, rfl⟩
  | succ count inductionHypothesis =>
    rw [moreHexFill, Parser.seq_eq_some_iff]
    simp only [Parser.seq_eq_some_iff, lit_eq_some_iff, hexFill_eq_some_iff, inductionHypothesis]
    constructor
    · rintro ⟨_, _, ⟨rfl, rfl⟩, _, _, ⟨byte, one, rfl⟩, rfl, bytes, more, rfl⟩
      refine ⟨rfl, byte :: bytes, ?_, rfl⟩
      simp only [parseMoreHex, parseColonHex, one, more, Option.bind_eq_bind, Option.bind_some]
    · rintro ⟨rfl, bytes, parsed, rfl⟩
      simp only [parseMoreHex, Option.bind_eq_bind, Option.bind_eq_some_iff] at parsed
      obtain ⟨⟨byte, behindByte⟩, one, ⟨others, left⟩, more, same⟩ := parsed
      obtain ⟨rfl, rfl⟩ := Prod.mk.inj (Option.some.inj same)
      unfold parseColonHex at one
      split at one
      · exact ⟨_, _, ⟨rfl, rfl⟩, _, _, ⟨byte, one, rfl⟩, rfl, others, more, rfl⟩
      · exact absurd one (by simp)

theorem etherParser_eq_some_iff {text rest : List Char} {fill final : EtherFill} :
    etherParser text fill = (some rest, final) ↔ rest = [] ∧
      ∃ bytes, parseEtherBytes text = some bytes ∧ final = fill.storeAll bytes := by
  rw [etherParser_eq, Parser.seq_eq_some_iff]
  simp only [hexFill_eq_some_iff, moreHexFill_eq_some_iff, parseEtherBytes, Option.bind_eq_bind,
    Option.bind_eq_some_iff]
  constructor
  · rintro ⟨_, _, ⟨byte, one, rfl⟩, rfl, bytes, more, rfl⟩
    exact ⟨rfl, byte :: bytes, ⟨_, one, _, more, if_pos rfl⟩, rfl⟩
  · rintro ⟨rfl, _, ⟨⟨byte, behindByte⟩, one, ⟨bytes, left⟩, more, last⟩, rfl⟩
    split at last
    · next ends =>
      obtain rfl := Option.some.inj last
      dsimp only at ends
      exact ⟨_, _, ⟨byte, one, rfl⟩, rfl, bytes, ends ▸ more, rfl⟩
    · exact absurd last (by simp)

/-- Stores one after the other fill the bytes from the index on. -/
theorem storeAll_addrBytes {fill : EtherFill} {bytes : List UInt8}
    (room : fill.i + bytes.length ≤ 6) :
    (fill.storeAll bytes).ret.addrBytes = fill.ret.addrBytes.take fill.i ++ bytes ++
      fill.ret.addrBytes.drop (fill.i + bytes.length) := by
  induction bytes generalizing fill with
  | nil =>
    show fill.ret.addrBytes = _
    rw [List.append_nil]
    exact (List.take_append_drop fill.i _).symm
  | cons byte rest inductionHypothesis =>
    rw [List.length_cons] at room
    have six := fill.ret.six
    have later : (fill.store byte.toNat).i + rest.length ≤ 6 := by
      show fill.i + 1 + rest.length ≤ 6
      omega
    have stored : (fill.store byte.toNat).ret.addrBytes = fill.ret.addrBytes.set fill.i byte := by
      show fill.ret.addrBytes.set fill.i (UInt8.ofNat byte.toNat) = _
      rw [UInt8.ofNat_toNat]
    have index : (fill.store byte.toNat).i = fill.i + 1 := rfl
    have front : (fill.ret.addrBytes.set fill.i byte).take (fill.i + 1) =
        fill.ret.addrBytes.take fill.i ++ [byte] := by
      rw [List.take_add_one, List.take_set, List.set_eq_of_length_le (List.length_take_le _ _),
        List.getElem?_set_self (by omega)]
      rfl
    have back : (fill.ret.addrBytes.set fill.i byte).drop (fill.i + 1 + rest.length) =
        fill.ret.addrBytes.drop (fill.i + (rest.length + 1)) := by
      rw [List.drop_set_of_lt (by omega), Nat.add_assoc, Nat.add_comm 1]
    have whole := inductionHypothesis later
    rw [stored, index, front, back] at whole
    show ((fill.store byte.toNat).storeAll rest).ret.addrBytes = _
    rw [whole, List.length_cons, List.append_assoc _ [byte], List.singleton_append]

theorem storeAll_whole {memory : EtherAddr} {bytes : List UInt8} (six : bytes.length = 6) :
    (EtherFill.storeAll ⟨0, memory, []⟩ bytes).ret.addrBytes = bytes := by
  have stored := storeAll_addrBytes (show (EtherFill.mk 0 memory []).i + bytes.length ≤ 6 by
    show 0 + bytes.length ≤ 6
    omega)
  rw [stored, Nat.zero_add, six, List.take_zero, List.nil_append,
    List.drop_eq_nil_of_le (le_of_eq memory.six), List.append_nil]

theorem EtherAddr.eq_of_addrBytes {addr addr' : EtherAddr}
    (same : addr.addrBytes = addr'.addrBytes) : addr = addr' := by
  obtain ⟨bytes, six⟩ := addr
  obtain ⟨bytes', six'⟩ := addr'
  obtain rfl : bytes = bytes' := same
  rfl

theorem parseEtherAddr_eq_some_iff {text : String} {addr : EtherAddr} :
    parseEtherAddr text = some addr ↔ parseEtherBytes text.toList = some addr.addrBytes := by
  constructor
  · intro parsed
    unfold parseEtherAddr at parsed
    split at parsed
    · next bytes run => rw [run, ← Option.some.inj parsed]
    · exact absurd parsed (by simp)
  · intro run
    obtain ⟨addr', parsed, same⟩ := parseEtherAddr_of_bytes run
    rw [parsed, EtherAddr.eq_of_addrBytes same]

theorem readEtherAddr_eq_some_iff {memory addr : EtherAddr} {text : String} :
    (readEtherAddr memory text).1 = some addr ↔
      parseEtherBytes text.toList = some addr.addrBytes := by
  have accepts : ∀ rest final, etherParser text.toList ⟨0, memory, []⟩ = (some rest, final) ↔ _ :=
    fun _ _ => etherParser_eq_some_iff
  unfold readEtherAddr
  generalize etherParser text.toList ⟨0, memory, []⟩ = outcome at *
  obtain ⟨result, fill⟩ := outcome
  constructor
  · intro read
    obtain ⟨rest, rfl, rfl⟩ := Option.map_eq_some_iff.mp read
    obtain ⟨-, bytes, parsed, rfl⟩ := (accepts rest fill).mp rfl
    rw [parsed, storeAll_whole (parseEtherBytes_length parsed)]
  · intro parsed
    obtain ⟨rfl, rfl⟩ := Prod.mk.inj ((accepts [] _).mpr ⟨rfl, _, parsed, rfl⟩)
    exact congrArg some (EtherAddr.eq_of_addrBytes (storeAll_whole addr.six))

/-- With or without effects, the same texts are read as the same addresses. -/
theorem readEtherAddr_eq (memory : EtherAddr) (text : String) :
    (readEtherAddr memory text).1 = parseEtherAddr text :=
  Option.ext fun _ => readEtherAddr_eq_some_iff.trans parseEtherAddr_eq_some_iff.symm

/-! ### What is accepted -/

/-- Six hexadecimal numerals of a byte each, with single colons in between. -/
structure SixNumerals (text : String) (numerals : List (List Char)) : Prop where
  six : numerals.length = 6
  numeral : ∀ digits ∈ numerals, Numeral hexDigit digits
  byte : ∀ digits ∈ numerals, value hexDigit 16 digits ≤ 255
  written : text.toList = [':'].intercalate numerals

theorem parseHex_eq_some_iff {text rest : List Char} {byte : UInt8} :
    parseHex text = some (byte, rest) ↔ ∃ digits, text = digits ++ rest ∧
      Numeral hexDigit digits ∧ value hexDigit 16 digits = byte.toNat ∧ Stops hexDigit rest := by
  rw [parseHex_eq]
  constructor
  · intro parsed
    split at parsed
    · exact absurd parsed (by simp)
    · next accepted =>
      obtain ⟨rfl, rfl⟩ := Prod.mk.inj (Option.some.inj parsed)
      rw [not_or, Nat.not_lt] at accepted
      refine ⟨_, (front_append_behind text).symm, ⟨accepted.1, digits_front⟩, ?_,
        stops_behind text⟩
      rw [UInt8.toNat_ofNat', Nat.mod_eq_of_lt (by omega)]
  · rintro ⟨digits, rfl, numeral, worth, stops⟩
    rw [front_append numeral.2 stops, behind_append numeral.2 stops, worth, UInt8.ofNat_toNat]
    have small := byte.toNat_lt
    refine if_neg ?_
    rintro (none | large)
    · exact numeral.1 none
    · omega

theorem stops_colon (numerals : List (List Char)) :
    Stops hexDigit (numerals.flatMap fun digits => ':' :: digits) := by
  cases numerals with
  | nil => exact stops_nil
  | cons first rest =>
    intro char member
    rw [← Option.some.inj member]
    decide

theorem parseMoreHex_eq_some_iff {count : ℕ} {text : List Char} {bytes : List UInt8} :
    parseMoreHex count text = some (bytes, []) ↔ ∃ numerals : List (List Char),
      numerals.length = count ∧ (∀ digits ∈ numerals, Numeral hexDigit digits) ∧
        numerals.map (value hexDigit 16) = bytes.map UInt8.toNat ∧
          text = numerals.flatMap fun digits => ':' :: digits := by
  induction count generalizing text bytes with
  | zero =>
    rw [parseMoreHex]
    constructor
    · intro parsed
      obtain ⟨rfl, rfl⟩ := Prod.mk.inj (Option.some.inj parsed)
      exact ⟨[], rfl, fun _ member => absurd member List.not_mem_nil, rfl, rfl⟩
    · rintro ⟨numerals, none, -, worth, rfl⟩
      obtain rfl := List.eq_nil_of_length_eq_zero none
      obtain rfl := List.map_eq_nil_iff.mp worth.symm
      rfl
  | succ count inductionHypothesis =>
    simp only [parseMoreHex, Option.bind_eq_bind, Option.bind_eq_some_iff]
    constructor
    · rintro ⟨⟨byte, behindByte⟩, one, ⟨others, left⟩, more, same⟩
      obtain ⟨rfl, rfl⟩ := Prod.mk.inj (Option.some.inj same)
      obtain ⟨numerals, length, numeral, worth, written⟩ := inductionHypothesis.mp more
      unfold parseColonHex at one
      split at one
      · obtain ⟨digits, rfl, numeral', worth', -⟩ := parseHex_eq_some_iff.mp one
        dsimp only at written
        refine ⟨digits :: numerals, by rw [List.length_cons, length],
          List.forall_mem_cons.mpr ⟨numeral', numeral⟩, ?_, ?_⟩
        · rw [List.map_cons, List.map_cons, worth', worth]
        · rw [written, List.flatMap_cons, List.cons_append]
      · exact absurd one (by simp)
    · rintro ⟨numerals, length, numeral, worth, rfl⟩
      cases numerals with
      | nil => exact absurd length (by simp)
      | cons digits rest =>
        obtain ⟨numeral', numeral⟩ := List.forall_mem_cons.mp numeral
        cases bytes with
        | nil => exact absurd worth (by simp)
        | cons byte others =>
          obtain ⟨worth', worth⟩ := List.cons.inj worth
          refine ⟨(byte, rest.flatMap fun digits => ':' :: digits), ?_, (others, []), ?_, rfl⟩
          · exact parseHex_eq_some_iff.mpr ⟨digits, rfl, numeral', worth', stops_colon rest⟩
          · exact inductionHypothesis.mpr ⟨rest, Nat.succ.inj length, numeral, worth, rfl⟩

/-- What is joined by colons is the first piece and the others, each behind a colon. -/
theorem intercalate_colon (first : List Char) (rest : List (List Char)) :
    [':'].intercalate (first :: rest) = first ++ rest.flatMap fun digits => ':' :: digits := by
  induction rest generalizing first with
  | nil => rw [List.intercalate_singleton, List.flatMap_nil, List.append_nil]
  | cons second rest inductionHypothesis =>
    rw [List.intercalate_cons_cons, inductionHypothesis, List.flatMap_cons, List.append_assoc]
    rfl

theorem parseEtherBytes_eq_some_iff {text : String} {bytes : List UInt8} :
    parseEtherBytes text.toList = some bytes ↔ ∃ numerals, SixNumerals text numerals ∧
      numerals.map (value hexDigit 16) = bytes.map UInt8.toNat := by
  simp only [parseEtherBytes, Option.bind_eq_bind, Option.bind_eq_some_iff]
  constructor
  · rintro ⟨⟨byte, behindByte⟩, one, ⟨others, left⟩, more, last⟩
    split at last
    · next ends =>
      obtain rfl := Option.some.inj last
      dsimp only at ends more
      rw [ends] at more
      obtain ⟨digits, text', numeral', worth', -⟩ := parseHex_eq_some_iff.mp one
      obtain ⟨numerals, length, numeral, worth, rfl⟩ := parseMoreHex_eq_some_iff.mp more
      have worths : (digits :: numerals).map (value hexDigit 16) =
          (byte :: others).map UInt8.toNat := by
        rw [List.map_cons, List.map_cons, worth', worth]
      refine ⟨digits :: numerals, ⟨by rw [List.length_cons, length],
        List.forall_mem_cons.mpr ⟨numeral', numeral⟩, fun digits among => ?_, ?_⟩, worths⟩
      · have member := List.mem_map_of_mem (f := value hexDigit 16) among
        rw [worths] at member
        obtain ⟨byte, -, same⟩ := List.mem_map.mp member
        have small := byte.toNat_lt
        omega
      · rw [text', intercalate_colon]
    · exact absurd last (by simp)
  · rintro ⟨numerals, ⟨six, numeral, -, written⟩, worth⟩
    cases numerals with
    | nil => exact absurd six (by decide)
    | cons digits rest =>
      obtain ⟨numeral', numeral⟩ := List.forall_mem_cons.mp numeral
      cases bytes with
      | nil => exact absurd worth (by simp)
      | cons byte others =>
        obtain ⟨worth', worth⟩ := List.cons.inj worth
        rw [written, intercalate_colon]
        refine ⟨(byte, rest.flatMap fun digits => ':' :: digits), ?_, (others, []), ?_, if_pos rfl⟩
        · exact parseHex_eq_some_iff.mpr ⟨digits, rfl, numeral', worth', stops_colon rest⟩
        · exact parseMoreHex_eq_some_iff.mpr ⟨rest, Nat.succ.inj six, numeral, worth, rfl⟩

/-! ### The text of an address -/

/-- `{:02x}`: two hexadecimal digits, with a zero in front where one is enough. -/
def hexByteText (byte : UInt8) : List Char := (Nat.toDigits 16 byte.toNat).leftpad 2 '0'

/-- `fmt::formatter<rte_ether_addr>::format`. -/
def formatEtherAddr (addr : EtherAddr) : String :=
  String.ofList ([':'].intercalate (addr.addrBytes.map hexByteText))

theorem hexDigit_digitChar : ∀ digit < 16, hexDigit digit.digitChar = some digit := by decide

theorem value_hexByteText (byte : UInt8) : value hexDigit 16 (hexByteText byte) = byte.toNat :=
  (value_leftpad (by decide) 2 _).trans (value_toDigits (by decide) hexDigit_digitChar byte.toNat)

theorem numeral_hexByteText (byte : UInt8) : Numeral hexDigit (hexByteText byte) :=
  numeral_leftpad (by decide) 2 (numeral_toDigits (by decide) hexDigit_digitChar byte.toNat)

/-- An address is written as six numerals that are worth its bytes. -/
theorem formatEtherAddr_numerals (addr : EtherAddr) :
    SixNumerals (formatEtherAddr addr) (addr.addrBytes.map hexByteText) where
  six := (List.length_map _).trans addr.six
  numeral digits member := by
    obtain ⟨byte, -, rfl⟩ := List.mem_map.mp member
    exact numeral_hexByteText byte
  byte digits member := by
    obtain ⟨byte, -, rfl⟩ := List.mem_map.mp member
    rw [value_hexByteText]
    exact Nat.le_of_lt_succ byte.toNat_lt
  written := String.toList_ofList

theorem readEtherAddr_iff {memory addr : EtherAddr} {text : String} :
    (readEtherAddr memory text).1 = some addr ↔ ∃ numerals, SixNumerals text numerals ∧
      numerals.map (value hexDigit 16) = addr.addrBytes.map UInt8.toNat :=
  readEtherAddr_eq_some_iff.trans parseEtherBytes_eq_some_iff

/-- Six numerals of a byte each are worth the bytes of an address. -/
theorem SixNumerals.exists_addr {text : String} {numerals : List (List Char)}
    (six : SixNumerals text numerals) : ∃ addr : EtherAddr,
      numerals.map (value hexDigit 16) = addr.addrBytes.map UInt8.toNat := by
  refine ⟨⟨numerals.map fun digits => UInt8.ofNat (value hexDigit 16 digits),
    (List.length_map _).trans six.six⟩, ?_⟩
  rw [List.map_map]
  refine List.map_congr_left fun digits member => ?_
  have small := six.byte digits member
  show _ = (UInt8.ofNat _).toNat
  rw [UInt8.toNat_ofNat', Nat.mod_eq_of_lt (by omega)]

theorem SixNumerals.exists_parsed {text : String} {numerals : List (List Char)}
    (six : SixNumerals text numerals) : ∃ addr, parseEtherAddr text = some addr := by
  obtain ⟨addr, worth⟩ := six.exists_addr
  exact ⟨addr, parseEtherAddr_eq_some_iff.mpr (parseEtherBytes_eq_some_iff.mpr
    ⟨numerals, six, worth⟩)⟩

/-- The parser stores inside the address only, takes exactly six hexadecimal numerals of a byte
each between single colons, with the bytes they are worth, and takes the text of an address as
that address. -/
theorem readEtherAddr_exact (memory : EtherAddr) :
    (∀ text, ∀ index ∈ (readEtherAddr memory text).2.stores, index < 6) ∧
      (∀ text, (∃ addr, (readEtherAddr memory text).1 = some addr) ↔
        ∃ numerals, SixNumerals text numerals) ∧
      (∀ text addr, (readEtherAddr memory text).1 = some addr ↔
        ∃ numerals, SixNumerals text numerals ∧
          numerals.map (value hexDigit 16) = addr.addrBytes.map UInt8.toNat) ∧
      ∀ addr, (readEtherAddr memory (formatEtherAddr addr)).1 = some addr := by
  refine ⟨fun text index member => ?_, fun text => ?_, fun text addr => readEtherAddr_iff,
    fun addr => readEtherAddr_iff.mpr ⟨_, formatEtherAddr_numerals addr, ?_⟩⟩
  · obtain ⟨done, most, stores⟩ := readEtherAddr_stores memory text
    rw [stores] at member
    exact Nat.lt_of_lt_of_le (List.mem_range.mp member) most
  · constructor
    · rintro ⟨addr, read⟩
      obtain ⟨numerals, six, -⟩ := readEtherAddr_iff.mp read
      exact ⟨numerals, six⟩
    · rintro ⟨numerals, six⟩
      rw [readEtherAddr_eq]
      exact six.exists_parsed
  · rw [List.map_map]
    exact List.map_congr_left fun byte _ => value_hexByteText byte

end TrafficGenerator
