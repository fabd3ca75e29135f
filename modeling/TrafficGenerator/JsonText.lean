/-
This file is the grammar of JSON texts: which sequences of characters are a JSON
document, and what the document says. It is the grammar of the standard, white
space and escapes included; a document in bytes is the UTF-8 encoding of one in
characters.

A string literal decodes character by character, and never to more characters
than it has; to as many only when it has no escape, and then to itself. That is
what tells a text that was put between two quotes as it is from one that was
escaped: the text is found again only if none of its characters means anything
else there.
-/

import Mathlib.Data.List.Basic
import Mathlib.Algebra.Order.Ring.Nat

namespace JsonText

/-! ### Documents -/

/-- What a JSON document says. Numbers are kept as their literals. -/
inductive Json where
  | null
  | bool (value : Bool)
  | number (literal : List Char)
  | string (text : List Char)
  | array (items : List Json)
  | object (members : List (List Char × Json))

/-! ### Characters -/

/-- White space. -/
def IsSpace (char : Char) : Prop := char ∈ [' ', '\t', '\n', '\r']

def Spaces (chars : List Char) : Prop := ∀ char ∈ chars, IsSpace char

theorem spaces_nil : Spaces [] := fun _ member => absurd member List.not_mem_nil

theorem spaces_blank : Spaces [' '] := fun _ member =>
  List.mem_singleton.mp member ▸ List.mem_cons_self

/-- The quote that ends a string literal. -/
def quote : Char := '"'

/-- The backslash that begins an escape. -/
def backslash : Char := '\\'

/-- A character that stands for itself in a string literal. -/
def Plain (char : Char) : Prop := ' ' ≤ char ∧ char ≠ quote ∧ char ≠ backslash

/-- A text of such characters. -/
def PlainText (chars : List Char) : Prop := ∀ char ∈ chars, Plain char

instance (char : Char) : Decidable (IsSpace char) := inferInstanceAs (Decidable (_ ∈ _))

instance (char : Char) : Decidable (Plain char) := inferInstanceAs (Decidable (_ ∧ _))

-- Named, so that no instance that runs through all characters is taken.
instance (chars : List Char) : Decidable (PlainText chars) := List.decidableBAll Plain chars

/-- The escapes of one letter, with the character each stands for. -/
def escapes : List (Char × Char) :=
  [(quote, quote), (backslash, backslash), ('/', '/'), ('b', Char.ofNat 8), ('f', Char.ofNat 12),
    ('n', '\n'), ('r', '\r'), ('t', '\t')]

/-- The value of a hexadecimal digit. -/
def hexValue (char : Char) : Option ℕ :=
  if '0' ≤ char ∧ char ≤ '9' then some (char.toNat - 48)
  else if 'a' ≤ char ∧ char ≤ 'f' then some (char.toNat - 87)
  else if 'A' ≤ char ∧ char ≤ 'F' then some (char.toNat - 55)
  else none

/-- The code unit of four hexadecimal digits. -/
def codeUnit (digits : List Char) : Option ℕ := do
  let values ← digits.mapM hexValue
  if values.length = 4 then some (values.foldl (fun code digit => 16 * code + digit) 0) else none

/-- The character of one code unit; one half of a surrogate pair alone stands for none. -/
def unitChar (code : ℕ) : Char :=
  if 0xD800 ≤ code ∧ code < 0xE000 then Char.ofNat 0xFFFD else Char.ofNat code

/-- The character of a surrogate pair. -/
def pairChar (high low : ℕ) : Char :=
  Char.ofNat (0x10000 + 0x400 * (high - 0xD800) + (low - 0xDC00))

/-! ### String literals -/

/-- What is between the quotes of a string literal, and what it decodes to. -/
inductive StringText : List Char → List Char → Prop
  | nil : StringText [] []
  | plain {raw text : List Char} (char : Char) (itself : Plain char) (rest : StringText raw text) :
      StringText (char :: raw) (char :: text)
  | escape {raw text : List Char} (letter char : Char) (known : (letter, char) ∈ escapes)
      (rest : StringText raw text) : StringText (backslash :: letter :: raw) (char :: text)
  | unit {raw text : List Char} (digits : List Char) (code : ℕ)
      (known : codeUnit digits = some code) (rest : StringText raw text) :
      StringText (backslash :: 'u' :: digits ++ raw) (unitChar code :: text)
  | pair {raw text : List Char} (digits digits' : List Char) (high low : ℕ)
      (known : codeUnit digits = some high) (known' : codeUnit digits' = some low)
      (first : 0xD800 ≤ high ∧ high < 0xDC00) (second : 0xDC00 ≤ low ∧ low < 0xE000)
      (rest : StringText raw text) :
      StringText (backslash :: 'u' :: digits ++ backslash :: 'u' :: digits' ++ raw)
        (pairChar high low :: text)

/-- Characters that stand for themselves decode to themselves. -/
theorem StringText.of_plain {text : List Char} (itself : PlainText text) :
    StringText text text := by
  induction text with
  | nil => exact .nil
  | cons char rest inductionHypothesis =>
    exact .plain char (itself char List.mem_cons_self)
      (inductionHypothesis fun other member => itself other (List.mem_cons_of_mem _ member))

/-- Decoding does not lengthen a literal. -/
theorem StringText.length_le {raw text : List Char} (decodes : StringText raw text) :
    text.length ≤ raw.length := by
  induction decodes with
  | nil => exact le_rfl
  | plain char _ _ inductionHypothesis => exact Nat.succ_le_succ inductionHypothesis
  | escape letter char _ _ inductionHypothesis =>
    exact Nat.succ_le_succ (Nat.le_succ_of_le inductionHypothesis)
  | unit digits code _ _ inductionHypothesis =>
    simp only [List.length_cons, List.cons_append, List.length_append]
    omega
  | pair digits digits' high low _ _ _ _ _ inductionHypothesis =>
    simp only [List.length_cons, List.cons_append, List.length_append]
    omega

/-- A literal that decodes to as many characters as it has is its own text. -/
theorem StringText.eq_of_length_le {raw text : List Char} (decodes : StringText raw text)
    (long : raw.length ≤ text.length) : raw = text ∧ PlainText text := by
  induction decodes with
  | nil => exact ⟨rfl, fun _ member => absurd member List.not_mem_nil⟩
  | plain char itself rest inductionHypothesis =>
    obtain ⟨same, all⟩ := inductionHypothesis (Nat.le_of_succ_le_succ long)
    refine ⟨by rw [same], fun other member => ?_⟩
    rcases List.mem_cons.mp member with rfl | later
    · exact itself
    · exact all other later
  | escape letter char _ rest _ =>
    have short := rest.length_le
    simp only [List.length_cons] at long
    omega
  | unit digits code _ rest _ =>
    have short := rest.length_le
    simp only [List.length_cons, List.cons_append, List.length_append] at long
    omega
  | pair digits digits' high low _ _ _ _ rest _ =>
    have short := rest.length_le
    simp only [List.length_cons, List.cons_append, List.length_append] at long
    omega

/-- Where a literal begins with characters that stand for themselves, up to the quote, it is
those characters. -/
theorem StringText.eq_of_append_quote {raw text plain after after' : List Char}
    (decodes : StringText raw text) (itself : PlainText plain)
    (same : raw ++ quote :: after = plain ++ quote :: after') : raw = plain ∧ after = after' := by
  induction decodes generalizing plain with
  | nil =>
    cases plain with
    | nil => exact ⟨rfl, (List.cons.inj same).2⟩
    | cons char rest =>
      exact absurd (List.cons.inj same).1.symm (itself char List.mem_cons_self).2.1
  | plain char itself' rest inductionHypothesis =>
    cases plain with
    | nil => exact absurd (List.cons.inj same).1 itself'.2.1
    | cons other others =>
      obtain ⟨rfl, others'⟩ := List.cons.inj same
      obtain ⟨rfl, rfl⟩ := inductionHypothesis
        (fun char member => itself char (List.mem_cons_of_mem _ member)) others'
      exact ⟨rfl, rfl⟩
  | escape | unit | pair =>
    cases plain with
    | nil => exact absurd (List.cons.inj same).1 (by decide)
    | cons other others =>
      exact absurd (List.cons.inj same).1.symm (itself other List.mem_cons_self).2.2

/-! ### Numbers -/

def Digits (chars : List Char) : Prop := chars ≠ [] ∧ ∀ char ∈ chars, char.isDigit

/-- The part of a number before the fraction: no leading zero, unless it is the only digit. -/
def Whole (chars : List Char) : Prop := Digits chars ∧ (chars.head? = some '0' → chars = ['0'])

def Fraction (chars : List Char) : Prop :=
  chars = [] ∨ ∃ digits, chars = '.' :: digits ∧ Digits digits

def Exponent (chars : List Char) : Prop := chars = [] ∨ ∃ letter ∈ ['e', 'E'],
  ∃ sign ∈ [[], ['+'], ['-']], ∃ digits, chars = letter :: sign ++ digits ∧ Digits digits

/-- The literal of a number. -/
def NumberText (literal : List Char) : Prop := ∃ sign ∈ [[], ['-']], ∃ whole fraction exponent,
  literal = sign ++ whole ++ fraction ++ exponent ∧ Whole whole ∧ Fraction fraction ∧
    Exponent exponent

theorem digitChar_ne_zero {digit : ℕ} (positive : 0 < digit) (small : digit < 10) :
    digit.digitChar ≠ '0' :=
  (by decide : ∀ digit < 10, 0 < digit → Nat.digitChar digit ≠ '0') digit small positive

/-- The decimal digits of a number above zero do not start with a zero. -/
theorem head_toDigits {num : ℕ} (positive : 0 < num) :
    (Nat.toDigits 10 num).head? ≠ some '0' := by
  induction num using Nat.strongRecOn with
  | ind num inductionHypothesis =>
    rcases Nat.lt_or_ge num 10 with small | large
    · rw [Nat.toDigits_of_lt_base small]
      exact fun zero => digitChar_ne_zero positive small (Option.some.inj zero)
    · rw [Nat.toDigits_of_base_le (by decide) large,
        List.head?_append_of_ne_nil _ Nat.toDigits_ne_nil]
      exact inductionHypothesis (num / 10) (by omega) (by omega)

theorem whole_toDigits (num : ℕ) : Whole (Nat.toDigits 10 num) := by
  refine ⟨⟨Nat.toDigits_ne_nil, fun char member =>
    Nat.isDigit_of_mem_toDigits (by decide) le_rfl member⟩, fun zero => ?_⟩
  rcases Nat.eq_zero_or_pos num with rfl | positive
  · exact Nat.toDigits_zero 10
  · exact absurd zero (head_toDigits positive)

/-- The decimal digits of a natural number are a number. -/
theorem numberText_nat (num : ℕ) : NumberText (toString num).toList := by
  refine ⟨[], List.mem_cons_self, Nat.toDigits 10 num, [], [], ?_, whole_toDigits num, Or.inl rfl,
    Or.inl rfl⟩
  rw [List.nil_append, List.append_nil, List.append_nil]
  exact Nat.toList_repr

/-- So is an integer, with its sign. -/
theorem numberText_int (num : ℤ) : NumberText (toString num).toList := by
  cases num with
  | ofNat num => exact numberText_nat num
  | negSucc num =>
    refine ⟨['-'], by simp, Nat.toDigits 10 (num + 1), [], [], ?_, whole_toDigits _, Or.inl rfl,
      Or.inl rfl⟩
    rw [List.append_nil, List.append_nil]
    show ("-" ++ (num + 1).repr).toList = _
    rw [String.toList_append, Nat.toList_repr]
    rfl

/-! ### Values -/

/-- A value in an array or behind a colon, with the white space around it. -/
structure Item where
  before : List Char
  raw : List Char
  after : List Char
  value : Json

def Item.text (item : Item) : List Char := item.before ++ item.raw ++ item.after

def Item.Spaced (item : Item) : Prop := Spaces item.before ∧ Spaces item.after

/-- A member of an object. -/
structure Member where
  before : List Char
  rawName : List Char
  name : List Char
  beforeColon : List Char
  item : Item

def Member.text (member : Member) : List Char :=
  member.before ++ quote :: member.rawName ++ quote :: member.beforeColon ++ ':' :: member.item.text

def Member.Named (member : Member) : Prop :=
  Spaces member.before ∧ StringText member.rawName member.name ∧ Spaces member.beforeColon ∧
    member.item.Spaced

def Member.entry (member : Member) : List Char × Json := (member.name, member.item.value)

/-- Pieces joined by commas. -/
def commas (pieces : List (List Char)) : List Char := [','].intercalate pieces

/-- A text without white space around it, and the value it stands for. -/
inductive ValueText : List Char → Json → Prop
  | null : ValueText ['n', 'u', 'l', 'l'] .null
  | true_ : ValueText ['t', 'r', 'u', 'e'] (.bool true)
  | false_ : ValueText ['f', 'a', 'l', 's', 'e'] (.bool false)
  | number (literal : List Char) (form : NumberText literal) : ValueText literal (.number literal)
  | string (raw text : List Char) (decodes : StringText raw text) :
      ValueText (quote :: raw ++ [quote]) (.string text)
  | emptyArray (spaces : List Char) (blank : Spaces spaces) :
      ValueText ('[' :: spaces ++ [']']) (.array [])
  | array (items : List Item) (nonempty : items ≠ []) (spaced : ∀ item ∈ items, item.Spaced)
      (values : ∀ item ∈ items, ValueText item.raw item.value) :
      ValueText ('[' :: commas (items.map Item.text) ++ [']']) (.array (items.map Item.value))
  | emptyObject (spaces : List Char) (blank : Spaces spaces) :
      ValueText ('\x7b' :: spaces ++ ['\x7d']) (.object [])
  | object (members : List Member) (nonempty : members ≠ [])
      (named : ∀ member ∈ members, member.Named)
      (values : ∀ member ∈ members, ValueText member.item.raw member.item.value) :
      ValueText ('\x7b' :: commas (members.map Member.text) ++ ['\x7d'])
        (.object (members.map Member.entry))

/-- A document: a value with white space around it. -/
def Document (chars : List Char) (doc : Json) : Prop :=
  ∃ before raw after, chars = before ++ raw ++ after ∧ Spaces before ∧ Spaces after ∧
    ValueText raw doc

/-! ### Where the pieces of a text are -/

/-- Two stretches of characters of one kind end where another kind begins. -/
theorem eq_of_append_kind {Kind : Char → Prop} {first second rest rest' : List Char}
    {char char' : Char} (all : ∀ other ∈ first, Kind other) (all' : ∀ other ∈ second, Kind other)
    (ends : ¬ Kind char) (ends' : ¬ Kind char')
    (same : first ++ char :: rest = second ++ char' :: rest') :
    first = second ∧ char :: rest = char' :: rest' := by
  induction first generalizing second with
  | nil =>
    cases second with
    | nil => exact ⟨rfl, same⟩
    | cons other others =>
      exact absurd (all' other List.mem_cons_self) ((List.cons.inj same).1 ▸ ends)
  | cons other others inductionHypothesis =>
    cases second with
    | nil => exact absurd (all other List.mem_cons_self) ((List.cons.inj same).1 ▸ ends')
    | cons other' others' =>
      obtain ⟨rfl, tails⟩ := List.cons.inj same
      obtain ⟨rfl, rest⟩ := inductionHypothesis
        (fun char member => all char (List.mem_cons_of_mem _ member))
        (fun char member => all' char (List.mem_cons_of_mem _ member)) tails
      exact ⟨rfl, rest⟩

/-- The white space before a character that is none is determined. -/
theorem Spaces.eq_of_append {blank blank' rest rest' : List Char} {char char' : Char}
    (spaces : Spaces blank) (spaces' : Spaces blank') (visible : ¬ IsSpace char)
    (visible' : ¬ IsSpace char') (same : blank ++ char :: rest = blank' ++ char' :: rest') :
    blank = blank' ∧ char :: rest = char' :: rest' :=
  eq_of_append_kind spaces spaces' visible visible' same

/-- There is no white space before a character that is none. -/
theorem Spaces.eq_of_append_cons {blank rest rest' : List Char} {char char' : Char}
    (spaces : Spaces blank) (visible : ¬ IsSpace char) (visible' : ¬ IsSpace char')
    (same : blank ++ char :: rest = char' :: rest') : char :: rest = char' :: rest' :=
  (spaces.eq_of_append spaces_nil visible visible' same).2

theorem commas_singleton (piece : List Char) : commas [piece] = piece := List.intercalate_singleton

theorem commas_cons_cons (first second : List Char) (rest : List (List Char)) :
    commas (first :: second :: rest) = first ++ ',' :: commas (second :: rest) := by
  rw [commas, List.intercalate_cons_cons, List.append_assoc]
  rfl

/-- The first piece comes first. -/
theorem commas_eq_append (first : List Char) (rest : List (List Char)) :
    ∃ more, commas (first :: rest) = first ++ more := by
  cases rest with
  | nil => exact ⟨[], by rw [commas_singleton, List.append_nil]⟩
  | cons second rest => exact ⟨_, commas_cons_cons first second rest⟩

/-- Pieces with a comma behind each of them are joined by commas, with one more at the end. -/
theorem flatMap_comma {pieces : List (List Char)} (nonempty : pieces ≠ []) :
    pieces.flatMap (· ++ [',']) = commas pieces ++ [','] := by
  induction pieces with
  | nil => exact absurd rfl nonempty
  | cons first rest inductionHypothesis =>
    rw [List.flatMap_cons]
    cases rest with
    | nil => rw [commas_singleton, List.flatMap_nil, List.append_nil]
    | cons second rest =>
      rw [inductionHypothesis (List.cons_ne_nil _ _), commas_cons_cons, List.append_assoc,
        List.append_assoc]
      rfl

/-- What is true of the pieces and of a comma is true of them joined. -/
theorem commas_all {Kind : Char → Prop} (comma : Kind ',') {pieces : List (List Char)}
    (all : ∀ piece ∈ pieces, ∀ char ∈ piece, Kind char) : ∀ char ∈ commas pieces, Kind char := by
  induction pieces with
  | nil => exact fun _ member => absurd member List.not_mem_nil
  | cons first rest inductionHypothesis =>
    have others := inductionHypothesis fun piece member => all piece (List.mem_cons_of_mem _ member)
    have head := all first List.mem_cons_self
    cases rest with
    | nil => rwa [commas_singleton]
    | cons second rest =>
      intro char member
      rw [commas_cons_cons] at member
      rcases List.mem_append.mp member with front | behind
      · exact head char front
      · rcases List.mem_cons.mp behind with rfl | later
        · exact comma
        · exact others char later

theorem length_le_commas {piece : List Char} {pieces : List (List Char)} (member : piece ∈ pieces) :
    piece.length ≤ (commas pieces).length := by
  induction pieces with
  | nil => exact absurd member List.not_mem_nil
  | cons first rest inductionHypothesis =>
    rcases List.mem_cons.mp member with rfl | later
    · obtain ⟨more, joined⟩ := commas_eq_append piece rest
      rw [joined, List.length_append]
      exact Nat.le_add_right _ _
    · cases rest with
      | nil => exact absurd later List.not_mem_nil
      | cons second rest =>
        rw [commas_cons_cons, List.length_append, List.length_cons]
        exact (inductionHypothesis later).trans (by omega)

/-- A later piece stands behind the first one and a comma. -/
theorem length_add_le_commas {first piece : List Char} {rest : List (List Char)}
    (member : piece ∈ rest) :
    first.length + 1 + piece.length ≤ (commas (first :: rest)).length := by
  cases rest with
  | nil => exact absurd member List.not_mem_nil
  | cons second rest =>
    have later := length_le_commas member
    rw [commas_cons_cons, List.length_append, List.length_cons]
    omega

/-- A string value is a literal between quotes. -/
theorem ValueText.string_inv {raw text : List Char} (form : ValueText raw (.string text)) :
    ∃ inner, raw = quote :: inner ++ [quote] ∧ StringText inner text := by
  cases form with
  | string inner _ decodes => exact ⟨inner, rfl, decodes⟩

/-- A member whose value is a string is at least as long as its name, its value, four quotes and
a colon. -/
theorem Member.length_of_string {member : Member} {text : List Char} (named : member.Named)
    (form : ValueText member.item.raw (.string text)) :
    member.name.length + text.length + 5 ≤ member.text.length := by
  obtain ⟨inner, raw, decodes⟩ := form.string_inv
  have name := named.2.1.length_le
  have value := decodes.length_le
  rw [Member.text, Item.text, raw]
  simp only [List.length_append, List.length_cons, List.length_nil]
  omega

/-- An object written with one member whose value is put between two quotes as it is. -/
def verbatim (name text : List Char) : List Char :=
  '\x7b' :: quote :: name ++ quote :: ':' :: ' ' :: quote :: text ++ [quote, '\x7d']

/-- When the first member of such an object is a string that decodes to the text put there, the
text needed no escape. -/
theorem Member.plain_of_verbatim {member : Member} {name text more : List Char}
    (itself : PlainText name) (named : member.Named)
    (form : ValueText member.item.raw (.string text)) (ends : more ≠ [])
    (same : member.text ++ more = quote :: name ++ quote :: ':' :: ' ' :: quote :: text ++
      [quote, '\x7d']) : PlainText text := by
  obtain ⟨before, decodes, beforeColon, spaced, -⟩ := named
  obtain ⟨inner, raw, decodes'⟩ := form.string_inv
  rw [Member.text, Item.text, raw] at same
  simp only [List.append_assoc, List.cons_append, List.nil_append] at same
  -- The name, the colon and the space in front of the value are where they are written.
  have same := before.eq_of_append_cons (by decide) (by decide) same
  obtain ⟨-, same⟩ := decodes.eq_of_append_quote itself (List.cons.inj same).2
  have same := beforeColon.eq_of_append_cons (by decide) (by decide) same
  obtain ⟨-, same⟩ := spaced.eq_of_append spaces_blank (by decide) (by decide)
    (List.cons.inj same).2
  have length := congrArg List.length same
  have some := List.length_pos_of_ne_nil ends
  simp only [List.length_append, List.length_cons, List.length_nil] at length
  exact (decodes'.eq_of_length_le (by omega)).2

/-- A text put between two quotes as it is is found again in the document only if none of its
characters means anything else there. -/
theorem plain_of_document {name text : List Char} {members : List (List Char × Json)}
    (itself : PlainText name) (found : (name, .string text) ∈ members)
    (form : Document (verbatim name text) (.object members)) : PlainText text := by
  obtain ⟨before, raw, after, same, spaces, -, value⟩ := form
  have total := congrArg List.length same
  rw [verbatim] at same total
  cases value with
  | emptyObject _ _ => exact absurd found List.not_mem_nil
  | object written nonempty named values =>
    obtain ⟨member, among, entry⟩ := List.mem_map.mp found
    obtain ⟨rfl, value⟩ := Prod.mk.inj entry
    have string := values member among
    rw [value] at string
    have length := member.length_of_string (named member among) string
    cases written with
    | nil => exact absurd rfl nonempty
    | cons first rest =>
      rcases List.mem_cons.mp among with rfl | later
      · obtain ⟨more, joined⟩ := commas_eq_append member.text (rest.map Member.text)
        rw [List.map_cons, joined] at same
        simp only [List.append_assoc, List.cons_append, List.nil_append] at same
        have object := spaces.eq_of_append_cons (by decide) (by decide) same.symm
        have ends : more ++ '\x7d' :: after ≠ [] := List.append_ne_nil_of_right_ne_nil _ (by simp)
        refine member.plain_of_verbatim itself (named member among) string ends ?_
        simp only [List.append_assoc, List.cons_append]
        exact (List.cons.inj object).2
      · -- A later member cannot be that long.
        have behind : first.text.length + 1 + member.text.length ≤ _ :=
          length_add_le_commas (List.mem_map_of_mem (f := Member.text) later)
        have most : 3 ≤ first.text.length := by
          rw [Member.text]
          simp only [List.length_append, List.length_cons]
          omega
        rw [List.map_cons] at total
        simp only [List.length_append, List.length_cons, List.length_nil] at total
        omega

/-- A text that needs no escape can be put between two quotes as it is. -/
theorem document_verbatim {name text : List Char} (itself : PlainText name)
    (itself' : PlainText text) :
    Document (verbatim name text) (.object [(name, .string text)]) := by
  let member : Member := ⟨[], name, name, [], [' '], quote :: text ++ [quote], [], .string text⟩
  have named : ∀ other ∈ [member], other.Named := by
    intro other among
    rw [List.mem_singleton.mp among]
    exact ⟨spaces_nil, .of_plain itself, spaces_nil, spaces_blank, spaces_nil⟩
  have values : ∀ other ∈ [member], ValueText other.item.raw other.item.value := by
    intro other among
    rw [List.mem_singleton.mp among]
    exact .string text text (.of_plain itself')
  refine ⟨[], verbatim name text, [], by rw [List.nil_append, List.append_nil], spaces_nil,
    spaces_nil, ?_⟩
  have object := ValueText.object [member] (List.cons_ne_nil _ _) named values
  rw [List.map_singleton, commas_singleton] at object
  simpa [verbatim, Member.text, Item.text, member, Member.entry] using object

/-! ### Documents in bytes -/

/-- The UTF-8 encoding of a text. -/
def utf8 (chars : List Char) : List UInt8 := chars.flatMap String.utf8EncodeChar

theorem utf8_append (first second : List Char) :
    utf8 (first ++ second) = utf8 first ++ utf8 second :=
  List.flatMap_append

theorem utf8_inj {chars chars' : List Char} (same : utf8 chars = utf8 chars') : chars = chars' := by
  have encoded : chars.utf8Encode = chars'.utf8Encode := congrArg List.toByteArray same
  rw [← String.toByteArray_ofList, ← String.toByteArray_ofList] at encoded
  exact String.ofList_injective (String.toByteArray_inj.mp encoded)

/-- A text that begins with the encoding of another one begins with that text. -/
theorem utf8_eq_append {chars first : List Char} {bytes : List UInt8}
    (same : utf8 chars = utf8 first ++ bytes) :
    ∃ rest, chars = first ++ rest ∧ utf8 rest = bytes := by
  have encoded : first.utf8Encode ++ bytes.toByteArray = chars.utf8Encode := by
    rw [List.utf8Encode, List.utf8Encode, ← List.toByteArray_append]
    exact congrArg List.toByteArray same.symm
  obtain ⟨rest, rfl⟩ := List.isPrefix_of_utf8Encode_append_eq_utf8Encode _ encoded
  rw [utf8_append] at same
  exact ⟨rest, rfl, List.append_cancel_left same⟩

def Ascii (chars : List Char) : Prop := ∀ char ∈ chars, char.toNat < 128

instance (chars : List Char) : Decidable (Ascii chars) :=
  List.decidableBAll (fun char : Char => char.toNat < 128) chars

theorem Ascii.append {first second : List Char} (ascii : Ascii first) (ascii' : Ascii second) :
    Ascii (first ++ second) := fun char member =>
  (List.mem_append.mp member).elim (ascii char) (ascii' char)

theorem ascii_nat (num : ℕ) : Ascii (toString num).toList := by
  intro char member
  rw [Nat.toString_eq_repr, Nat.toList_repr] at member
  have digit := Nat.isDigit_of_mem_toDigits (by decide) le_rfl member
  rw [Char.isDigit, Bool.and_eq_true, decide_eq_true_iff, decide_eq_true_iff] at digit
  exact Nat.lt_of_le_of_lt (UInt32.le_iff_toNat_le.mp digit.2) (by decide)

theorem ascii_int (num : ℤ) : Ascii (toString num).toList := by
  cases num with
  | ofNat num => exact ascii_nat num
  | negSucc num =>
    show Ascii ("-" ++ (num + 1).repr).toList
    rw [String.toList_append]
    exact (by decide : Ascii "-".toList).append (ascii_nat (num + 1))

/-- No part of the encoding of a character past ASCII is the code of an ASCII character. -/
theorem toNat_of_mem_utf8EncodeChar {char : Char} {byte : UInt8}
    (member : byte ∈ String.utf8EncodeChar char) (small : byte.toNat < 128) :
    char.toNat = byte.toNat := by
  unfold String.utf8EncodeChar at member
  dsimp only at member
  split at member
  · next one =>
    rw [List.mem_singleton.mp member, UInt8.toNat_ofNat']
    exact (Nat.mod_eq_of_lt (Nat.lt_of_le_of_lt one (by decide))).symm
  · -- Every byte of a longer encoding has its top bit set.
    exfalso
    split at member
    · simp only [List.mem_cons, List.not_mem_nil, or_false] at member
      rcases member with rfl | rfl <;> rw [UInt8.toNat_ofNat'] at small <;> omega
    · split at member
      · simp only [List.mem_cons, List.not_mem_nil, or_false] at member
        rcases member with rfl | rfl | rfl <;> rw [UInt8.toNat_ofNat'] at small <;> omega
      · simp only [List.mem_cons, List.not_mem_nil, or_false] at member
        rcases member with rfl | rfl | rfl | rfl <;> rw [UInt8.toNat_ofNat'] at small <;> omega

/-- A byte below 128 is the code of a character of the text. -/
theorem mem_of_mem_utf8 {chars : List Char} {byte : UInt8} (member : byte ∈ utf8 chars)
    (small : byte.toNat < 128) : ∃ char ∈ chars, char.toNat = byte.toNat := by
  obtain ⟨char, among, part⟩ := List.mem_flatMap.mp member
  exact ⟨char, among, toNat_of_mem_utf8EncodeChar part small⟩

/-- An ASCII text is encoded by the codes of its characters. -/
theorem utf8_ascii {chars : List Char} (ascii : Ascii chars) :
    utf8 chars = chars.map fun char => UInt8.ofNat char.toNat := by
  induction chars with
  | nil => rfl
  | cons char rest inductionHypothesis =>
    have small := ascii char List.mem_cons_self
    have rest := inductionHypothesis fun other member => ascii other (List.mem_cons_of_mem _ member)
    rw [utf8] at rest
    have one : String.utf8EncodeChar char = [UInt8.ofNat char.toNat] := by
      unfold String.utf8EncodeChar
      rw [if_pos (show char.val.toNat ≤ 0x7f from Nat.le_of_lt_succ small)]
      rfl
    rw [utf8, List.flatMap_cons, rest, List.map_cons, one]
    rfl

/-- The bytes are a JSON document. -/
def IsJson (bytes : List UInt8) (doc : Json) : Prop :=
  ∃ chars, utf8 chars = bytes ∧ Document chars doc

end JsonText
