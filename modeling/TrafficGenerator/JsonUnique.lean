/-
This file shows that a JSON text without a backslash says one thing only. A
value is told by its first character, and where it ends is told by the first
character behind it: a literal or a number ends before the first character that
cannot belong to one, a string at the next quote, an array or an object where
its last piece is not followed by a comma. Numbers are the only values that have
to see what stands behind them.
-/

import TrafficGenerator.JsonText

namespace JsonText

/-- Characters of one kind. -/
def Each (Kind : Char → Prop) (chars : List Char) : Prop := ∀ char ∈ chars, Kind char

-- Named, so that no instance that runs through all characters is taken.
instance (Kind : Char → Prop) [DecidablePred Kind] (chars : List Char) :
    Decidable (Each Kind chars) := List.decidableBAll Kind chars

/-! ### Where pieces end -/

/-- What may stand behind a value. -/
def Follows (char : Char) : Prop := IsSpace char ∨ char ∈ [',', ']', '\x7d']

/-- The characters of a number. -/
def NumberChar (char : Char) : Prop := char.isDigit ∨ char ∈ ['-', '+', '.', 'e', 'E']

instance (char : Char) : Decidable (NumberChar char) := inferInstanceAs (Decidable (_ ∨ _))

theorem Follows.not_numberChar {char : Char} (follows : Follows char) : ¬ NumberChar char := by
  have known : Each (¬ NumberChar ·) [' ', '\t', '\n', '\r', ',', ']', '\x7d'] := by decide
  refine known char ?_
  rcases follows with space | close
  · exact List.mem_append_left [',', ']', '\x7d'] space
  · exact List.mem_append_right [' ', '\t', '\n', '\r'] close

theorem Digits.numberChar {chars : List Char} (digits : Digits chars) :
    ∀ char ∈ chars, NumberChar char := fun char member => Or.inl (digits.2 char member)

theorem NumberText.numberChar {literal : List Char} (form : NumberText literal) :
    ∀ char ∈ literal, NumberChar char := by
  obtain ⟨sign, signs, whole, fraction, exponent, rfl, isWhole, isFraction, isExponent⟩ := form
  have signChars : ∀ char ∈ sign, NumberChar char := by
    have known : ∀ sign ∈ [[], ['-']], Each NumberChar sign := by decide
    exact known sign signs
  have fractionChars : ∀ char ∈ fraction, NumberChar char := by
    rcases isFraction with rfl | ⟨digits, rfl, isDigits⟩
    · exact fun char member => absurd member List.not_mem_nil
    · intro char member
      rcases List.mem_cons.mp member with rfl | among
      · decide
      · exact isDigits.numberChar char among
  have exponentChars : ∀ char ∈ exponent, NumberChar char := by
    rcases isExponent with rfl | ⟨letter, letters, sign', signs', digits, rfl, isDigits⟩
    · exact fun char member => absurd member List.not_mem_nil
    · have known : ∀ sign ∈ [[], ['+'], ['-']], Each NumberChar sign := by decide
      have knownLetter : Each NumberChar ['e', 'E'] := by decide
      intro char member
      rcases List.mem_append.mp member with front | among
      · rcases List.mem_cons.mp front with rfl | signed
        · exact knownLetter char letters
        · exact known sign' signs' char signed
      · exact isDigits.numberChar char among
  intro char member
  rcases List.mem_append.mp member with member | inExponent
  · rcases List.mem_append.mp member with member | inFraction
    · rcases List.mem_append.mp member with inSign | inWhole
      · exact signChars char inSign
      · exact isWhole.1.numberChar char inWhole
    · exact fractionChars char inFraction
  · exact exponentChars char inExponent

/-- A literal without a backslash stands for itself. -/
theorem StringText.eq_of_no_escape {raw text : List Char} (decodes : StringText raw text)
    (noEscape : backslash ∉ raw) : raw = text ∧ PlainText raw := by
  induction decodes with
  | nil => exact ⟨rfl, fun _ member => absurd member List.not_mem_nil⟩
  | plain char itself _ inductionHypothesis =>
    obtain ⟨same, all⟩ := inductionHypothesis fun member =>
      noEscape (List.mem_cons_of_mem _ member)
    refine ⟨by rw [same], fun other member => ?_⟩
    rcases List.mem_cons.mp member with rfl | later
    · exact itself
    · exact all other later
  | escape | unit | pair => exact absurd List.mem_cons_self noEscape

/-! ### Texts without an escape -/

/-- An ASCII character that begins no escape. -/
def Unescaping (char : Char) : Prop := char.toNat < 128 ∧ char ≠ backslash

instance (char : Char) : Decidable (Unescaping char) := inferInstanceAs (Decidable (_ ∧ _))

/-- A text of such characters. -/
def Unescaped (chars : List Char) : Prop := ∀ char ∈ chars, Unescaping char

instance (chars : List Char) : Decidable (Unescaped chars) := List.decidableBAll Unescaping chars

theorem Unescaped.append {first second : List Char} (unescaped : Unescaped first)
    (unescaped' : Unescaped second) : Unescaped (first ++ second) := fun char member =>
  (List.mem_append.mp member).elim (unescaped char) (unescaped' char)

theorem Unescaped.ascii {chars : List Char} (unescaped : Unescaped chars) : Ascii chars :=
  fun char member => (unescaped char member).1

theorem Unescaped.no_backslash {chars : List Char} (unescaped : Unescaped chars) :
    backslash ∉ chars := fun member => (unescaped _ member).2 rfl

theorem unescaped_commas {pieces : List (List Char)} (all : ∀ piece ∈ pieces, Unescaped piece) :
    Unescaped (commas pieces) := commas_all (by decide) all

theorem unescaped_plain {text : List Char} (ascii : Ascii text) (plain : PlainText text) :
    Unescaped text := fun char member => ⟨ascii char member, (plain char member).2.2⟩

theorem unescaped_number {literal : List Char} (ascii : Ascii literal)
    (form : NumberText literal) : Unescaped literal := fun char member =>
  ⟨ascii char member, fun same => absurd (form.numberChar char member) (same ▸ by decide)⟩

/-! ### How values begin -/

/-- The kinds of values that are told apart by their first character. -/
def Json.kind : Json → ℕ
  | .null => 0
  | .bool true => 1
  | .bool false => 2
  | .string _ => 3
  | .array _ => 4
  | .object _ => 5
  | .number _ => 6

/-- The kind of value a character begins. -/
def kindOf (char : Char) : ℕ :=
  if char = 'n' then 0 else if char = 't' then 1 else if char = 'f' then 2
  else if char = quote then 3 else if char = '[' then 4 else if char = '\x7b' then 5 else 6

/-- A character that begins a value is no white space and ends none. -/
def Begins (char : Char) : Prop := ¬ IsSpace char ∧ char ∉ [',', ']', '\x7d']

instance (char : Char) : Decidable (Begins char) := inferInstanceAs (Decidable (_ ∧ _))

theorem numberText_begins {literal : List Char} (form : NumberText literal) :
    ∃ char tail, literal = char :: tail ∧ Begins char ∧ kindOf char = 6 := by
  have numberChar := form.numberChar
  obtain ⟨sign, signs, whole, fraction, exponent, rfl, isWhole, -, -⟩ := form
  obtain ⟨char, tail, same⟩ :
      ∃ char tail, sign ++ whole ++ fraction ++ exponent = char :: tail := by
    refine List.exists_cons_of_ne_nil fun none => isWhole.1.1 ?_
    simp only [List.append_eq_nil_iff] at none
    exact none.1.1.2
  rw [same] at numberChar ⊢
  have isNumber := numberChar char List.mem_cons_self
  refine ⟨char, tail, rfl, ⟨fun space => ?_, fun close => ?_⟩, ?_⟩
  · exact Follows.not_numberChar (Or.inl space) isNumber
  · exact Follows.not_numberChar (Or.inr close) isNumber
  · have others : Each (¬ NumberChar ·) ['n', 't', 'f', quote, '[', '\x7b'] := by decide
    have differs : ∀ other ∈ ['n', 't', 'f', quote, '[', '\x7b'], char ≠ other :=
      fun other member same => others other member (same ▸ isNumber)
    unfold kindOf
    rw [if_neg (differs _ (by simp)), if_neg (differs _ (by simp)), if_neg (differs _ (by simp)),
      if_neg (differs _ (by simp)), if_neg (differs _ (by simp)), if_neg (differs _ (by simp))]

theorem ValueText.begins {raw : List Char} {value : Json} (form : ValueText raw value) :
    ∃ char tail, raw = char :: tail ∧ Begins char ∧ kindOf char = value.kind := by
  have known : Each Begins ['n', 't', 'f', quote, '[', '\x7b'] := by decide
  cases form with
  | null => exact ⟨_, _, rfl, known _ (by simp), rfl⟩
  | true_ => exact ⟨_, _, rfl, known _ (by simp), rfl⟩
  | false_ => exact ⟨_, _, rfl, known _ (by simp), rfl⟩
  | number literal form => exact numberText_begins form
  | string => exact ⟨_, _, rfl, known _ (by simp), rfl⟩
  | emptyArray | array => exact ⟨_, _, rfl, known _ (by simp), rfl⟩
  | emptyObject | object => exact ⟨_, _, rfl, known _ (by simp), rfl⟩

/-! ### What a text says -/

/-- A text that says a value says no other, whatever stands behind it. -/
def Determined (raw : List Char) (value : Json) : Prop :=
  ∀ {raw' : List Char} {value' : Json} {char char' : Char} {rest rest' : List Char},
    ValueText raw' value' → backslash ∉ raw ++ char :: rest → Follows char → Follows char' →
      raw ++ char :: rest = raw' ++ char' :: rest' →
        value = value' ∧ char :: rest = char' :: rest'

/-- Pieces joined by commas are determined when each of them is. -/
theorem commas_determined {Piece Value : Type} (text : Piece → List Char) (value : Piece → Value)
    {close : Char} (other : close ≠ ',') {pieces pieces' : List Piece} (nonempty : pieces ≠ [])
    (nonempty' : pieces' ≠ [])
    (each : ∀ piece ∈ pieces, ∀ piece' ∈ pieces', ∀ (char char' : Char) (rest rest' : List Char),
      char ∈ [',', close] → char' ∈ [',', close] → backslash ∉ text piece ++ char :: rest →
        text piece ++ char :: rest = text piece' ++ char' :: rest' →
          value piece = value piece' ∧ char :: rest = char' :: rest')
    {rest rest' : List Char}
    (noEscape : backslash ∉ commas (pieces.map text) ++ close :: rest)
    (same : commas (pieces.map text) ++ close :: rest =
      commas (pieces'.map text) ++ close :: rest') :
    pieces.map value = pieces'.map value ∧ rest = rest' := by
  -- a list of pieces is its first one, and what follows tells whether there are more
  have split : ∀ (first : Piece) (others : List Piece) (rest : List Char),
      ∃ char more, char ∈ [',', close] ∧
        commas ((first :: others).map text) ++ close :: rest = text first ++ char :: more ∧
          ((others = [] ∧ char = close ∧ more = rest) ∨ (others ≠ [] ∧ char = ',' ∧
            more = commas (others.map text) ++ close :: rest)) := by
    intro first others rest
    cases others with
    | nil =>
      refine ⟨close, rest, by simp, ?_, Or.inl ⟨rfl, rfl, rfl⟩⟩
      rw [List.map_singleton, commas_singleton]
    | cons second others =>
      refine ⟨',', _, by simp, ?_, Or.inr ⟨List.cons_ne_nil _ _, rfl, rfl⟩⟩
      rw [List.map_cons, List.map_cons, commas_cons_cons, List.append_assoc, List.cons_append]
  induction pieces generalizing pieces' with
  | nil => exact absurd rfl nonempty
  | cons first others inductionHypothesis =>
    cases pieces' with
    | nil => exact absurd rfl nonempty'
    | cons first' others' =>
      obtain ⟨char, more, mem, joined, cases⟩ := split first others rest
      obtain ⟨char', more', mem', joined', cases'⟩ := split first' others' rest'
      rw [joined] at noEscape
      rw [joined, joined'] at same
      obtain ⟨values, tails⟩ := each first List.mem_cons_self first' List.mem_cons_self _ _ _ _
        mem mem' noEscape same
      obtain ⟨chars, mores⟩ := List.cons.inj tails
      rw [List.map_cons, List.map_cons, values]
      rcases cases with ⟨rfl, rfl, rfl⟩ | ⟨some, rfl, rfl⟩
      · rcases cases' with ⟨rfl, -, rfl⟩ | ⟨-, comma, -⟩
        · exact ⟨rfl, mores⟩
        · exact absurd (chars.trans comma) other
      · rcases cases' with ⟨-, closed, -⟩ | ⟨some', -, rfl⟩
        · exact absurd (chars.trans closed).symm other
        · have noEscapeLater : backslash ∉ commas (others.map text) ++ close :: rest :=
            fun member => noEscape
              (List.mem_append_right _ (List.mem_cons_of_mem _ member))
          obtain ⟨later, ends⟩ := inductionHypothesis some some'
            (fun piece member piece' member' => each piece (List.mem_cons_of_mem _ member) piece'
              (List.mem_cons_of_mem _ member')) noEscapeLater mores
          exact ⟨by rw [later], ends⟩

/-- An item is determined when its value is. -/
theorem Item.determined {item item' : Item} (spaced : item.Spaced) (spaced' : item'.Spaced)
    (form : ValueText item.raw item.value) (form' : ValueText item'.raw item'.value)
    (determined : Determined item.raw item.value) {char char' : Char} {rest rest' : List Char}
    (close : char ∈ [',', ']', '\x7d']) (close' : char' ∈ [',', ']', '\x7d'])
    (noEscape : backslash ∉ item.text ++ char :: rest)
    (same : item.text ++ char :: rest = item'.text ++ char' :: rest') :
    item.value = item'.value ∧ char :: rest = char' :: rest' := by
  obtain ⟨first, tail, raw, ⟨visible, -⟩, -⟩ := form.begins
  obtain ⟨first', tail', raw', ⟨visible', -⟩, -⟩ := form'.begins
  have notSpace : Each (¬ IsSpace ·) [',', ']', '\x7d'] := by decide
  -- what follows a value is the white space behind it, if there is any
  have behind : ∀ {after : List Char} {char : Char} (rest : List Char), Spaces after →
      char ∈ [',', ']', '\x7d'] → ∃ next more, after ++ char :: rest = next :: more ∧
        Follows next := by
    intro after char rest spaces close
    cases after with
    | nil => exact ⟨char, rest, rfl, Or.inr close⟩
    | cons space others => exact ⟨space, _, rfl, Or.inl (spaces space List.mem_cons_self)⟩
  obtain ⟨next, more, followed, follows⟩ := behind rest spaced.2 close
  obtain ⟨next', more', followed', follows'⟩ := behind rest' spaced'.2 close'
  unfold Item.text at same noEscape
  rw [List.append_assoc, List.append_assoc, followed] at same noEscape
  rw [List.append_assoc, List.append_assoc, followed'] at same
  have start := same
  rw [raw, raw'] at start
  obtain ⟨-, begins⟩ := spaced.1.eq_of_append spaced'.1 visible visible' start
  have values : item.raw ++ next :: more = item'.raw ++ next' :: more' := by
    rw [raw, raw']
    exact begins
  obtain ⟨values, ends⟩ := determined form'
    (fun member => noEscape (List.mem_append_right _ member)) follows follows' values
  rw [← followed, ← followed'] at ends
  obtain ⟨-, closes⟩ := spaced.2.eq_of_append spaced'.2 (notSpace char close)
    (notSpace char' close') ends
  exact ⟨values, closes⟩

/-- So is a member: its name has no escape. -/
theorem Member.determined {member member' : Member} (named : member.Named)
    (named' : member'.Named) (form : ValueText member.item.raw member.item.value)
    (form' : ValueText member'.item.raw member'.item.value)
    (determined : Determined member.item.raw member.item.value) {char char' : Char}
    {rest rest' : List Char} (close : char ∈ [',', ']', '\x7d'])
    (close' : char' ∈ [',', ']', '\x7d'])
    (noEscape : backslash ∉ member.text ++ char :: rest)
    (same : member.text ++ char :: rest = member'.text ++ char' :: rest') :
    member.entry = member'.entry ∧ char :: rest = char' :: rest' := by
  obtain ⟨before, decodes, colon, spaced⟩ := named
  obtain ⟨before', decodes', colon', spaced'⟩ := named'
  have noEscape' : backslash ∉ member'.text ++ char' :: rest' := same ▸ noEscape
  unfold Member.text at same noEscape noEscape'
  simp only [List.append_assoc, List.cons_append] at same noEscape noEscape'
  simp only [List.mem_append, List.mem_cons, not_or] at noEscape noEscape'
  obtain ⟨-, -, noEscapeName, -, -, -, noEscapeItem⟩ := noEscape
  obtain ⟨-, -, noEscapeName', -⟩ := noEscape'
  obtain ⟨rawName, -⟩ := decodes.eq_of_no_escape noEscapeName
  obtain ⟨rawName', plain'⟩ := decodes'.eq_of_no_escape noEscapeName'
  obtain ⟨-, same⟩ := before.eq_of_append before' (by decide) (by decide) same
  obtain ⟨names, same⟩ := decodes.eq_of_append_quote plain' (List.cons.inj same).2
  obtain ⟨-, same⟩ := colon.eq_of_append colon' (by decide) (by decide) same
  have noEscapeText : backslash ∉ member.item.text ++ char :: rest := by
    simp only [List.mem_append, List.mem_cons, not_or]
    exact noEscapeItem
  obtain ⟨values, ends⟩ := Item.determined spaced spaced' form form' determined close close'
    noEscapeText (List.cons.inj same).2
  refine ⟨?_, ends⟩
  rw [Member.entry, Member.entry, ← rawName, ← rawName', names, values]

/-- The pieces of an array start like values, and so does no closing bracket. -/
theorem Item.ne_close {item : Item} (spaced : item.Spaced)
    (form : ValueText item.raw item.value) {blank rest rest' : List Char} {close : Char}
    (spaces : Spaces blank) (closes : close ∈ [',', ']', '\x7d']) :
    blank ++ close :: rest ≠ item.text ++ rest' := by
  intro same
  obtain ⟨first, tail, raw, ⟨visible, begins⟩, -⟩ := form.begins
  have notSpace : Each (¬ IsSpace ·) [',', ']', '\x7d'] := by decide
  unfold Item.text at same
  rw [raw, List.append_assoc, List.append_assoc, List.cons_append] at same
  obtain ⟨-, tails⟩ := spaces.eq_of_append spaced.1 (notSpace close closes) visible same
  exact begins ((List.cons.inj tails).1 ▸ closes)

/-- A member starts with its name. -/
theorem Member.ne_close {member : Member} (named : member.Named) {blank rest rest' : List Char}
    (spaces : Spaces blank) : blank ++ '\x7d' :: rest ≠ member.text ++ rest' := by
  intro same
  unfold Member.text at same
  simp only [List.append_assoc, List.cons_append] at same
  obtain ⟨-, tails⟩ := spaces.eq_of_append named.1 (show ¬ IsSpace '\x7d' by decide)
    (show ¬ IsSpace quote by decide) same
  exact absurd (List.cons.inj tails).1 (by decide)

/-- Values that begin the same text are of one kind. -/
theorem ValueText.kind_eq {raw raw' rest rest' : List Char} {value value' : Json}
    (form : ValueText raw value) (form' : ValueText raw' value')
    (same : raw ++ rest = raw' ++ rest') : value.kind = value'.kind := by
  obtain ⟨char, tail, rfl, -, kind⟩ := form.begins
  obtain ⟨char', tail', rfl, -, kind'⟩ := form'.begins
  rw [← kind, ← kind', (List.cons.inj same).1]

/-- The empty array is no other one. -/
theorem emptyArray_ne {spaces rest rest' : List Char} {items : List Item} (blank : Spaces spaces)
    (nonempty : items ≠ []) (spaced : ∀ item ∈ items, item.Spaced)
    (values : ∀ item ∈ items, ValueText item.raw item.value) :
    spaces ++ ']' :: rest ≠ commas (items.map Item.text) ++ rest' := by
  cases items with
  | nil => exact absurd rfl nonempty
  | cons first others =>
    obtain ⟨more, joined⟩ := commas_eq_append first.text (others.map Item.text)
    rw [List.map_cons, joined, List.append_assoc]
    exact Item.ne_close (spaced first List.mem_cons_self) (values first List.mem_cons_self) blank
      (by decide)

/-- Nor is the empty object. -/
theorem emptyObject_ne {spaces rest rest' : List Char} {members : List Member}
    (blank : Spaces spaces) (nonempty : members ≠ []) (named : ∀ member ∈ members, member.Named) :
    spaces ++ '\x7d' :: rest ≠ commas (members.map Member.text) ++ rest' := by
  cases members with
  | nil => exact absurd rfl nonempty
  | cons first others =>
    obtain ⟨more, joined⟩ := commas_eq_append first.text (others.map Member.text)
    rw [List.map_cons, joined, List.append_assoc]
    exact Member.ne_close (named first List.mem_cons_self) blank

theorem arrayEnds : Each (· ∈ [',', ']', '\x7d']) [',', ']'] := by decide

theorem objectEnds : Each (· ∈ [',', ']', '\x7d']) [',', '\x7d'] := by decide

/-! ### One value for each text -/

/-- A number ends where what follows it begins. -/
theorem number_determined {literal : List Char} (form : NumberText literal) :
    Determined literal (.number literal) := by
  intro raw' value' char char' rest rest' form' _ follows follows' same
  have kinds := ValueText.kind_eq (.number _ form) form' same
  cases form' with
  | number literal' form' =>
    obtain ⟨rfl, ends⟩ := eq_of_append_kind form.numberChar form'.numberChar
      follows.not_numberChar follows'.not_numberChar same
    exact ⟨rfl, ends⟩
  | _ => simp [Json.kind] at kinds

/-- A string ends at its first quote. -/
theorem string_determined {raw text : List Char} (decodes : StringText raw text) :
    Determined (quote :: raw ++ [quote]) (.string text) := by
  intro raw' value' char char' rest rest' form' noEscape _ _ same
  have kinds := ValueText.kind_eq (.string _ _ decodes) form' same
  cases form' with
  | string raw' text' decodes' =>
    have noEscape' := same ▸ noEscape
    simp only [List.append_assoc, List.cons_append, List.nil_append, List.cons.injEq, true_and]
      at same
    simp only [List.mem_append, List.mem_cons, not_or, List.cons_append] at noEscape noEscape'
    obtain ⟨rfl, -⟩ := decodes.eq_of_no_escape noEscape.2.1.1
    obtain ⟨rfl, plain'⟩ := decodes'.eq_of_no_escape noEscape'.2.1.1
    obtain ⟨rfl, ends⟩ := decodes.eq_of_append_quote plain' same
    exact ⟨rfl, ends⟩
  | _ => simp [Json.kind] at kinds

theorem emptyArray_determined {spaces : List Char} (blank : Spaces spaces) :
    Determined ('[' :: spaces ++ [']']) (.array []) := by
  intro raw' value' char char' rest rest' form' _ _ _ same
  have kinds := ValueText.kind_eq (.emptyArray _ blank) form' same
  cases form' with
  | emptyArray spaces' blank' =>
    simp only [List.append_assoc, List.cons_append, List.nil_append, List.cons.injEq, true_and]
      at same
    obtain ⟨-, ends⟩ := blank.eq_of_append blank' (by decide) (by decide) same
    exact ⟨rfl, (List.cons.inj ends).2⟩
  | array items nonempty spaced values =>
    simp only [List.append_assoc, List.cons_append, List.nil_append, List.cons.injEq, true_and]
      at same
    exact absurd same (emptyArray_ne blank nonempty spaced values)
  | _ => simp [Json.kind] at kinds

/-- An array is determined when its items are. -/
theorem array_determined {items : List Item} (nonempty : items ≠ [])
    (spaced : ∀ item ∈ items, item.Spaced)
    (values : ∀ item ∈ items, ValueText item.raw item.value)
    (determined : ∀ item ∈ items, Determined item.raw item.value) :
    Determined ('[' :: commas (items.map Item.text) ++ [']']) (.array (items.map Item.value)) := by
  intro raw' value' char char' rest rest' form' noEscape _ _ same
  have kinds := ValueText.kind_eq (.array _ nonempty spaced values) form' same
  cases form' with
  | emptyArray spaces' blank' =>
    simp only [List.append_assoc, List.cons_append, List.nil_append, List.cons.injEq, true_and]
      at same
    exact absurd same.symm (emptyArray_ne blank' nonempty spaced values)
  | array items' nonempty' spaced' values' =>
    simp only [List.append_assoc, List.cons_append, List.nil_append, List.cons.injEq, true_and]
      at same noEscape
    obtain ⟨equal, ends⟩ := commas_determined Item.text Item.value (by decide) nonempty nonempty'
      (fun item member item' member' _ _ _ _ close close' noEscape same =>
        Item.determined (spaced item member) (spaced' item' member') (values item member)
          (values' item' member') (determined item member) (arrayEnds _ close)
          (arrayEnds _ close') noEscape same)
      (fun member => noEscape (List.mem_cons_of_mem _ member)) same
    exact ⟨by rw [equal], ends⟩
  | _ => simp [Json.kind] at kinds

theorem emptyObject_determined {spaces : List Char} (blank : Spaces spaces) :
    Determined ('\x7b' :: spaces ++ ['\x7d']) (.object []) := by
  intro raw' value' char char' rest rest' form' _ _ _ same
  have kinds := ValueText.kind_eq (.emptyObject _ blank) form' same
  cases form' with
  | emptyObject spaces' blank' =>
    simp only [List.append_assoc, List.cons_append, List.nil_append, List.cons.injEq, true_and]
      at same
    obtain ⟨-, ends⟩ := blank.eq_of_append blank' (by decide) (by decide) same
    exact ⟨rfl, (List.cons.inj ends).2⟩
  | object members nonempty named values =>
    simp only [List.append_assoc, List.cons_append, List.nil_append, List.cons.injEq, true_and]
      at same
    exact absurd same (emptyObject_ne blank nonempty named)
  | _ => simp [Json.kind] at kinds

/-- An object is determined when its members are. -/
theorem object_determined {members : List Member} (nonempty : members ≠ [])
    (named : ∀ member ∈ members, member.Named)
    (values : ∀ member ∈ members, ValueText member.item.raw member.item.value)
    (determined : ∀ member ∈ members, Determined member.item.raw member.item.value) :
    Determined ('\x7b' :: commas (members.map Member.text) ++ ['\x7d'])
      (.object (members.map Member.entry)) := by
  intro raw' value' char char' rest rest' form' noEscape _ _ same
  have kinds := ValueText.kind_eq (.object _ nonempty named values) form' same
  cases form' with
  | emptyObject spaces' blank' =>
    simp only [List.append_assoc, List.cons_append, List.nil_append, List.cons.injEq, true_and]
      at same
    exact absurd same.symm (emptyObject_ne blank' nonempty named)
  | object members' nonempty' named' values' =>
    simp only [List.append_assoc, List.cons_append, List.nil_append, List.cons.injEq, true_and]
      at same noEscape
    obtain ⟨equal, ends⟩ := commas_determined Member.text Member.entry (by decide) nonempty
      nonempty' (fun member among member' among' _ _ _ _ close close' noEscape same =>
        Member.determined (named member among) (named' member' among') (values member among)
          (values' member' among') (determined member among) (objectEnds _ close)
          (objectEnds _ close') noEscape same)
      (fun member => noEscape (List.mem_cons_of_mem _ member)) same
    exact ⟨by rw [equal], ends⟩
  | _ => simp [Json.kind] at kinds

/-- What a text without a backslash says is determined by where it begins. -/
theorem ValueText.determined {raw : List Char} {value : Json} (form : ValueText raw value) :
    Determined raw value := by
  induction form with
  | null =>
    intro raw' value' char char' rest rest' form' _ _ _ same
    have kinds := ValueText.kind_eq .null form' same
    cases form' with
    | null => exact ⟨rfl, List.append_cancel_left same⟩
    | _ => simp [Json.kind] at kinds
  | true_ =>
    intro raw' value' char char' rest rest' form' _ _ _ same
    have kinds := ValueText.kind_eq .true_ form' same
    cases form' with
    | true_ => exact ⟨rfl, List.append_cancel_left same⟩
    | _ => simp [Json.kind] at kinds
  | false_ =>
    intro raw' value' char char' rest rest' form' _ _ _ same
    have kinds := ValueText.kind_eq .false_ form' same
    cases form' with
    | false_ => exact ⟨rfl, List.append_cancel_left same⟩
    | _ => simp [Json.kind] at kinds
  | number literal form => exact number_determined form
  | string raw text decodes => exact string_determined decodes
  | emptyArray spaces blank => exact emptyArray_determined blank
  | array items nonempty spaced values inductionHypothesis =>
    exact array_determined nonempty spaced values inductionHypothesis
  | emptyObject spaces blank => exact emptyObject_determined blank
  | object members nonempty named values inductionHypothesis =>
    exact object_determined nonempty named values inductionHypothesis

/-- A document without a backslash is a document of one value. -/
theorem Document.unique {chars : List Char} {doc doc' : Json} (noEscape : backslash ∉ chars)
    (form : Document chars doc) (form' : Document chars doc') : doc = doc' := by
  obtain ⟨before, raw, after, written, spaces, spaces', value⟩ := form
  obtain ⟨before', raw', after', written', blank, blank', value'⟩ := form'
  have spaced : (Item.mk before raw after doc).Spaced := ⟨spaces, spaces'⟩
  have spaced' : (Item.mk before' raw' after' doc').Spaced := ⟨blank, blank'⟩
  have noEscape' : backslash ∉ (Item.mk before raw after doc).text ++ [','] := by
    show backslash ∉ before ++ raw ++ after ++ [',']
    rw [← written]
    exact fun member => (List.mem_append.mp member).elim noEscape (by decide)
  have comma : ',' ∈ [',', ']', '\x7d'] := by decide
  have same : before ++ raw ++ after ++ [','] = before' ++ raw' ++ after' ++ [','] := by
    rw [← written, ← written']
  exact (Item.determined spaced spaced' value value' value.determined comma comma noEscape' same).1

/-- So is one in bytes. -/
theorem IsJson.unique {bytes : List UInt8} {doc doc' : Json} {chars : List Char}
    (encoded : utf8 chars = bytes) (noEscape : backslash ∉ chars) (form : IsJson bytes doc)
    (form' : IsJson bytes doc') : doc = doc' := by
  obtain ⟨chars', encoded', document⟩ := form
  obtain ⟨chars'', encoded'', document'⟩ := form'
  rw [utf8_inj (encoded'.trans encoded.symm)] at document
  rw [utf8_inj (encoded''.trans encoded.symm)] at document'
  exact document.unique noEscape document'

end JsonText
