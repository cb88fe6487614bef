import ProtoSchema.Declaration.Field
import ProtoSchema.Proofs.Numeral
import ProtoSchema.Proofs.Token.Lookahead

/-!
# The numbers of fields

A field number is what its numeral writes. So a field that is read has the number that stands
behind its equals sign (`exists_fieldTokens`), and every numeral of a 32-bit number can stand there
(`field_of_fieldTokens`).

Main statement: `fieldNumber_exact`, with what becomes of all other texts.
-/

namespace ProtoSchema.Declaration

open Cursor FieldNumber

variable {tokens : List Token} {ending : Except SyntaxError Token} {c c' : Cursor}

/-! ## The tokens of a field -/

/-- Six tokens that have the form of a field; any token may stand where its number belongs. -/
structure FieldTokens where
  label : Label
  labelToken : Token
  type : Token
  name : Token
  equals : Token
  number : Token
  semicolon : Token
  label_eq : labelToken.value = label.keyword
  equals_eq : equals.value = "="
  semicolon_eq : semicolon.value = ";"

namespace FieldTokens

def toList (f : FieldTokens) : List Token :=
  [f.labelToken, f.type, f.name, f.equals, f.number, f.semicolon]

/-- The field that the tokens declare, if its number is `n`. -/
def descriptor (f : FieldTokens) (n : Int32) : FieldDescriptor :=
  { name := f.name.value, number := n, label := f.label, type := .ofWord f.type.value }

end FieldTokens

/-! ## Reading the tokens of a field -/

theorem expect_of_cons {t : Token} {word : String} (h : c.Ahead (t :: tokens) ending)
    (ht : t.value = word) : ∃ c', expect word c = .ok () c' ∧ c'.Ahead tokens ending := by
  obtain ⟨c₁, hadv, hahead, -, -⟩ := advance_of_cons h
  refine ⟨c₁, ?_, hahead⟩
  rw [expect, Reading.bind_of_ok hadv, if_pos ht]
  rfl

/-- **A field whose number can be read is read with that number.** -/
theorem field_of_fieldTokens {f : FieldTokens} {n : Int32} (h : c.Ahead (f.toList ++ tokens) ending)
    (hn : ofText f.number.value = .ok n) :
    ∃ c', field c = .ok (f.descriptor n) c' ∧ c'.Ahead tokens ending := by
  obtain ⟨c₁, hadv, h₁, -, -⟩ := advance_of_cons h
  have hlabel : label c = .ok f.label c₁ := by
    rw [label, Reading.bind_of_ok hadv, f.label_eq, Label.ofKeyword?_keyword]
    rfl
  obtain ⟨c₂, htype, h₂, -, -⟩ := advance_of_cons h₁
  obtain ⟨c₃, hname, h₃, -, -⟩ := advance_of_cons h₂
  obtain ⟨c₄, hequals, h₄⟩ := expect_of_cons h₃ f.equals_eq
  obtain ⟨c₅, hadv', h₅, -, -⟩ := advance_of_cons h₄
  have hnumber : number c₄ = .ok n c₅ := by
    rw [number, Reading.bind_of_ok hadv', hn]
    rfl
  obtain ⟨c₆, hsemicolon, h₆⟩ := expect_of_cons h₅ f.semicolon_eq
  refine ⟨c₆, ?_, h₆⟩
  rw [field, Reading.bind_of_ok hlabel, Reading.bind_of_ok htype, Reading.bind_of_ok hname,
    Reading.bind_of_ok hequals, Reading.bind_of_ok hnumber, Reading.bind_of_ok hsemicolon]
  rfl

/-! ## Fields that are read -/

theorem exists_of_expect {word : String} (h : c.Ahead tokens ending)
    (hexpect : expect word c = .ok () c') (hne : word ≠ "") :
    ∃ t rest, tokens = t :: rest ∧ t.value = word ∧ c'.Ahead rest ending := by
  obtain ⟨t, c₁, hadv, hexpect⟩ := Reading.bind_eq_ok_iff.1 hexpect
  split at hexpect
  · next ht =>
    cases hexpect
    obtain ⟨rest, rfl, hahead⟩ := h.cons_of_advance hadv (ht ▸ hne)
    exact ⟨t, rest, rfl, ht, hahead⟩
  · cases hexpect

theorem exists_of_label {l : Label} (h : c.Ahead tokens ending) (hlabel : label c = .ok l c') :
    ∃ t rest, tokens = t :: rest ∧ t.value = l.keyword ∧ c'.Ahead rest ending := by
  obtain ⟨t, c₁, hadv, hlabel⟩ := Reading.bind_eq_ok_iff.1 hlabel
  cases hl : Label.ofKeyword? t.value with
  | none => simp [hl, fail] at hlabel
  | some l' =>
    simp only [hl] at hlabel
    cases hlabel
    have ht : t.value = l.keyword := Label.ofKeyword?_eq_some_iff.mp hl
    have hne : t.value ≠ "" := by
      intro heq
      rw [heq] at hl
      cases hl
    obtain ⟨rest, rfl, hahead⟩ := h.cons_of_advance hadv hne
    exact ⟨t, rest, rfl, ht, hahead⟩

theorem exists_of_number {n : Int32} (h : c.Ahead tokens ending) (hnumber : number c = .ok n c') :
    ∃ t rest, tokens = t :: rest ∧ ofText t.value = .ok n ∧ c'.Ahead rest ending := by
  obtain ⟨t, c₁, hadv, hnumber⟩ := Reading.bind_eq_ok_iff.1 hnumber
  cases hn : ofText t.value with
  | error reason => simp [hn, fail] at hnumber
  | ok n' =>
    simp only [hn] at hnumber
    cases hnumber
    have hne : t.value ≠ "" := by
      intro heq
      rw [heq] at hn
      cases hn
    obtain ⟨rest, rfl, hahead⟩ := h.cons_of_advance hadv hne
    exact ⟨t, rest, rfl, hn, hahead⟩

/-- **A field that is read has the number that stands behind its equals sign.** -/
theorem exists_fieldTokens {f : FieldDescriptor} (h : c.Ahead tokens ending)
    (hfield : field c = .ok f c') :
    ∃ (t : FieldTokens) (rest : List Token), tokens = t.toList ++ rest ∧
      f = t.descriptor f.number ∧ ofText t.number.value = .ok f.number ∧
        c'.Ahead rest ending := by
  obtain ⟨l, c₁, hlabel, hfield⟩ := Reading.bind_eq_ok_iff.1 hfield
  obtain ⟨type, c₂, htype, hfield⟩ := Reading.bind_eq_ok_iff.1 hfield
  obtain ⟨name, c₃, hname, hfield⟩ := Reading.bind_eq_ok_iff.1 hfield
  obtain ⟨_, c₄, hequals, hfield⟩ := Reading.bind_eq_ok_iff.1 hfield
  obtain ⟨n, c₅, hnumber, hfield⟩ := Reading.bind_eq_ok_iff.1 hfield
  obtain ⟨_, c₆, hsemicolon, hfield⟩ := Reading.bind_eq_ok_iff.1 hfield
  cases hfield
  obtain ⟨labelToken, rest, rfl, hlabelToken, h₁⟩ := exists_of_label h hlabel
  -- the type and the name are tokens, for otherwise no equals sign could follow
  rcases h₁.of_advance htype with ⟨rest, rfl, h₂⟩ | ⟨rfl, -, h₂⟩
  · rcases h₂.of_advance hname with ⟨rest, rfl, h₃⟩ | ⟨rfl, -, h₃⟩
    · obtain ⟨equals, rest, rfl, hequalsToken, h₄⟩ := exists_of_expect h₃ hequals (by decide)
      obtain ⟨numberToken, rest, rfl, hn, h₅⟩ := exists_of_number h₄ hnumber
      obtain ⟨semicolon, rest, rfl, hsemicolonToken, h₆⟩ :=
        exists_of_expect h₅ hsemicolon (by decide)
      exact ⟨⟨l, labelToken, type, name, equals, numberToken, semicolon, hlabelToken, hequalsToken,
        hsemicolonToken⟩, rest, rfl, rfl, hn, h₆⟩
    · obtain ⟨_, _, hnil, -, -⟩ := exists_of_expect h₃ hequals (by decide)
      cases hnil
  · rcases h₂.of_advance hname with ⟨_, hnil, -⟩ | ⟨-, -, h₃⟩
    · cases hnil
    · obtain ⟨_, _, hnil, -, -⟩ := exists_of_expect h₃ hequals (by decide)
      cases hnil

/-! ## Field numbers -/

/-- A numeral of 32 bits is read. -/
theorem exists_of_isNarrow {text : String} (h : IsNumeral text.toList)
    (hrange : IsNarrow (numeralValue text.toList)) :
    ∃ n, ofText text = .ok n ∧ n.toInt = numeralValue text.toList := by
  have hvalue : (Int32.ofInt (numeralValue text.toList)).toInt = numeralValue text.toList :=
    Int32.toInt_ofInt_of_le hrange.1 hrange.2
  exact ⟨_, ofText_eq_ok_iff.mpr ⟨h, hvalue.symm⟩, hvalue⟩

/-- **Field numbers are read exactly.** A text is read as a number if it is a numeral of 32 bits,
and then as its value; a numeral beyond that is out of range. Any other text is out of range if it
begins with a numeral beyond 64 bits; else it is empty or has a character that does not belong
there. So each numeral of a 32-bit number can stand in a field, and gives it that number, and a
field that is read has the number that its numeral writes. -/
theorem fieldNumber_exact :
    (∀ text : String,
      (∀ n, ofText text = .ok n ↔
        IsNumeral text.toList ∧ IsNarrow (numeralValue text.toList) ∧
          n.toInt = numeralValue text.toList) ∧
      (IsNumeral text.toList → IsNarrow (numeralValue text.toList) →
        ∃ n, ofText text = .ok n ∧ n.toInt = numeralValue text.toList) ∧
      (IsNumeral text.toList → ¬IsNarrow (numeralValue text.toList) →
        ofText text = .error .outOfRange) ∧
      (¬IsNumeral text.toList →
        (ofText text = .error .outOfRange ↔
          ∃ front, front <+: text.toList ∧ IsNumeral front ∧ ¬IsWide (numeralValue front)) ∧
        (ofText text ≠ .error .outOfRange →
          ofText text = .error (if text = "" then .empty else .badDigit)))) ∧
    ∀ (c : Cursor) (tokens : List Token) (ending : Except SyntaxError Token),
      (∀ (f : FieldTokens) (n : Int32), c.Ahead (f.toList ++ tokens) ending →
        IsNumeral f.number.value.toList → numeralValue f.number.value.toList = n.toInt →
          ∃ c', field c = .ok (f.descriptor n) c' ∧ c'.Ahead tokens ending) ∧
      ∀ (f : FieldDescriptor) (c' : Cursor), c.Ahead tokens ending → field c = .ok f c' →
        ∃ (t : FieldTokens) (rest : List Token), tokens = t.toList ++ rest ∧
          f = t.descriptor f.number ∧ IsNumeral t.number.value.toList ∧
            numeralValue t.number.value.toList = f.number.toInt := by
  constructor
  · intro text
    refine ⟨fun n => ⟨?_, ?_⟩, exists_of_isNarrow, ofText_of_not_isNarrow, ?_⟩
    · intro h
      obtain ⟨hnumeral, hvalue⟩ := ofText_eq_ok_iff.mp h
      refine ⟨hnumeral, ?_, hvalue.symm⟩
      rw [hvalue]
      exact ⟨n.le_toInt, n.toInt_lt⟩
    · rintro ⟨hnumeral, -, hvalue⟩
      exact ofText_eq_ok_iff.mpr ⟨hnumeral, hvalue.symm⟩
    · exact fun h => ⟨ofText_eq_outOfRange_iff h, ofText_of_not_isNumeral h⟩
  · intro c tokens ending
    constructor
    · intro f n hahead hnumeral hvalue
      exact field_of_fieldTokens hahead (ofText_eq_ok_iff.mpr ⟨hnumeral, hvalue⟩)
    · intro f c' hahead hfield
      obtain ⟨t, rest, htokens, hf, hn, -⟩ := exists_fieldTokens hahead hfield
      obtain ⟨hnumeral, hvalue⟩ := ofText_eq_ok_iff.mp hn
      exact ⟨t, rest, htokens, hf, hnumeral, hvalue⟩

end ProtoSchema.Declaration
