import ProtoSchema.Descriptor.Keyword
import ProtoSchema.Token.Cursor

/-!
# Reading fields and message headers

A field is a label, a type, a name, an equals sign, a number and a semicolon. A message begins with
its keyword, its name and an opening brace. Names and types may be any token.

Main statements: a header or field that was read has moved the cursor on (`weight_lt_of_header`,
`weight_lt_of_field`).
-/

namespace ProtoSchema.Declaration

open Cursor

/-- Reads one given token. -/
def expect (value : String) : Reading Unit := do
  let token ← advance
  if token.value = value then return () else fail (.unexpectedToken value token.value)

/-- Reads the start of a message up to its opening brace, and returns its name. -/
def header : Reading String := do
  expect "message"
  let name ← advance
  expect "\x7b"
  return name.value

/-- Reads the label of a field. -/
def label : Reading Label := do
  let token ← advance
  match Label.ofKeyword? token.value with
  | some l => return l
  | none => fail (.missingLabel token.value)

/-- Reads the number of a field. -/
def number : Reading Int32 := do
  let token ← advance
  match FieldNumber.ofText token.value with
  | .ok n => return n
  | .error reason => fail (.badFieldNumber token.value reason)

/-- Reads a field. -/
def field : Reading FieldDescriptor := do
  let label ← label
  let type ← advance
  let name ← advance
  expect "="
  let number ← number
  expect ";"
  return { name := name.value, number, label, type := .ofWord type.value }

/-! ## Progress -/

theorem weight_lt_of_expect {value : String} {c c' : Cursor} (h : expect value c = .ok () c')
    (hne : value ≠ "") : c'.weight < c.weight := by
  obtain ⟨t, c₁, hadv, h⟩ := Reading.bind_eq_ok_iff.1 h
  split at h
  · next heq =>
    cases h
    exact weight_lt_of_advance hadv (heq ▸ hne)
  · cases h

/-- **A header takes work off the cursor.** -/
theorem weight_lt_of_header {name : String} {c c' : Cursor} (h : header c = .ok name c') :
    c'.weight < c.weight := by
  obtain ⟨_, c₁, hkeyword, h⟩ := Reading.bind_eq_ok_iff.1 h
  obtain ⟨t, c₂, hname, h⟩ := Reading.bind_eq_ok_iff.1 h
  obtain ⟨_, c₃, hbrace, h⟩ := Reading.bind_eq_ok_iff.1 h
  cases h
  calc c'.weight < c₂.weight := weight_lt_of_expect hbrace (by decide)
    _ ≤ c₁.weight := (weight_le_of_advance hname).1
    _ ≤ c.weight := Nat.le_of_lt (weight_lt_of_expect hkeyword (by decide))

theorem weight_le_of_label {l : Label} {c c' : Cursor} (h : label c = .ok l c') :
    c'.weight ≤ c.weight := by
  obtain ⟨t, c₁, hadv, h⟩ := Reading.bind_eq_ok_iff.1 h
  cases hl : Label.ofKeyword? t.value with
  | none => simp [hl, fail] at h
  | some l =>
    simp only [hl] at h
    cases h
    exact (weight_le_of_advance hadv).1

theorem weight_le_of_number {n : Int32} {c c' : Cursor} (h : number c = .ok n c') :
    c'.weight ≤ c.weight := by
  obtain ⟨t, c₁, hadv, h⟩ := Reading.bind_eq_ok_iff.1 h
  cases hn : FieldNumber.ofText t.value with
  | error reason => simp [hn, fail] at h
  | ok n =>
    simp only [hn] at h
    cases h
    exact (weight_le_of_advance hadv).1

/-- **A field takes work off the cursor.** -/
theorem weight_lt_of_field {f : FieldDescriptor} {c c' : Cursor} (h : field c = .ok f c') :
    c'.weight < c.weight := by
  obtain ⟨l, c₁, hlabel, h⟩ := Reading.bind_eq_ok_iff.1 h
  obtain ⟨type, c₂, htype, h⟩ := Reading.bind_eq_ok_iff.1 h
  obtain ⟨name, c₃, hname, h⟩ := Reading.bind_eq_ok_iff.1 h
  obtain ⟨_, c₄, hequals, h⟩ := Reading.bind_eq_ok_iff.1 h
  obtain ⟨n, c₅, hnumber, h⟩ := Reading.bind_eq_ok_iff.1 h
  obtain ⟨_, c₆, hsemicolon, h⟩ := Reading.bind_eq_ok_iff.1 h
  cases h
  calc c'.weight < c₅.weight := weight_lt_of_expect hsemicolon (by decide)
    _ ≤ c₄.weight := weight_le_of_number hnumber
    _ ≤ c₃.weight := Nat.le_of_lt (weight_lt_of_expect hequals (by decide))
    _ ≤ c₂.weight := (weight_le_of_advance hname).1
    _ ≤ c₁.weight := (weight_le_of_advance htype).1
    _ ≤ c.weight := weight_le_of_label hlabel

end ProtoSchema.Declaration
