import ProtoSchema.Declaration.Message
import ProtoSchema.Proofs.Numeral

/-!
# The grammar of schema files

A file is a sequence of package declarations and messages; the body of a message is a sequence of
fields, messages and, where unknown content is skipped, other tokens:

    file    := ( 'package' T ';' | message )*
    message := 'message' T '{' item* '}'
    item    := field | message | U
    field   := L T T '=' N ';'

`T` is any token, `L` a label, `N` a numeral in the 32-bit range and `U` a token that begins no
field and no message and closes no body. The types of this module are the derivations of this
grammar: their values hold the tokens that the grammar leaves open, `words` lists all tokens in
order, and `descriptor` is the file that a derivation declares.

Main statement: a list of tokens has at most one derivation (`Derivation.words_injective`).
-/

namespace ProtoSchema

/-! ## Types -/

namespace FieldType

/-- The word that is written for a type. -/
def word : FieldType → String
  | .scalar t => t.keyword
  | .named name => name

/-- A type is a name only where no keyword has it. -/
def Canonical : FieldType → Prop
  | .scalar _ => True
  | .named name => ∀ t : ScalarType, name ≠ t.keyword

/-- **Every word is read as the one type that is written so.** -/
theorem ofWord_eq_iff {word : String} {type : FieldType} :
    ofWord word = type ↔ type.Canonical ∧ type.word = word := by
  cases ht : ScalarType.ofKeyword? word with
  | some t =>
    have hword : word = t.keyword := ScalarType.ofKeyword?_eq_some_iff.mp ht
    simp only [ofWord, ht]
    constructor
    · rintro rfl
      exact ⟨trivial, hword.symm⟩
    · rintro ⟨hcanonical, rfl⟩
      cases type with
      | scalar t' =>
        have hsome : ScalarType.ofKeyword? t'.keyword = some t' := ScalarType.ofKeyword?_keyword t'
        rw [show FieldType.word (.scalar t') = t'.keyword from rfl, hsome] at ht
        rw [Option.some.inj ht]
      | named name => exact absurd hword (hcanonical t)
  | none =>
    simp only [ofWord, ht]
    constructor
    · rintro rfl
      refine ⟨?_, rfl⟩
      rintro t rfl
      simp at ht
    · rintro ⟨-, rfl⟩
      cases type with
      | scalar t => simp [FieldType.word] at ht
      | named name => rfl

end FieldType

end ProtoSchema

namespace ProtoSchema.Grammar

open FieldNumber

/-! ## Fields -/

/-- The tokens of a field that the grammar leaves open. -/
@[ext]
structure FieldWords where
  label : Label
  type : FieldType
  name : String
  numeral : String
  canonical : type.Canonical
  isNumeral : IsNumeral numeral.toList
  inRange : -2147483648 ≤ numeralValue numeral.toList ∧
    numeralValue numeral.toList ≤ 2147483647

namespace FieldWords

def words (f : FieldWords) : List String :=
  [f.label.keyword, f.type.word, f.name, "=", f.numeral, ";"]

def descriptor (f : FieldWords) : FieldDescriptor :=
  { name := f.name, number := Int32.ofInt (numeralValue f.numeral.toList), label := f.label,
    type := f.type }

end FieldWords

/-! ## Bodies -/

variable {policy : UnknownContent}

/-- A token that is skipped in a body. -/
@[ext]
structure OtherWord (policy : UnknownContent) where
  word : String
  skipped : policy = .skip
  ne_label : ∀ l : Label, word ≠ l.keyword
  ne_message : word ≠ "message"
  ne_close : word ≠ "\x7d"

/-- The items of a body. -/
inductive Items (policy : UnknownContent) where
  | nil
  | field (f : FieldWords) (rest : Items policy)
  | message (name : String) (inner rest : Items policy)
  | other (word : OtherWord policy) (rest : Items policy)

namespace Items

def words : Items policy → List String
  | .nil => []
  | .field f rest => f.words ++ rest.words
  | .message name inner rest =>
    "message" :: name :: "\x7b" :: (inner.words ++ "\x7d" :: rest.words)
  | .other w rest => w.word :: rest.words

def fields : Items policy → List FieldDescriptor
  | .nil => []
  | .field f rest => f.descriptor :: rest.fields
  | .message _ _ rest => rest.fields
  | .other _ rest => rest.fields

def nested : Items policy → List MessageDescriptor
  | .nil => []
  | .field _ rest => rest.nested
  | .message name inner rest =>
    { name, fields := inner.fields, nested := inner.nested } :: rest.nested
  | .other _ rest => rest.nested

end Items

/-! ## Files -/

/-- A declaration of a file. -/
inductive Declared (policy : UnknownContent) where
  | package (name : String)
  | message (name : String) (items : Items policy)

namespace Declared

def words : Declared policy → List String
  | .package name => ["package", name, ";"]
  | .message name items => "message" :: name :: "\x7b" :: (items.words ++ ["\x7d"])

def package? : Declared policy → Option String
  | .package name => some name
  | .message _ _ => none

def message? : Declared policy → Option MessageDescriptor
  | .package _ => none
  | .message name items => some { name, fields := items.fields, nested := items.nested }

end Declared

/-- A file by its declarations. -/
abbrev Derivation (policy : UnknownContent) := List (Declared policy)

namespace Derivation

def words (d : Derivation policy) : List String := d.flatMap Declared.words

/-- The file that is declared: the last package counts, and every message. -/
def descriptor (d : Derivation policy) (name : String) : FileDescriptor :=
  { name := some name, package := (d.filterMap Declared.package?).getLast?,
    messages := d.filterMap Declared.message? }

end Derivation

/-! ## Unique derivations -/

theorem keyword_ne_message (l : Label) : l.keyword ≠ "message" := by
  cases l <;> decide

theorem close_ne_message : "\x7d" ≠ "message" := by decide

theorem keyword_ne_close (l : Label) : l.keyword ≠ "\x7d" := by
  cases l <;> decide

/-- The first token behind which the items of a body and its closing brace go on. -/
def Items.head : Items policy → String
  | .nil => "\x7d"
  | .field f _ => f.label.keyword
  | .message _ _ _ => "message"
  | .other w _ => w.word

theorem Items.exists_words_eq (items : Items policy) (rest : List String) :
    ∃ more, items.words ++ "\x7d" :: rest = items.head :: more := by
  cases items <;> exact ⟨_, rfl⟩

theorem Items.head_eq {items items' : Items policy} {rest rest' : List String}
    (h : items.words ++ "\x7d" :: rest = items'.words ++ "\x7d" :: rest') :
    items.head = items'.head := by
  obtain ⟨more, hmore⟩ := items.exists_words_eq rest
  obtain ⟨more', hmore'⟩ := items'.exists_words_eq rest'
  rw [hmore, hmore'] at h
  exact (List.cons.inj h).1

/-- **The tokens of a body, up to the brace that closes it, have one derivation.** -/
theorem Items.words_append_injective {items items' : Items policy} {rest rest' : List String}
    (h : items.words ++ "\x7d" :: rest = items'.words ++ "\x7d" :: rest') :
    items = items' ∧ rest = rest' := by
  -- the first token tells which kind of item comes next, so both lists begin with the same kind
  have hhead := head_eq h
  induction items generalizing items' rest rest' with
  | nil =>
    cases items' with
    | nil => exact ⟨rfl, (List.cons.inj h).2⟩
    | field f' more' => exact absurd hhead.symm (keyword_ne_close f'.label)
    | message name' inner' more' => exact absurd hhead close_ne_message
    | other w' more' => exact absurd hhead.symm w'.ne_close
  | field f more ih =>
    cases items' with
    | nil => exact absurd hhead (keyword_ne_close f.label)
    | field f' more' =>
      simp only [words, FieldWords.words, List.cons_append, List.nil_append, List.cons.injEq,
        true_and] at h
      obtain ⟨hlabel, hword, hname, hnumeral, h⟩ := h
      obtain ⟨rfl, rfl⟩ := ih h (head_eq h)
      have htype : f.type = f'.type := by
        have h := FieldType.ofWord_eq_iff.mpr ⟨f.canonical, hword⟩
        rw [FieldType.ofWord_eq_iff.mpr ⟨f'.canonical, rfl⟩] at h
        exact h.symm
      have hlabel : f.label = f'.label := by
        have h := Label.ofKeyword?_keyword f.label
        rw [hlabel, Label.ofKeyword?_keyword] at h
        exact (Option.some.inj h).symm
      exact ⟨congrArg (fun f => field f more) (FieldWords.ext hlabel htype hname hnumeral), rfl⟩
    | message name' inner' more' => exact absurd hhead (keyword_ne_message f.label)
    | other w' more' => exact absurd hhead.symm (w'.ne_label f.label)
  | message name inner more ihinner ihmore =>
    cases items' with
    | nil => exact absurd hhead.symm close_ne_message
    | field f' more' => exact absurd hhead.symm (keyword_ne_message f'.label)
    | message name' inner' more' =>
      simp only [words, List.cons_append, List.append_assoc, List.cons.injEq, true_and] at h
      obtain ⟨rfl, h⟩ := h
      obtain ⟨rfl, hmore⟩ := ihinner h (head_eq h)
      obtain ⟨rfl, rfl⟩ := ihmore hmore (head_eq hmore)
      exact ⟨rfl, rfl⟩
    | other w' more' => exact absurd hhead.symm w'.ne_message
  | other w more ih =>
    cases items' with
    | nil => exact absurd hhead w.ne_close
    | field f' more' => exact absurd hhead (w.ne_label f'.label)
    | message name' inner' more' => exact absurd hhead w.ne_message
    | other w' more' =>
      obtain ⟨rfl, rfl⟩ := ih (List.cons.inj h).2 (head_eq (List.cons.inj h).2)
      exact ⟨congrArg (fun w => other w more) (OtherWord.ext hhead), rfl⟩

/-- **A list of tokens has at most one derivation.** -/
theorem Derivation.words_injective {d d' : Derivation policy} (h : words d = words d') :
    d = d' := by
  induction d generalizing d' with
  | nil =>
    rcases d' with _ | ⟨⟨_⟩ | ⟨_, _⟩, d'⟩
    · rfl
    · simp [words, Declared.words] at h
    · simp [words, Declared.words] at h
  | cons a d ih =>
    rcases a with name | ⟨name, items⟩
    · rcases d' with _ | ⟨name' | ⟨name', items'⟩, d'⟩
      · simp [words, Declared.words] at h
      · simp only [words, Declared.words, List.flatMap_cons, List.cons_append, List.nil_append,
          List.cons.injEq, true_and] at h
        obtain ⟨rfl, h⟩ := h
        rw [ih h]
      · exact absurd (List.cons.inj h).1 (by decide)
    · rcases d' with _ | ⟨name' | ⟨name', items'⟩, d'⟩
      · simp [words, Declared.words] at h
      · exact absurd (List.cons.inj h).1 (by decide)
      · simp only [words, Declared.words, List.flatMap_cons, List.cons_append, List.nil_append,
          List.append_assoc, List.cons.injEq, true_and] at h
        obtain ⟨rfl, h⟩ := h
        obtain ⟨rfl, hrest⟩ := Items.words_append_injective h
        rw [ih hrest]

end ProtoSchema.Grammar
