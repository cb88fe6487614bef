import ProtoSchema.Proofs.Grammar.Recognition
import ProtoSchema.Proofs.Token.Writing

/-!
# Rendering files

The ways in which a file descriptor may be written as a text. The order of fields is kept, and so is
that of messages, but the two may be mixed; the package may be declared anywhere; a number may be
written with a sign and with zeros in front (`BodySpelling`, `FileSpelling`); and the tokens may be
laid out in any way (`Written`).

Main statement: every descriptor whose names are tokens has a rendering, and whichever of its
renderings is parsed, the descriptor comes back (`parse_rendering`).
-/

namespace ProtoSchema

open FieldNumber Grammar Declaration

/-! ## Descriptors that can be written -/

/-- The name of a field is a token, and its type a keyword or a token that is none. -/
structure FieldDescriptor.IsPlain (f : FieldDescriptor) : Prop where
  name : IsTokenText f.name
  typeName : ∀ name, f.type = .named name → IsTokenText name
  canonical : f.type.Canonical

/-- All names in a message are tokens. -/
inductive MessageDescriptor.IsPlain : MessageDescriptor → Prop where
  | intro {m : MessageDescriptor} : IsTokenText m.name → (∀ f ∈ m.fields, f.IsPlain) →
      (∀ inner ∈ m.nested, inner.IsPlain) → m.IsPlain

/-- All names in a file are tokens. -/
structure FileDescriptor.IsPlain (file : FileDescriptor) : Prop where
  package : ∀ name ∈ file.package, IsTokenText name
  messages : ∀ m ∈ file.messages, m.IsPlain

/-! ## Spellings -/

/-- The numerals of a number: any sign and any zeros in front that denote it. -/
def Spells (numeral : String) (n : Int32) : Prop :=
  IsNumeral numeral.toList ∧ numeralValue numeral.toList = n.toInt

/-- The tokens of the body of a message with the given fields and messages. -/
inductive BodySpelling : List FieldDescriptor → List MessageDescriptor → List String → Prop where
  | nil : BodySpelling [] [] []
  | field {f : FieldDescriptor} {fields : List FieldDescriptor} {nested : List MessageDescriptor}
      {numeral : String} {words : List String} :
      Spells numeral f.number → BodySpelling fields nested words →
      BodySpelling (f :: fields) nested
        ([f.label.keyword, f.type.word, f.name, "=", numeral, ";"] ++ words)
  | message {m : MessageDescriptor} {fields : List FieldDescriptor}
      {nested : List MessageDescriptor} {inner words : List String} :
      BodySpelling m.fields m.nested inner → BodySpelling fields nested words →
      BodySpelling fields (m :: nested)
        ("message" :: m.name :: "\x7b" :: (inner ++ "\x7d" :: words))

/-- The tokens of a file with the given package and messages. -/
inductive FileSpelling : Option String → List MessageDescriptor → List String → Prop where
  | nil : FileSpelling none [] []
  | package {name : String} {messages : List MessageDescriptor} {words : List String} :
      FileSpelling none messages words →
      FileSpelling (some name) messages ("package" :: name :: ";" :: words)
  | message {package : Option String} {m : MessageDescriptor} {messages : List MessageDescriptor}
      {inner words : List String} :
      BodySpelling m.fields m.nested inner → FileSpelling package messages words →
      FileSpelling package (m :: messages)
        ("message" :: m.name :: "\x7b" :: (inner ++ "\x7d" :: words))

/-- The texts that write a file. -/
def Rendering (file : FileDescriptor) (source : String) : Prop :=
  ∃ words, FileSpelling file.package file.messages words ∧ Written false words source.toList

/-! ## Spellings are derivations -/

/-- The field that a spelling derives. -/
theorem exists_fieldWords {f : FieldDescriptor} {numeral : String} (hf : f.IsPlain)
    (h : Spells numeral f.number) :
    ∃ words : FieldWords, words.descriptor = f ∧
      words.words = [f.label.keyword, f.type.word, f.name, "=", numeral, ";"] := by
  obtain ⟨hnumeral, hvalue⟩ := h
  refine ⟨{ label := f.label, type := f.type, name := f.name, numeral, canonical := hf.canonical,
            isNumeral := hnumeral, inRange := ?_ }, ?_, rfl⟩
  · rw [hvalue]
    exact ⟨f.number.le_toInt, Int.le_of_lt_add_one f.number.toInt_lt⟩
  · have hnumber : Int32.ofInt (numeralValue numeral.toList) = f.number := by
      rw [hvalue, Int32.ofInt_toInt]
    simp only [FieldWords.descriptor, hnumber]

/-- **The spelling of a body is a derivation of its fields and messages.** -/
theorem exists_items_of_spelling (policy : UnknownContent) {fields : List FieldDescriptor}
    {nested : List MessageDescriptor} {words : List String} (h : BodySpelling fields nested words)
    (hfields : ∀ f ∈ fields, f.IsPlain) (hnested : ∀ m ∈ nested, m.IsPlain) :
    ∃ items : Items policy,
      items.words = words ∧ items.fields = fields ∧ items.nested = nested := by
  induction h with
  | nil => exact ⟨.nil, rfl, rfl, rfl⟩
  | field hnumeral _ ih =>
    rw [List.forall_mem_cons] at hfields
    obtain ⟨items, rfl, rfl, rfl⟩ := ih hfields.2 hnested
    obtain ⟨f, rfl, hwords⟩ := exists_fieldWords hfields.1 hnumeral
    exact ⟨.field f items, by rw [Items.words, hwords], rfl, rfl⟩
  | @message m _ _ _ _ _ _ ihinner ihwords =>
    rw [List.forall_mem_cons] at hnested
    obtain ⟨⟨_, hfields', hnested'⟩, hrest⟩ := hnested
    obtain ⟨inner, rfl, hinnerFields, hinnerNested⟩ := ihinner hfields' hnested'
    obtain ⟨items, rfl, rfl, rfl⟩ := ihwords hfields hrest
    obtain ⟨name, _, _⟩ := m
    exact ⟨.message name inner items, rfl, rfl, by rw [Items.nested, hinnerFields, hinnerNested]⟩

/-- **The spelling of a file is a derivation that declares it.** -/
theorem exists_derivation_of_spelling (policy : UnknownContent) {package : Option String}
    {messages : List MessageDescriptor} {words : List String}
    (h : FileSpelling package messages words) (hmessages : ∀ m ∈ messages, m.IsPlain) :
    ∃ d : Derivation policy, d.words = words ∧ d.filterMap Declared.package? = package.toList ∧
      d.filterMap Declared.message? = messages := by
  induction h with
  | nil => exact ⟨[], rfl, rfl, rfl⟩
  | package _ ih =>
    obtain ⟨d, rfl, hpackage, rfl⟩ := ih hmessages
    exact ⟨.package _ :: d, rfl, congrArg _ hpackage, rfl⟩
  | @message _ m _ _ _ hbody _ ih =>
    rw [List.forall_mem_cons] at hmessages
    obtain ⟨⟨_, hfields, hnested⟩, hrest⟩ := hmessages
    obtain ⟨d, rfl, hpackage, rfl⟩ := ih hrest
    obtain ⟨items, rfl, hitemFields, hitemNested⟩ :=
      exists_items_of_spelling policy hbody hfields hnested
    obtain ⟨name, _, _⟩ := m
    refine ⟨.message name items :: d, ?_, hpackage, ?_⟩
    · simp [Derivation.words, Declared.words]
    · simp only [List.filterMap_cons, Declared.message?, hitemFields, hitemNested]

/-! ## Every descriptor has a rendering -/

/-- A keyword is a word. -/
theorem FieldDescriptor.IsPlain.type {f : FieldDescriptor} (h : f.IsPlain) :
    IsTokenText f.type.word := by
  cases ht : f.type with
  | scalar t => exact isTokenText_of_all (by cases t <;> decide) (by cases t <;> rfl)
  | named name => exact h.typeName name ht

theorem exists_spelling (n : Int32) : ∃ numeral, Spells numeral n ∧ IsTokenText numeral := by
  obtain ⟨cs, hnumeral, hvalue, hchars⟩ := exists_numeral n.toInt
  refine ⟨String.ofList cs, ?_, Or.inr ⟨?_, ?_⟩⟩
  · rw [Spells, String.toList_ofList]
    exact ⟨hnumeral, hvalue⟩
  · intro h
    rw [String.ofList_eq_empty_iff.mp h] at hnumeral
    exact hnumeral.1 rfl
  · rw [String.toList_ofList]
    intro c hc
    rcases hchars c hc with hdigit | rfl | rfl
    · exact isWordChar_iff.mp (by simp [Scanner.isWordChar, Char.isAlphanum, hdigit])
    · decide
    · decide

/-- The keywords and symbols of messages and packages. -/
theorem isTokenText_fixed :
    ∀ w ∈ ["message", "package", "\x7b", "\x7d", "=", ";"], IsTokenText w := by
  simp only [List.forall_mem_cons]
  have hmessage : IsTokenText "message" := isTokenText_of_all (by decide) rfl
  have hpackage : IsTokenText "package" := isTokenText_of_all (by decide) rfl
  exact ⟨hmessage, hpackage, Or.inl ⟨'\x7b', by decide, rfl⟩, Or.inl ⟨'\x7d', by decide, rfl⟩,
    Or.inl ⟨'=', by decide, rfl⟩, Or.inl ⟨';', by decide, rfl⟩, by simp⟩

/-- Whether a body can be written in tokens. -/
def HasBody (fields : List FieldDescriptor) (nested : List MessageDescriptor) : Prop :=
  ∃ words, BodySpelling fields nested words ∧ ∀ w ∈ words, IsTokenText w

theorem HasBody.field {f : FieldDescriptor} {fields : List FieldDescriptor}
    {nested : List MessageDescriptor} (hf : f.IsPlain) (h : HasBody fields nested) :
    HasBody (f :: fields) nested := by
  obtain ⟨words, hwords, htext⟩ := h
  obtain ⟨numeral, hnumeral, hnumeralText⟩ := exists_spelling f.number
  refine ⟨_, .field hnumeral hwords, ?_⟩
  have hlabel : IsTokenText f.label.keyword :=
    isTokenText_of_all (by cases f.label <;> decide) (by cases f.label <;> rfl)
  rw [List.forall_mem_append]
  simp only [List.forall_mem_cons]
  exact ⟨⟨hlabel, hf.type, hf.name, isTokenText_fixed _ (by simp), hnumeralText,
    isTokenText_fixed _ (by simp), by simp⟩, htext⟩

theorem HasBody.message {m : MessageDescriptor} {fields : List FieldDescriptor}
    {nested : List MessageDescriptor} (hname : IsTokenText m.name) (hm : HasBody m.fields m.nested)
    (h : HasBody fields nested) : HasBody fields (m :: nested) := by
  obtain ⟨words, hwords, htext⟩ := h
  obtain ⟨inner, hinner, hinnerText⟩ := hm
  refine ⟨_, .message hinner hwords, ?_⟩
  simp only [List.forall_mem_cons, List.forall_mem_append]
  exact ⟨isTokenText_fixed _ (by simp), hname, isTokenText_fixed _ (by simp), hinnerText,
    isTokenText_fixed _ (by simp), htext⟩

theorem hasBody_of_forall {fields : List FieldDescriptor} {nested : List MessageDescriptor}
    (hfields : ∀ f ∈ fields, f.IsPlain)
    (hnested : ∀ m ∈ nested, IsTokenText m.name ∧ HasBody m.fields m.nested) :
    HasBody fields nested := by
  induction fields with
  | nil =>
    induction nested with
    | nil => exact ⟨[], .nil, by simp⟩
    | cons m nested ih =>
      rw [List.forall_mem_cons] at hnested
      obtain ⟨⟨hname, hbody⟩, hrest⟩ := hnested
      exact .message hname hbody (ih hrest)
  | cons f fields ih =>
    rw [List.forall_mem_cons] at hfields
    exact .field hfields.1 (ih hfields.2)

/-- **Every plain message can be written.** -/
theorem MessageDescriptor.IsPlain.hasBody {m : MessageDescriptor} (h : m.IsPlain) :
    HasBody m.fields m.nested := by
  induction h with
  | intro _ hfields hnested ih =>
    refine hasBody_of_forall hfields ?_
    intro inner hinner
    obtain ⟨hname, -, -⟩ := hnested inner hinner
    exact ⟨hname, ih inner hinner⟩

/-- Messages that follow one another, and no package. -/
theorem exists_fileSpelling {messages : List MessageDescriptor}
    (h : ∀ m ∈ messages, m.IsPlain) :
    ∃ words, FileSpelling none messages words ∧ ∀ w ∈ words, IsTokenText w := by
  induction messages with
  | nil => exact ⟨[], .nil, by simp⟩
  | cons m messages ih =>
    rw [List.forall_mem_cons] at h
    obtain ⟨words, hwords, htext⟩ := ih h.2
    obtain ⟨inner, hinner, hinnerText⟩ := h.1.hasBody
    obtain ⟨hname, -, -⟩ := h.1
    refine ⟨_, .message hinner hwords, ?_⟩
    simp only [List.forall_mem_cons, List.forall_mem_append]
    exact ⟨isTokenText_fixed _ (by simp), hname, isTokenText_fixed _ (by simp), hinnerText,
      isTokenText_fixed _ (by simp), htext⟩

/-- **Every plain file has a rendering.** -/
theorem exists_rendering {file : FileDescriptor} (h : file.IsPlain) :
    ∃ source, Rendering file source := by
  obtain ⟨words, hwords, htext⟩ := exists_fileSpelling h.messages
  -- the package is put in front of the messages
  have hall : ∃ words, FileSpelling file.package file.messages words ∧
      ∀ w ∈ words, IsTokenText w := by
    cases hpackage : file.package with
    | none => exact ⟨words, hwords, htext⟩
    | some name =>
      refine ⟨_, .package hwords, ?_⟩
      simp only [List.forall_mem_cons]
      exact ⟨isTokenText_fixed _ (by simp), h.package name hpackage, isTokenText_fixed _ (by simp),
        htext⟩
  obtain ⟨words, hwords, htext⟩ := hall
  obtain ⟨text, hwritten⟩ := exists_written htext
  refine ⟨String.ofList text, words, hwords, ?_⟩
  rw [String.toList_ofList]
  exact hwritten false

/-! ## Renderings are parsed back -/

/-- **Whichever rendering of a plain file is parsed, the file comes back.** -/
theorem parse_rendering {file : FileDescriptor} {name : String} (hname : file.name = some name)
    (hplain : file.IsPlain) :
    (∃ source, Rendering file source) ∧
      ∀ policy source, Rendering file source → parse policy name source = .ok file := by
  refine ⟨exists_rendering hplain, ?_⟩
  rintro policy source ⟨words, hspelling, hwritten⟩
  obtain ⟨d, hwords, hpackage, hmessages⟩ :=
    exists_derivation_of_spelling policy hspelling hplain.messages
  obtain ⟨hfailure, hvalues⟩ := hwritten.readAll
  rw [parse_of_derivation hfailure (hwords.trans hvalues.symm), Derivation.descriptor, hpackage,
    hmessages, ← hname]
  obtain ⟨_, package, _⟩ := file
  cases package <;> rfl

/-- A comment inside, one left open at the end, a message before a field, and a number with a sign
and a zero in front. -/
theorem parse_rendering_mixed :
    parse .reject "a" "message M//\n\x7bmessage N\x7b\x7doptional bool f=+07;\x7d//"
      = .ok { name := some "a", package := none,
              messages := [{ name := "M",
                             fields := [{ name := "f", number := 7, label := .optional,
                                          type := .scalar .bool }],
                             nested := [{ name := "N", fields := [], nested := [] }] }] } := by
  have hnumeral : Spells "+07" 7 := ⟨⟨by decide, List.all_eq_true.mp rfl⟩, by decide⟩
  have hblank : Layout [' '] := .space (by decide) .nil
  have hcomment : Layout ['/', '/', '\n'] := .comment (List.not_mem_nil) .nil
  refine (parse_rendering rfl ⟨by simp, List.forall_mem_singleton.mpr ?_⟩).2 .reject _
    ⟨_, .message (.message .nil (.field hnumeral .nil)) .nil, ?_⟩
  · refine .intro (isTokenText_of_all (by decide) rfl) ?_ ?_
    · exact List.forall_mem_singleton.mpr
        ⟨isTokenText_of_all (by decide) rfl, by simp, trivial⟩
    · exact List.forall_mem_singleton.mpr
        (.intro (isTokenText_of_all (by decide) rfl) (by simp) (by simp))
  rw [show "message M//\n\x7bmessage N\x7b\x7doptional bool f=+07;\x7d//".toList
      = [] ++ ("message".toList ++ ([' '] ++ ("M".toList ++ (['/', '/', '\n'] ++ '\x7b' ::
        ([] ++ ("message".toList ++ ([' '] ++ ("N".toList ++ ([] ++ '\x7b' :: ([] ++ '\x7d' ::
        ([] ++ ("optional".toList ++ ([' '] ++ ("bool".toList ++ ([' '] ++ ("f".toList ++
        ([] ++ '=' :: ([] ++ ("+07".toList ++ ([] ++ ';' :: ([] ++ '\x7d' ::
        ['/', '/']))))))))))))))))))))) from by decide]
  refine .word .nil (by simp) (by decide) (isWordChar_of_all rfl) ?_
  refine .word hblank (by simp) (by decide) (isWordChar_of_all rfl) ?_
  refine .symbol (c := '\x7b') hcomment (by decide) ?_
  refine .word .nil (by simp) (by decide) (isWordChar_of_all rfl) ?_
  refine .word hblank (by simp) (by decide) (isWordChar_of_all rfl) ?_
  refine .symbol (c := '\x7b') .nil (by decide) (.symbol (c := '\x7d') .nil (by decide) ?_)
  refine .word .nil (by simp) (by decide) (isWordChar_of_all rfl) ?_
  refine .word hblank (by simp) (by decide) (isWordChar_of_all rfl) ?_
  refine .word hblank (by simp) (by decide) (isWordChar_of_all rfl) ?_
  refine .symbol (c := '=') .nil (by decide) ?_
  refine .word .nil (by simp) (by decide) (isWordChar_of_all rfl) ?_
  refine .symbol (c := ';') .nil (by decide) (.symbol (c := '\x7d') .nil (by decide) (.done ?_))
  exact .opened .nil List.not_mem_nil

end ProtoSchema
