import ProtoSchema.Proofs.Declaration.Drive
import ProtoSchema.Proofs.Grammar.Derivation

/-!
# The parser recognises the grammar

A text is parsed exactly if its tokens have a derivation, and the file that is returned is the one
that the derivation declares (`parse_eq_ok_iff`).

One direction runs the machine over a derivation (`steps_items`, `steps_words`): it stands where
the derivation says, whatever comes behind. The other reads a derivation off a run that comes back
to where declarations begin (`exists_items`, `exists_derivation`), by induction on the number of
tokens, since the messages around an item are held in a list and not by the recursion.
-/

namespace ProtoSchema

open Grammar Declaration

variable {policy : UnknownContent}

/-! ## What a derivation adds to a draft -/

/-- Adds the fields and messages of a body. -/
def MessageDraft.addItems (d : MessageDraft) (items : Items policy) : MessageDraft :=
  { d with fields := d.fields ++ items.fields.toArray, nested := d.nested ++ items.nested.toArray }

/-- Adds a declaration. -/
def FileDraft.declare (file : FileDraft) : Declared policy → FileDraft
  | .package name => file.setPackage name
  | .message name items => file.addMessage (MessageDraft.addItems (.named name) items).finish

namespace MessageDraft

theorem addItems_nil (d : MessageDraft) : d.addItems (.nil : Items policy) = d := by
  simp [addItems, Items.fields, Items.nested]

theorem addItems_field (d : MessageDraft) (f : FieldWords) (rest : Items policy) :
    d.addItems (.field f rest) = (d.addField f.descriptor).addItems rest := by
  simp [addItems, addField, Items.fields, Items.nested]

theorem addItems_message (d : MessageDraft) (name : String) (inner rest : Items policy) :
    d.addItems (.message name inner rest)
      = (d.addNested (addItems (.named name) inner).finish).addItems rest := by
  simp [addItems, addNested, named, finish, Items.fields, Items.nested]

theorem addItems_other (d : MessageDraft) (w : OtherWord policy) (rest : Items policy) :
    d.addItems (.other w rest) = d.addItems rest := rfl

theorem finish_addItems_named (name : String) (items : Items policy) :
    (addItems (.named name) items).finish
      = { name, fields := items.fields, nested := items.nested } := by
  simp [addItems, named, finish]

end MessageDraft

/-- **A file to which all declarations are added is the one that they declare.** -/
theorem FileDraft.finish_foldl_declare (file : FileDraft) (d : Derivation policy) :
    (d.foldl declare file).finish
      = { name := file.name, package := (d.filterMap Declared.package?).getLast?.or file.package,
          messages := file.messages.toList ++ d.filterMap Declared.message? } := by
  induction d generalizing file with
  | nil => simp [finish]
  | cons a d ih =>
    -- what is declared first is overruled by a later package, and stands before later messages
    rw [List.foldl_cons, ih]
    rcases a with name | ⟨name, items⟩
    · simp only [List.filterMap_cons, Declared.package?, Declared.message?, List.getLast?_cons]
      cases (d.filterMap Declared.package?).getLast? <;> rfl
    · simp [declare, addMessage, Declared.package?, Declared.message?,
        MessageDraft.finish_addItems_named]

/-! ## Running a derivation -/

namespace Declaration.Stage

/-- **The tokens of a field add it.** -/
theorem steps_field (file : FileDraft) (n : Nesting) (f : FieldWords) (rest : List String) :
    steps policy ⟨file, .item n⟩ (f.words ++ rest)
      = steps policy ⟨file, .item (n.addField f.descriptor)⟩ rest := by
  have hnumber : FieldNumber.ofText f.numeral = .ok f.descriptor.number := by
    refine FieldNumber.ofText_eq_ok_iff.mpr ⟨f.isNumeral, (Int32.toInt_ofInt_of_le ?_ ?_).symm⟩
    · exact f.inRange.1
    · exact Int.lt_of_le_of_lt f.inRange.2 (by decide)
  have hlabel : Label.ofKeyword? f.label.keyword = some f.label := Label.ofKeyword?_keyword f.label
  have hstart : step policy ⟨file, .item n⟩ f.label.keyword = .ok ⟨file, .fieldType n f.label⟩ := by
    simp only [step, hlabel]
  have htype : step policy ⟨file, .fieldType n f.label⟩ f.type.word
      = .ok ⟨file, .fieldName n f.label f.type⟩ := by
    have hword : FieldType.ofWord f.type.word = f.type :=
      FieldType.ofWord_eq_iff.mpr ⟨f.canonical, rfl⟩
    simp only [step, hword]
  have hend : step policy ⟨file, .fieldNumber n f.label f.type f.name⟩ f.numeral
      = .ok ⟨file, .fieldEnd n f.descriptor⟩ := by
    simp only [step, hnumber]
    rfl
  calc steps policy ⟨file, .item n⟩ (f.words ++ rest)
      = steps policy ⟨file, .fieldType n f.label⟩
          (f.type.word :: f.name :: "=" :: f.numeral :: ";" :: rest) := steps_cons hstart
    _ = steps policy ⟨file, .fieldName n f.label f.type⟩
          (f.name :: "=" :: f.numeral :: ";" :: rest) := steps_cons htype
    _ = steps policy ⟨file, .fieldEquals n f.label f.type f.name⟩
          ("=" :: f.numeral :: ";" :: rest) := steps_cons rfl
    _ = steps policy ⟨file, .fieldNumber n f.label f.type f.name⟩
          (f.numeral :: ";" :: rest) := steps_cons rfl
    _ = steps policy ⟨file, .fieldEnd n f.descriptor⟩ (";" :: rest) := steps_cons hend
    _ = steps policy ⟨file, .item (n.addField f.descriptor)⟩ rest := steps_cons rfl

/-- The name and the brace open a message inside those around it. -/
theorem steps_header (file : FileDraft) (around : List MessageDraft) (name : String)
    (rest : List String) :
    steps policy ⟨file, .messageName around⟩ (name :: "\x7b" :: rest)
      = steps policy ⟨file, .item ⟨.named name, around⟩⟩ rest :=
  calc steps policy ⟨file, .messageName around⟩ (name :: "\x7b" :: rest)
      = steps policy ⟨file, .messageStart name around⟩ ("\x7b" :: rest) := steps_cons rfl
    _ = steps policy ⟨file, .item ⟨.named name, around⟩⟩ rest := steps_cons rfl

theorem step_other (file : FileDraft) (n : Nesting) (w : OtherWord policy) :
    step policy ⟨file, .item n⟩ w.word = .ok ⟨file, .item n⟩ := by
  obtain ⟨word, rfl, hlabel, hmessage, hclose⟩ := w
  have hnone : Label.ofKeyword? word = none := by
    cases h : Label.ofKeyword? word with
    | none => rfl
    | some l => exact absurd (Label.ofKeyword?_eq_some_iff.mp h) (hlabel l)
  simp only [step, hnone, if_neg hmessage, if_neg hclose]

/-- **The tokens of a body add its fields and messages to the innermost open message.** -/
theorem steps_items (file : FileDraft) (n : Nesting) (items : Items policy) (rest : List String) :
    steps policy ⟨file, .item n⟩ (items.words ++ rest)
      = steps policy ⟨file, .item ⟨n.innermost.addItems items, n.enclosing⟩⟩ rest := by
  induction items generalizing n rest with
  | nil =>
    rw [MessageDraft.addItems_nil]
    rfl
  | field f more ih =>
    rw [Items.words, List.append_assoc, steps_field, ih, MessageDraft.addItems_field]
    rfl
  | message name inner more ihinner ihmore =>
    -- inside, one more message is open: the hypothesis is used for another nesting
    have hclose : step policy ⟨file, .item ⟨.addItems (.named name) inner,
        n.innermost :: n.enclosing⟩⟩ "\x7d" = .ok ⟨file, .item ⟨n.innermost.addNested
          (MessageDraft.addItems (.named name) inner).finish, n.enclosing⟩⟩ := rfl
    calc steps policy ⟨file, .item n⟩ ((Items.message name inner more).words ++ rest)
        = steps policy ⟨file, .messageName (n.innermost :: n.enclosing)⟩
            (name :: "\x7b" :: (inner.words ++ "\x7d" :: more.words ++ rest)) := steps_cons rfl
      _ = steps policy ⟨file, .item ⟨.named name, n.innermost :: n.enclosing⟩⟩
            (inner.words ++ "\x7d" :: more.words ++ rest) := steps_header ..
      _ = steps policy ⟨file, .item ⟨.addItems (.named name) inner, n.innermost :: n.enclosing⟩⟩
            ("\x7d" :: (more.words ++ rest)) := by
        rw [List.append_assoc, ihinner]
        rfl
      _ = _ := by
        rw [steps_cons hclose, ihmore, MessageDraft.addItems_message]
  | other w more ih =>
    rw [Items.words, List.cons_append, steps_cons (step_other file n w), ih,
      MessageDraft.addItems_other]

/-- **The tokens of a declaration add it to the file.** -/
theorem steps_declared (file : FileDraft) (a : Declared policy) (rest : List String) :
    steps policy ⟨file, .declaration⟩ (a.words ++ rest)
      = steps policy ⟨file.declare a, .declaration⟩ rest := by
  cases a with
  | package name =>
    calc steps policy ⟨file, .declaration⟩ ("package" :: name :: ";" :: rest)
        = steps policy ⟨file, .packageName⟩ (name :: ";" :: rest) := steps_cons rfl
      _ = steps policy ⟨file.setPackage name, .packageEnd⟩ (";" :: rest) := steps_cons rfl
      _ = steps policy ⟨file.setPackage name, .declaration⟩ rest := steps_cons rfl
  | message name items =>
    calc steps policy ⟨file, .declaration⟩
          ("message" :: name :: "\x7b" :: (items.words ++ ["\x7d"]) ++ rest)
        = steps policy ⟨file, .messageName []⟩
            (name :: "\x7b" :: (items.words ++ ["\x7d"] ++ rest)) := steps_cons rfl
      _ = steps policy ⟨file, .item (.outermost name)⟩ (items.words ++ ["\x7d"] ++ rest) :=
        steps_header ..
      _ = steps policy ⟨file, .item ⟨.addItems (.named name) items, []⟩⟩ ("\x7d" :: rest) := by
        rw [List.append_assoc, steps_items]
        rfl
      _ = _ := steps_cons rfl

/-- **The tokens of a derivation lead back to where declarations begin.** -/
theorem steps_words (file : FileDraft) (d : Derivation policy) :
    steps policy ⟨file, .declaration⟩ d.words
      = .ok ⟨d.foldl FileDraft.declare file, .declaration⟩ := by
  induction d generalizing file with
  | nil => rfl
  | cons a d ih =>
    rw [Derivation.words, List.flatMap_cons, steps_declared]
    exact ih (file.declare a)

/-! ## Reading a derivation off a run -/

theorem exists_cons_of_steps {s last : Stage} {words : List String}
    (h : s.steps policy words = .ok last) (hne : s.expecting ≠ last.expecting) :
    ∃ word rest next, words = word :: rest ∧ s.step policy word = .ok next ∧
      next.steps policy rest = .ok last := by
  cases words with
  | nil =>
    rw [steps_nil] at h
    cases h
    exact absurd rfl hne
  | cons word rest =>
    obtain ⟨next, hstep, hrest⟩ := steps_cons_eq_ok_iff.mp h
    exact ⟨word, rest, next, rfl, hstep, hrest⟩

theorem eq_of_take {next s : Stage} {expected word : String}
    (h : next.take expected word = .ok s) : word = expected ∧ s = next := by
  unfold take at h
  split at h
  · next heq =>
    cases h
    exact ⟨heq, rfl⟩
  · cases h

theorem exists_header {file file' : FileDraft} {around : List MessageDraft} {words : List String}
    (h : steps policy ⟨file, .messageName around⟩ words = .ok ⟨file', .declaration⟩) :
    ∃ name rest, words = name :: "\x7b" :: rest := by
  obtain ⟨name, _, _, rfl, ⟨⟩, h⟩ := exists_cons_of_steps h (by simp)
  obtain ⟨brace, rest, _, rfl, hbrace, -⟩ := exists_cons_of_steps h (by simp)
  obtain ⟨rfl, -⟩ := eq_of_take hbrace
  exact ⟨name, rest, rfl⟩

/-- **Behind a label, a run that comes to its end has read a field.** -/
theorem exists_field {file file' : FileDraft} {n : Nesting} {l : Label} {words : List String}
    (h : steps policy ⟨file, .fieldType n l⟩ words = .ok ⟨file', .declaration⟩) :
    ∃ (f : FieldWords) (rest : List String), l.keyword :: words = f.words ++ rest := by
  obtain ⟨type, _, _, rfl, ⟨⟩, h⟩ := exists_cons_of_steps h (by simp)
  obtain ⟨name, _, _, rfl, ⟨⟩, h⟩ := exists_cons_of_steps h (by simp)
  obtain ⟨equals, _, _, rfl, hequals, h⟩ := exists_cons_of_steps h (by simp)
  obtain ⟨rfl, rfl⟩ := eq_of_take hequals
  obtain ⟨numeral, _, s, rfl, hnumeral, h⟩ := exists_cons_of_steps h (by simp)
  cases hnumber : FieldNumber.ofText numeral with
  | error reason => simp [step, hnumber] at hnumeral
  | ok number =>
    obtain ⟨isNumeral, hvalue⟩ := FieldNumber.ofText_eq_ok_iff.mp hnumber
    simp only [step, hnumber] at hnumeral
    cases hnumeral
    obtain ⟨semicolon, rest, _, rfl, hsemicolon, -⟩ := exists_cons_of_steps h (by simp)
    obtain ⟨rfl, -⟩ := eq_of_take hsemicolon
    obtain ⟨canonical, hword⟩ := FieldType.ofWord_eq_iff.mp (rfl : _ = FieldType.ofWord type)
    have inRange : -2147483648 ≤ FieldNumber.numeralValue numeral.toList ∧
        FieldNumber.numeralValue numeral.toList ≤ 2147483647 := by
      rw [hvalue]
      exact ⟨number.le_toInt, Int.le_of_lt_add_one number.toInt_lt⟩
    refine ⟨{ label := l, type := .ofWord type, name, numeral, canonical, isNumeral, inRange },
      rest, ?_⟩
    rw [FieldWords.words, hword]
    rfl

/-- **Inside a message, a run that comes to its end has read the rest of a body.** -/
theorem exists_items {file file' : FileDraft} {n : Nesting} {words : List String}
    (h : steps policy ⟨file, .item n⟩ words = .ok ⟨file', .declaration⟩) :
    ∃ (items : Items policy) (rest : List String), words = items.words ++ "\x7d" :: rest := by
  -- an inner body and what follows it are both shorter, but neither is a tail of the other
  induction hlen : words.length using Nat.strongRecOn generalizing n words with
  | _ k ih =>
    subst hlen
    obtain ⟨word, rest, next, rfl, hstep, hrest⟩ := exists_cons_of_steps h (by simp)
    cases hlabel : Label.ofKeyword? word with
    | some l =>
      simp only [step, hlabel] at hstep
      cases hstep
      obtain ⟨f, more, hfield⟩ := exists_field hrest
      have hword : word = l.keyword := Label.ofKeyword?_eq_some_iff.mp hlabel
      rw [hword, hfield, steps_field] at h
      have hlt : more.length < (word :: rest).length := by
        rw [hword, hfield, List.length_append]
        exact Nat.lt_add_of_pos_left (by simp [FieldWords.words])
      obtain ⟨items, rest', rfl⟩ := ih _ hlt h rfl
      exact ⟨.field f items, rest', by rw [hword, hfield, Items.words, List.append_assoc]⟩
    | none =>
      simp only [step, hlabel] at hstep
      by_cases hmessage : word = "message"
      · rw [if_pos hmessage] at hstep
        cases hstep
        subst hmessage
        obtain ⟨name, inside, rfl⟩ := exists_header hrest
        rw [steps_header] at hrest
        have hinside : inside.length < ("message" :: name :: "\x7b" :: inside).length := by
          simp only [List.length_cons]
          omega
        obtain ⟨inner, more, rfl⟩ := ih inside.length hinside hrest rfl
        -- the inner body is read as a whole, so the run goes on behind its brace
        rw [steps_items, steps_cons rfl] at hrest
        obtain ⟨items, rest', rfl⟩ := ih more.length (by simp; omega) hrest rfl
        exact ⟨.message name inner items, rest', by simp [Items.words]⟩
      · rw [if_neg hmessage] at hstep
        by_cases hclose : word = "\x7d"
        · subst hclose
          exact ⟨.nil, rest, rfl⟩
        · rw [if_neg hclose] at hstep
          cases policy with
          | reject => cases hstep
          | skip =>
            cases hstep
            obtain ⟨items, rest', rfl⟩ := ih rest.length (by simp) hrest rfl
            have hne : ∀ l : Label, word ≠ l.keyword := by
              rintro l rfl
              simp at hlabel
            exact ⟨.other ⟨word, rfl, hne, hmessage, hclose⟩ items, rest', rfl⟩

/-- **Between declarations, a run that comes to its end has read declarations.** -/
theorem exists_derivation {file file' : FileDraft} {words : List String}
    (h : steps policy ⟨file, .declaration⟩ words = .ok ⟨file', .declaration⟩) :
    ∃ d : Derivation policy, d.words = words := by
  induction hlen : words.length using Nat.strongRecOn generalizing file words with
  | _ k ih =>
    subst hlen
    cases words with
    | nil => exact ⟨[], rfl⟩
    | cons word rest =>
      by_cases hpackage : word = "package"
      · subst hpackage
        rw [steps_cons rfl] at h
        obtain ⟨name, _, _, rfl, ⟨⟩, h⟩ := exists_cons_of_steps h (by simp)
        obtain ⟨semicolon, more, _, rfl, hsemicolon, h⟩ := exists_cons_of_steps h (by simp)
        obtain ⟨rfl, rfl⟩ := eq_of_take hsemicolon
        obtain ⟨d, rfl⟩ := ih more.length (by simp only [List.length_cons]; omega) h rfl
        exact ⟨.package name :: d, rfl⟩
      · by_cases hmessage : word = "message"
        · subst hmessage
          rw [steps_cons rfl] at h
          obtain ⟨name, inside, rfl⟩ := exists_header h
          rw [steps_header] at h
          obtain ⟨items, more, rfl⟩ := exists_items h
          rw [steps_items, steps_cons rfl] at h
          obtain ⟨d, rfl⟩ := ih more.length (by simp; omega) h rfl
          refine ⟨.message name items :: d, ?_⟩
          simp [Derivation.words, Declared.words]
        · have hstep : step policy ⟨file, .declaration⟩ word
              = .error (.unknownDeclaration word) := by
            simp only [step, if_neg hpackage, if_neg hmessage]
          rw [steps_cons_error hstep] at h
          cases h

end Declaration.Stage

/-! ## Recognition -/

theorem finish_declare_named (d : Derivation policy) (name : String) :
    (d.foldl FileDraft.declare (.named name)).finish = d.descriptor name := by
  rw [FileDraft.finish_foldl_declare, Derivation.descriptor]
  simp [FileDraft.named]

/-- **A text whose tokens have a derivation is parsed to the file that it declares.** -/
theorem parse_of_derivation {name source : String} {d : Derivation policy}
    (hfailure : (Scanner.ofSource source).readAll.failure = none)
    (hwords : d.words = (Scanner.ofSource source).readAll.tokens.map Token.value) :
    parse policy name source = .ok (d.descriptor name) := by
  have hending : (Scanner.ofSource source).readAll.ending
      = .ok (Scanner.ofSource source).readAll.final.endToken := by
    rw [Scanner.Scan.ending, hfailure]
  refine parse_eq_ok_iff_drive.mpr ⟨d.foldl FileDraft.declare (.named name), ?_, ?_⟩
  · exact drive_eq_ok_iff.mpr ⟨⟨_, hending⟩, hwords ▸ Stage.steps_words _ d⟩
  · exact finish_declare_named d name

/-- **The tokens of a text that is parsed have a derivation.** -/
theorem exists_derivation_of_parse {name source : String} {F : FileDescriptor}
    (h : parse policy name source = .ok F) :
    (Scanner.ofSource source).readAll.failure = none ∧
      ∃ d : Derivation policy,
        d.words = (Scanner.ofSource source).readAll.tokens.map Token.value ∧
          F = d.descriptor name := by
  obtain ⟨file, hdrive, rfl⟩ := parse_eq_ok_iff_drive.mp h
  obtain ⟨⟨last, hending⟩, hsteps⟩ := drive_eq_ok_iff.mp hdrive
  obtain ⟨d, hwords⟩ := Stage.exists_derivation hsteps
  rw [← hwords, Stage.steps_words] at hsteps
  cases hsteps
  exact ⟨(Scanner.Scan.failure_of_ending_ok hending).1, d, hwords, finish_declare_named d name⟩

/-- A file has the name under which it is parsed. -/
theorem name_of_parse {name source : String} {F : FileDescriptor}
    (h : parse policy name source = .ok F) : F.name = some name := by
  obtain ⟨-, d, -, rfl⟩ := exists_derivation_of_parse h
  rfl

/-- **The parser accepts exactly the grammar, and returns the file that is declared.** A text is
parsed exactly if it is scanned without an error and its tokens have a derivation; this derivation
is the only one, and the result is the file that it declares. -/
theorem parse_eq_ok_iff (policy : UnknownContent) (name source : String) (F : FileDescriptor) :
    parse policy name source = .ok F ↔
      (Scanner.ofSource source).readAll.failure = none ∧
        ∃ d : Derivation policy,
          d.words = (Scanner.ofSource source).readAll.tokens.map Token.value ∧
          F = d.descriptor name ∧
          ∀ d' : Derivation policy,
            d'.words = (Scanner.ofSource source).readAll.tokens.map Token.value → d' = d := by
  constructor
  · intro h
    obtain ⟨hfailure, d, hwords, hF⟩ := exists_derivation_of_parse h
    refine ⟨hfailure, d, hwords, hF, ?_⟩
    exact fun d' hd' => Derivation.words_injective (hd'.trans hwords.symm)
  · rintro ⟨hfailure, d, hwords, rfl, -⟩
    exact parse_of_derivation hfailure hwords

end ProtoSchema
