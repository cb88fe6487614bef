import ProtoSchema.Proofs.Grammar.Recognition
import ProtoSchema.Proofs.Token.Insertion

/-!
# Words put into the body of a message

Where unknown content is skipped, words may be put in wherever an item of a body could stand. Words
that begin no field and no message make no difference as long as no closing brace is among them.
A closing brace closes the message, also where an opening brace stands before it, since that one was
skipped. What follows was written for a message that is open, and is now read with fewer messages
open, or with none; such a text is refused.

The last step compares two runs over the same words. They go on in step, one inside more messages
than the other (`Deeper`), until one of them is between declarations and the other is not
(`Strayed`); neither way can they both come to a proper end.

Main statement: `parse_insert`.
-/

namespace ProtoSchema

namespace Declaration

/-! ## Words that are skipped -/

/-- A word that begins neither a field nor a message. -/
def IsForeign (word : String) : Prop :=
  (∀ l : Label, word ≠ l.keyword) ∧ word ≠ "message"

/-- A word at an item is the label of a field, begins a message, or is foreign. -/
theorem label_or_message_or_isForeign (word : String) :
    (∃ l : Label, word = l.keyword) ∨ word = "message" ∨ IsForeign word := by
  by_cases hlabel : ∃ l : Label, word = l.keyword
  · exact Or.inl hlabel
  · by_cases hmessage : word = "message"
    · exact Or.inr (Or.inl hmessage)
    · exact Or.inr (Or.inr ⟨fun l hl => hlabel ⟨l, hl⟩, hmessage⟩)

instance (word : String) : Decidable (IsForeign word) :=
  decidable_of_iff (Label.ofKeyword? word = none ∧ word ≠ "message") <| by
    refine and_congr_left' ?_
    rw [Option.eq_none_iff_forall_ne_some]
    exact forall_congr' fun l => not_congr Label.ofKeyword?_eq_some_iff

namespace Stage

variable {file file' : FileDraft} {n m : Nesting} {s s' : Stage} {word : String}
  {words : List String}

theorem step_label (l : Label) :
    step .skip ⟨file, .item n⟩ l.keyword = .ok ⟨file, .fieldType n l⟩ := by
  simp only [step, Label.ofKeyword?_keyword]

/-- Between declarations, only two words are taken. -/
theorem declaration_cases (h : step .skip ⟨file, .declaration⟩ word = .ok s) :
    (word = "package" ∧ s = ⟨file, .packageName⟩) ∨
      word = "message" ∧ s = ⟨file, .messageName []⟩ := by
  unfold step at h
  by_cases hpackage : word = "package"
  · simp only [if_pos hpackage] at h
    cases h
    exact Or.inl ⟨hpackage, rfl⟩
  · by_cases hmessage : word = "message"
    · simp only [if_neg hpackage, if_pos hmessage] at h
      cases h
      exact Or.inr ⟨hmessage, rfl⟩
    · simp only [if_neg hpackage, if_neg hmessage] at h
      cases h

/-- At an item, a foreign word closes a message or is skipped. -/
theorem step_foreign (h : IsForeign word) :
    step .skip ⟨file, .item n⟩ word
      = .ok (if word = "\x7d" then afterItem file (close n) else ⟨file, .item n⟩) := by
  by_cases hclose : word = "\x7d"
  · subst hclose
    rfl
  · rw [if_neg hclose]
    exact step_other file n ⟨word, rfl, h.1, h.2, hclose⟩

/-- **Foreign words without a closing brace are skipped.** -/
theorem steps_foreign (hwords : ∀ w ∈ words, IsForeign w) (hclose : "\x7d" ∉ words) :
    steps .skip ⟨file, .item n⟩ words = .ok ⟨file, .item n⟩ := by
  induction words with
  | nil => rfl
  | cons word words ih =>
    rw [List.forall_mem_cons] at hwords
    rw [List.mem_cons, not_or] at hclose
    have hstep : step .skip ⟨file, .item n⟩ word = .ok ⟨file, .item n⟩ := by
      rw [step_foreign hwords.1, if_neg (Ne.symm hclose.1)]
    rw [steps_cons hstep]
    exact ih hwords.2 hclose.2

/-! ## A message that was closed -/

/-- What may be expected by foreign words behind the brace that closes the message of `n`. -/
inductive Closed (n : Nesting) : Expecting → Prop where
  | item {m : Nesting} : m.enclosing.length < n.enclosing.length → Closed n (.item m)
  | declaration : Closed n .declaration
  | packageName : Closed n .packageName
  | packageEnd : Closed n .packageEnd

theorem closed_afterItem (h : m.enclosing.length ≤ n.enclosing.length) :
    Closed n (afterItem file (close m)).expecting := by
  unfold close
  cases hparents : m.enclosing with
  | nil => exact .declaration
  | cons parent rest =>
    refine .item ?_
    rw [hparents, List.length_cons] at h
    exact h

theorem Closed.step {expecting : Expecting} (h : Closed n expecting) (hword : IsForeign word)
    (hstep : Stage.step .skip ⟨file, expecting⟩ word = .ok s) : Closed n s.expecting := by
  cases h with
  | item hlt =>
    rw [step_foreign hword] at hstep
    cases hstep
    by_cases hclose : word = "\x7d"
    · rw [if_pos hclose]
      exact closed_afterItem (Nat.le_of_lt hlt)
    · rw [if_neg hclose]
      exact .item hlt
  | declaration =>
    rcases declaration_cases hstep with ⟨-, rfl⟩ | ⟨hmessage, -⟩
    · exact .packageName
    · exact absurd hmessage hword.2
  | packageName =>
    cases hstep
    exact .packageEnd
  | packageEnd =>
    obtain ⟨-, rfl⟩ := eq_of_take hstep
    exact .declaration

theorem Closed.steps {expecting : Expecting} (h : Closed n expecting)
    (hwords : ∀ w ∈ words, IsForeign w)
    (hsteps : Stage.steps .skip ⟨file, expecting⟩ words = .ok s) : Closed n s.expecting := by
  induction words generalizing file expecting with
  | nil =>
    cases hsteps
    exact h
  | cons word words ih =>
    rw [List.forall_mem_cons] at hwords
    obtain ⟨next, hstep, hrest⟩ := steps_cons_eq_ok_iff.mp hsteps
    exact ih (h.step hwords.1 hstep) hwords.2 hrest

/-- **Foreign words with a closing brace close the message in which they stand.** -/
theorem closed_of_steps (hwords : ∀ w ∈ words, IsForeign w) (hclose : "\x7d" ∈ words)
    (hsteps : steps .skip ⟨file, .item n⟩ words = .ok s) : Closed n s.expecting := by
  induction words with
  | nil => cases hclose
  | cons word words ih =>
    rw [List.forall_mem_cons] at hwords
    rw [steps_cons (step_foreign hwords.1)] at hsteps
    by_cases hword : word = "\x7d"
    · rw [if_pos hword] at hsteps
      exact (closed_afterItem (Nat.le_refl _)).steps hwords.2 hsteps
    · rw [if_neg hword] at hsteps
      exact ih hwords.2 ((List.mem_cons.mp hclose).resolve_left (Ne.symm hword)) hsteps

/-! ## Two runs over the same words -/

/-- The same is expected, by a run inside more messages than the other. -/
inductive Deeper : Expecting → Expecting → Prop where
  | messageName {a b : List MessageDraft} : b.length < a.length →
      Deeper (.messageName a) (.messageName b)
  | messageStart {a b : List MessageDraft} {x y : String} : b.length < a.length →
      Deeper (.messageStart x a) (.messageStart y b)
  | item {n m : Nesting} : m.enclosing.length < n.enclosing.length → Deeper (.item n) (.item m)
  | fieldType {n m : Nesting} {l : Label} : m.enclosing.length < n.enclosing.length →
      Deeper (.fieldType n l) (.fieldType m l)
  | fieldName {n m : Nesting} {l : Label} {t : FieldType} :
      m.enclosing.length < n.enclosing.length → Deeper (.fieldName n l t) (.fieldName m l t)
  | fieldEquals {n m : Nesting} {l : Label} {t : FieldType} {x : String} :
      m.enclosing.length < n.enclosing.length →
        Deeper (.fieldEquals n l t x) (.fieldEquals m l t x)
  | fieldNumber {n m : Nesting} {l : Label} {t : FieldType} {x : String} :
      m.enclosing.length < n.enclosing.length →
        Deeper (.fieldNumber n l t x) (.fieldNumber m l t x)
  | fieldEnd {n m : Nesting} {f : FieldDescriptor} : m.enclosing.length < n.enclosing.length →
      Deeper (.fieldEnd n f) (.fieldEnd m f)

/-- One run is inside a message, or just closed it, and the other reads the same words as
declarations. -/
inductive Strayed : Expecting → Expecting → Prop where
  | item {n : Nesting} : Strayed (.item n) .declaration
  | itemPackage {n : Nesting} : Strayed (.item n) .packageName
  | itemPackageEnd {n : Nesting} : Strayed (.item n) .packageEnd
  | declaration : Strayed .declaration .packageEnd
  | messageName {a : List MessageDraft} : Strayed (.messageName a) .packageEnd
  | messageStart {a : List MessageDraft} {x : String} : Strayed (.messageStart x a) .declaration
  | fieldType {n : Nesting} {l : Label} : Strayed (.fieldType n l) .packageEnd
  | fieldName {n : Nesting} {l : Label} {t : FieldType} : Strayed (.fieldName n l t) .declaration
  | fieldEquals {n : Nesting} {l : Label} {t : FieldType} {x : String} :
      Strayed (.fieldEquals n l t x) .packageName
  | fieldEqualsMessage {n : Nesting} {l : Label} {t : FieldType} {x : String}
      {b : List MessageDraft} : Strayed (.fieldEquals n l t x) (.messageName b)
  | fieldNumber {n : Nesting} {l : Label} {t : FieldType} {x : String} :
      Strayed (.fieldNumber n l t x) .packageEnd
  | fieldNumberMessage {n : Nesting} {l : Label} {t : FieldType} {x y : String}
      {b : List MessageDraft} : Strayed (.fieldNumber n l t x) (.messageStart y b)

/-- Two runs that cannot both come to a proper end. -/
def Apart (a b : Expecting) : Prop := Deeper a b ∨ Strayed a b

theorem Closed.apart {expecting : Expecting} (h : Closed n expecting) :
    Apart (.item n) expecting := by
  cases h with
  | item hlt => exact Or.inl (.item hlt)
  | declaration => exact Or.inr .item
  | packageName => exact Or.inr .itemPackage
  | packageEnd => exact Or.inr .itemPackageEnd

/-- **Runs in step stay in step, or the outer one comes to the declarations first.** -/
theorem Deeper.step {a b : Expecting} (h : Deeper a b)
    (ha : Stage.step .skip ⟨file, a⟩ word = .ok s)
    (hb : Stage.step .skip ⟨file', b⟩ word = .ok s') : Apart s.expecting s'.expecting := by
  cases h with
  | messageName hlt =>
    cases ha
    cases hb
    exact Or.inl (.messageStart hlt)
  | messageStart hlt =>
    obtain ⟨-, rfl⟩ := eq_of_take ha
    obtain ⟨-, rfl⟩ := eq_of_take hb
    exact Or.inl (.item hlt)
  | @item n m hlt =>
    rcases label_or_message_or_isForeign word with ⟨l, rfl⟩ | rfl | hword
    · rw [step_label] at ha hb
      cases ha
      cases hb
      exact Or.inl (.fieldType hlt)
    · cases ha
      cases hb
      exact Or.inl (.messageName (Nat.succ_lt_succ hlt))
    · rw [step_foreign hword] at ha hb
      cases ha
      cases hb
      by_cases hclose : word = "\x7d"
      · -- the deeper run has a message left to be in
        obtain ⟨parent, rest, hparents⟩ :=
          List.exists_cons_of_length_pos (Nat.zero_lt_of_lt hlt)
        rw [if_pos hclose, if_pos hclose, close, hparents]
        rw [hparents, List.length_cons] at hlt
        exact (closed_afterItem (Nat.le_of_lt_succ hlt)).apart
      · rw [if_neg hclose, if_neg hclose]
        exact Or.inl (.item hlt)
  | fieldType hlt =>
    cases ha
    cases hb
    exact Or.inl (.fieldName hlt)
  | fieldName hlt =>
    cases ha
    cases hb
    exact Or.inl (.fieldEquals hlt)
  | fieldEquals hlt =>
    obtain ⟨-, rfl⟩ := eq_of_take ha
    obtain ⟨-, rfl⟩ := eq_of_take hb
    exact Or.inl (.fieldNumber hlt)
  | @fieldNumber n m l t x hlt =>
    unfold Stage.step at ha hb
    cases hnumber : FieldNumber.ofText word with
    | ok number =>
      simp only [hnumber] at ha hb
      cases ha
      cases hb
      exact Or.inl (.fieldEnd hlt)
    | error reason =>
      simp only [hnumber] at ha
      cases ha
  | fieldEnd hlt =>
    obtain ⟨-, rfl⟩ := eq_of_take ha
    obtain ⟨-, rfl⟩ := eq_of_take hb
    exact Or.inl (.item hlt)

/-- **Runs that went astray stay so, or are in step at the next message.** -/
theorem Strayed.step {a b : Expecting} (h : Strayed a b)
    (ha : Stage.step .skip ⟨file, a⟩ word = .ok s)
    (hb : Stage.step .skip ⟨file', b⟩ word = .ok s') : Apart s.expecting s'.expecting := by
  cases h with
  | @item n =>
    rcases declaration_cases hb with ⟨rfl, rfl⟩ | ⟨rfl, rfl⟩
    · cases ha
      exact Or.inr .itemPackage
    · cases ha
      exact Or.inl (.messageName (Nat.succ_pos _))
  | @itemPackage n =>
    cases hb
    rcases label_or_message_or_isForeign word with ⟨l, rfl⟩ | rfl | hword
    · rw [step_label] at ha
      cases ha
      exact Or.inr .fieldType
    · cases ha
      exact Or.inr .messageName
    · rw [step_foreign hword] at ha
      cases ha
      by_cases hclose : word = "\x7d"
      · rw [if_pos hclose, close]
        cases n.enclosing with
        | nil => exact Or.inr .declaration
        | cons parent rest => exact Or.inr .itemPackageEnd
      · rw [if_neg hclose]
        exact Or.inr .itemPackageEnd
  | itemPackageEnd =>
    obtain ⟨rfl, rfl⟩ := eq_of_take hb
    cases ha
    exact Or.inr .item
  | declaration =>
    obtain ⟨rfl, -⟩ := eq_of_take hb
    cases ha
  | messageName =>
    obtain ⟨-, rfl⟩ := eq_of_take hb
    cases ha
    exact Or.inr .messageStart
  | messageStart =>
    obtain ⟨rfl, -⟩ := eq_of_take ha
    cases hb
  | fieldType =>
    obtain ⟨-, rfl⟩ := eq_of_take hb
    cases ha
    exact Or.inr .fieldName
  | fieldName =>
    cases ha
    rcases declaration_cases hb with ⟨-, rfl⟩ | ⟨-, rfl⟩
    · exact Or.inr .fieldEquals
    · exact Or.inr .fieldEqualsMessage
  | fieldEquals =>
    obtain ⟨-, rfl⟩ := eq_of_take ha
    cases hb
    exact Or.inr .fieldNumber
  | fieldEqualsMessage =>
    obtain ⟨-, rfl⟩ := eq_of_take ha
    cases hb
    exact Or.inr .fieldNumberMessage
  | fieldNumber =>
    -- a semicolon is no field number
    obtain ⟨rfl, -⟩ := eq_of_take hb
    cases ha
  | fieldNumberMessage =>
    obtain ⟨rfl, -⟩ := eq_of_take hb
    cases ha

/-- **Runs that are apart cannot both come to a proper end.** -/
theorem Apart.not_accepted {a b : Expecting} {last last' : FileDraft} (h : Apart a b)
    (ha : Stage.steps .skip ⟨file, a⟩ words = .ok ⟨last, .declaration⟩) :
    Stage.steps .skip ⟨file', b⟩ words ≠ .ok ⟨last', .declaration⟩ := by
  intro hb
  induction words generalizing file file' a b with
  | nil =>
    cases ha
    cases hb
    rcases h with h | h
    · cases h
    · cases h
  | cons word words ih =>
    obtain ⟨next, hstep, hrest⟩ := steps_cons_eq_ok_iff.mp ha
    obtain ⟨next', hstep', hrest'⟩ := steps_cons_eq_ok_iff.mp hb
    have hnext : Apart next.expecting next'.expecting := by
      rcases h with h | h
      · exact h.step hstep hstep'
      · exact h.step hstep hstep'
    exact ih hnext hrest hrest'

end Stage

end Declaration

open Declaration Scanner

/-! ## Texts -/

/-- A place in a text where an item of the body of a message could begin: `front` ends behind a
token and closed layout, and the tokens up to there lead into the body of a message. -/
def ItemPlace (name front back : String) : Prop :=
  ∃ words file n, Seam front back words ∧
    Stage.steps .skip ⟨.named name, .declaration⟩ words = .ok ⟨file, .item n⟩

/-- **Words in the body of a message.** Words that begin neither a field nor a message are put into
an accepted text, in front of any item and with spaces around them. If no closing brace is among
them, they are skipped and make no difference. If there is one, the text is refused, whatever opening
braces stand before it. -/
theorem parse_insert {name front back : String} {words : List String} {file : FileDescriptor}
    (h : parse .skip name (front ++ back) = .ok file) (hplace : ItemPlace name front back)
    (hwords : ∀ w ∈ words, IsTokenText w ∧ IsForeign w) :
    ("\x7d" ∉ words →
        parse .skip name (" ".intercalate (front :: words ++ [back])) = .ok file) ∧
      ("\x7d" ∈ words →
        ∃ e, parse .skip name (" ".intercalate (front :: words ++ [back])) = .error e) := by
  obtain ⟨earlier, start, n, hseam, hstart⟩ := hplace
  obtain ⟨rest, hvalues, hvalues', hends⟩ := values_insert hseam fun w hw => (hwords w hw).1
  have hforeign : ∀ w ∈ words, IsForeign w := fun w hw => (hwords w hw).2
  obtain ⟨draft, hdrive, hfinish⟩ := parse_eq_ok_iff_drive.mp h
  obtain ⟨hending, hall⟩ := drive_eq_ok_iff.mp hdrive
  rw [hvalues, Stage.steps_append hstart] at hall
  refine ⟨?_, ?_⟩
  · intro hclose
    have hskipped : Stage.steps .skip ⟨start, .item n⟩ words = .ok ⟨start, .item n⟩ :=
      Stage.steps_foreign hforeign hclose
    refine parse_eq_ok_iff_drive.mpr ⟨draft, drive_eq_ok_iff.mpr ⟨hends.mpr hending, ?_⟩, hfinish⟩
    rw [hvalues', List.append_assoc, Stage.steps_append hstart, Stage.steps_append hskipped, hall]
  · intro hclose
    cases hparse : parse .skip name (" ".intercalate (front :: words ++ [back])) with
    | error e => exact ⟨e, rfl⟩
    | ok file' =>
      obtain ⟨draft', hdrive', -⟩ := parse_eq_ok_iff_drive.mp hparse
      obtain ⟨-, hall'⟩ := drive_eq_ok_iff.mp hdrive'
      rw [hvalues', List.append_assoc, Stage.steps_append hstart] at hall'
      obtain ⟨next, hinner, hlater⟩ := Stage.steps_append_eq_ok_iff.mp hall'
      have hclosed := Stage.closed_of_steps hforeign hclose hinner
      exact absurd hlater (hclosed.apart.not_accepted hall)

/-- Inside an empty message, behind its opening brace. -/
theorem itemPlace_empty : ItemPlace "f" "message M \x7b" " \x7d" := by
  refine ⟨["message", "M", "\x7b"], .named "f", .outermost "M", ?_, by rfl⟩
  refine ⟨[{ value := "message", line := 1, offset := 0 }, { value := "M", line := 1, offset := 8 }],
    { value := "\x7b", line := 1, offset := 10 }, [{ value := "\x7d", line := 1, offset := 12 }],
    "message M \x7b".toList, [], ?_, rfl, (List.append_nil _).symm, ?_, .nil⟩
  · decide +kernel
  · decide +kernel

/-- An option is skipped, and the brace of an enumeration is not. -/
theorem parse_insert_option :
    parse .skip "f" ("message M \x7b" ++ " \x7d")
        = .ok { name := some "f", package := none,
                messages := [{ name := "M", fields := [], nested := [] }] } ∧
      parse .skip "f" "message M \x7b option x = 1 ;  \x7d"
        = .ok { name := some "f", package := none,
                messages := [{ name := "M", fields := [], nested := [] }] } ∧
      ∃ e, parse .skip "f" "message M \x7b enum E \x7b \x7d  \x7d" = .error e := by
  have h : parse .skip "f" ("message M \x7b" ++ " \x7d")
      = .ok { name := some "f", package := none,
              messages := [{ name := "M", fields := [], nested := [] }] } := by
    decide +kernel
  have hoption : ∀ w ∈ ["option", "x", "=", "1", ";"], IsTokenText w ∧ IsForeign w := by
    decide +kernel
  have henum : ∀ w ∈ ["enum", "E", "\x7b", "\x7d"], IsTokenText w ∧ IsForeign w := by
    decide +kernel
  have haccepted := (parse_insert h itemPlace_empty hoption).1 (by decide)
  have hrefused := (parse_insert h itemPlace_empty henum).2 (by decide)
  exact ⟨h, haccepted, hrefused⟩

/-- Braces are balanced: none is closed before it is opened, and none is left open. -/
def Balanced (words : List String) : Prop :=
  (∀ k ≤ words.length, (words.take k).count "\x7d" ≤ (words.take k).count "\x7b") ∧
    words.count "\x7d" = words.count "\x7b"

/-- The closing brace of an enumeration is taken for that of the message around it. -/
theorem parse_insert_enum :
    let words := ["enum", "E", "\x7b", "A", "=", "0", ";", "\x7d"]
    Balanced words ∧
      (∀ w ∈ words, IsTokenText w ∧ IsForeign w) ∧
      ItemPlace "f" "message M \x7b" " \x7d" ∧
      parse .skip "f" ("message M \x7b" ++ " \x7d")
        = .ok { name := some "f", package := none,
                messages := [{ name := "M", fields := [], nested := [] }] } ∧
      parse .skip "f" (" ".intercalate ("message M \x7b" :: words ++ [" \x7d"]))
        = .error { cause := .unknownDeclaration "\x7d", line := 1,
                   span := { start := 32, stop := 33 } } := by
  intro words
  refine ⟨?_, ?_, itemPlace_empty, ?_, ?_⟩
  · exact ⟨by decide, by decide⟩
  · decide +kernel
  · decide +kernel
  · decide +kernel

end ProtoSchema
