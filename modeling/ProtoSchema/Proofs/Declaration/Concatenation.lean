import ProtoSchema.Proofs.Grammar.Recognition
import ProtoSchema.Proofs.Token.Joining

/-!
# Texts that follow one another

Behind an accepted text and a newline, a text is parsed as it would be alone. Its declarations are
added to those before it, and its errors only stand further on. Two facts carry this: what was read
before makes no difference to the machine but in the file that it holds (`drive_behind`), and places
make none but in the error (`drive_moved`).

Main statement: `parse_append_newline`.
-/

namespace ProtoSchema

open Declaration

variable {policy : UnknownContent}

/-! ## Files behind files -/

/-- The declarations of one file and then those of another. -/
def FileDraft.append (file next : FileDraft) : FileDraft :=
  { name := file.name, package := next.package.or file.package,
    messages := file.messages ++ next.messages }

namespace FileDraft

theorem append_addMessage (file next : FileDraft) (m : MessageDescriptor) :
    file.append (next.addMessage m) = (file.append next).addMessage m := by
  simp only [append, addMessage, Array.append_push]

theorem append_named (file : FileDraft) (name : String) : file.append (.named name) = file := by
  simp [append, named]

theorem finish_append (file next : FileDraft) :
    (file.append next).finish
      = { name := file.name, package := next.finish.package.or file.finish.package,
          messages := file.finish.messages ++ next.finish.messages } := by
  simp [append, finish]

end FileDraft

/-! ## The machine behind a file -/

namespace Declaration

/-- A stage behind the declarations of another file. -/
def Stage.behind (file : FileDraft) (s : Stage) : Stage :=
  { s with file := file.append s.file }

namespace Stage

theorem take_behind (file : FileDraft) (next : Stage) (expected word : String) :
    (next.behind file).take expected word = (next.take expected word).map (behind file) := by
  unfold take
  split <;> rfl

theorem afterItem_behind (file next : FileDraft) (step : BodyStep) :
    afterItem (file.append next) step = (afterItem next step).behind file := by
  cases step with
  | more nesting => rfl
  | closed m => simp only [afterItem, behind, FileDraft.append_addMessage]

/-- **What was read before makes no difference to what is taken next.** -/
theorem step_behind (file : FileDraft) (s : Stage) (word : String) :
    (s.behind file).step policy word = (s.step policy word).map (behind file) := by
  obtain ⟨next, expecting⟩ := s
  cases expecting with
  | declaration =>
    unfold step
    by_cases hpackage : word = "package"
    · simp only [behind, if_pos hpackage]
      rfl
    · by_cases hmessage : word = "message"
      · simp only [behind, if_neg hpackage, if_pos hmessage]
        rfl
      · simp only [behind, if_neg hpackage, if_neg hmessage]
        rfl
  | item n =>
    unfold step
    cases Label.ofKeyword? word with
    | some label => rfl
    | none =>
      by_cases hmessage : word = "message"
      · simp only [behind, if_pos hmessage]
        rfl
      · by_cases hclose : word = "\x7d"
        · simp only [behind, if_neg hmessage, if_pos hclose, afterItem_behind]
          rfl
        · simp only [behind, if_neg hmessage, if_neg hclose]
          cases policy <;> rfl
  | fieldNumber n label type name =>
    unfold step
    cases FieldNumber.ofText word <;> rfl
  | packageName => rfl
  | packageEnd => exact take_behind file ⟨next, .declaration⟩ ";" word
  | messageName around => rfl
  | messageStart name around =>
    exact take_behind file ⟨next, .item ⟨.named name, around⟩⟩ "\x7b" word
  | fieldType n label => rfl
  | fieldName n label type => rfl
  | fieldEquals n label type name =>
    exact take_behind file ⟨next, .fieldNumber n label type name⟩ "=" word
  | fieldEnd n field => exact take_behind file ⟨next, .item (n.addField field)⟩ ";" word

theorem atEnd_behind (file : FileDraft) (s : Stage) :
    (s.behind file).atEnd = (file.append s.atEnd.1, s.atEnd.2) := by
  obtain ⟨next, expecting⟩ := s
  cases expecting <;> rfl

end Stage

/-- **What was read before is kept, and makes no difference to what follows.** -/
theorem drive_behind (file : FileDraft) (s : Stage) (tokens : List Token)
    (ending : Except SyntaxError Token) :
    drive policy (s.behind file) tokens ending
      = (file.append (drive policy s tokens ending).1, (drive policy s tokens ending).2) := by
  induction tokens generalizing s with
  | nil =>
    cases ending with
    | error e => rfl
    | ok last =>
      rw [drive, drive, Stage.atEnd_behind]
      rcases s.atEnd with ⟨next, _ | cause⟩ <;> rfl
  | cons t tokens ih =>
    have hbehind : (s.behind file).step policy t.value = _ := Stage.step_behind file s t.value
    cases hstep : s.step policy t.value with
    | ok next =>
      rw [hstep] at hbehind
      rw [drive_cons_ok hbehind, ih, drive_cons_ok hstep]
    | error cause =>
      rw [hstep] at hbehind
      rw [drive_cons_error hbehind, drive_cons_error hstep]
      rfl

/-! ## The machine further on in a text -/

theorem errorAt_moved (lines bytes : Nat) (t : Token) (cause : SyntaxError.Cause) :
    errorAt (t.moved lines bytes) cause = (errorAt t cause).moved lines bytes := by
  simp only [errorAt, SyntaxError.moved, Token.span, Token.moved, SyntaxError.mk.injEq,
    Span.mk.injEq, true_and, and_true]
  omega

/-- **Further on in a text, the same is read, and errors stand further on.** -/
theorem drive_moved (lines bytes : Nat) (s : Stage) (tokens : List Token)
    (ending : Except SyntaxError Token) :
    drive policy s (tokens.map (Token.moved lines bytes))
        (Scanner.movedEnding lines bytes ending)
      = ((drive policy s tokens ending).1,
          (drive policy s tokens ending).2.mapError (SyntaxError.moved lines bytes)) := by
  induction tokens generalizing s with
  | nil =>
    cases ending with
    | error e => rfl
    | ok last =>
      rw [List.map_nil, Scanner.movedEnding, drive, drive]
      rcases s.atEnd with ⟨file, _ | cause⟩
      · rfl
      · exact congrArg (fun e => (file, Except.error e)) (errorAt_moved lines bytes last cause)
  | cons t tokens ih =>
    rw [List.map_cons]
    cases hstep : s.step policy t.value with
    | ok next =>
      have hmoved : s.step policy (t.moved lines bytes).value = .ok next := hstep
      rw [drive_cons_ok hmoved, ih, drive_cons_ok hstep]
    | error cause =>
      have hmoved : s.step policy (t.moved lines bytes).value = .error cause := hstep
      rw [drive_cons_error hmoved, drive_cons_error hstep, errorAt_moved]
      rfl

end Declaration

/-! ## Texts -/

/-- **Behind an accepted text and a newline, a text is parsed as it is alone.** What it declares is
added to the file, and its package, if it has one, replaces the package of the file. An error of it
is the same error, behind the lines and bytes that come before. -/
theorem parse_append_newline {name source : String} {file : FileDescriptor}
    (h : parse policy name source = .ok file) (more : String) :
    parse policy name (source ++ "\n" ++ more) =
      match parse policy name more with
      | .ok next => .ok { name := some name, package := next.package.or file.package,
                          messages := file.messages ++ next.messages }
      | .error e => .error
          (e.moved (source.toList.count '\n' + 1) (source.utf8ByteSize + 1)) := by
  have hname : file.name = some name := name_of_parse h
  obtain ⟨draft, hdrive, rfl⟩ := parse_eq_ok_iff_drive.mp h
  obtain ⟨⟨last, hending⟩, hsteps⟩ := drive_eq_ok_iff.mp hdrive
  obtain ⟨htokens, hmore⟩ :=
    Scanner.readAll_append_newline (Scanner.Scan.failure_of_ending_ok hending).1 more
  have hstart : (⟨draft, .declaration⟩ : Stage)
      = Stage.behind draft ⟨.named name, .declaration⟩ := by
    rw [Stage.behind, FileDraft.append_named]
  rw [parse_eq_drive, parse_eq_drive]
  simp only [htokens, hmore]
  rw [drive_append hsteps, drive_moved, hstart, drive_behind]
  rcases drive policy ⟨.named name, .declaration⟩ (Scanner.ofSource more).readAll.tokens
    (Scanner.ofSource more).readAll.ending with ⟨next, e | ⟨⟩⟩
  · rfl
  · refine congrArg Except.ok ?_
    rw [FileDraft.finish_append, show draft.name = some name from hname]

/-- A comment that is left open, and a stray character behind an empty line. -/
theorem parse_append_newline_comment :
    parse .reject "f" "package a;//" = .ok { name := some "f", package := some "a", messages := [] } ∧
      parse .reject "f" "package a;//\n\n @"
        = .error { cause := .strayByte 0x40, line := 3, span := { start := 15, stop := 16 } } := by
  have h : parse .reject "f" "package a;//"
      = .ok { name := some "f", package := some "a", messages := [] } := by
    decide +kernel
  have hmore : parse .reject "f" "\n @"
      = .error { cause := .strayByte 0x40, line := 2, span := { start := 2, stop := 3 } } := by
    decide +kernel
  refine ⟨h, ?_⟩
  have happend := parse_append_newline h "\n @"
  rw [hmore] at happend
  exact happend

end ProtoSchema
