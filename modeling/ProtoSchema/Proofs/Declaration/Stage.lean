import ProtoSchema.Declaration.File

/-!
# Reading declarations token by token

The readers of declarations call one another and push tokens back. Seen from the tokens, the same
work is a machine that takes one token after the other: it holds the file as far as it was read and
what it expects next (`Stage`), and each token moves it on or is refused (`Stage.step`).

`drive` runs the machine over the tokens of a text. That it does the same as the readers is shown
in `ProtoSchema.Proofs.Declaration.Drive`.
-/

namespace ProtoSchema.Declaration

/-! ## The machine -/

/-- What the next token is read as. -/
inductive Expecting where
  | declaration
  | packageName
  | packageEnd
  /-- The name of a message inside the messages `around` it, closest first. -/
  | messageName (around : List MessageDraft)
  | messageStart (name : String) (around : List MessageDraft)
  | item (nesting : Nesting)
  | fieldType (nesting : Nesting) (label : Label)
  | fieldName (nesting : Nesting) (label : Label) (type : FieldType)
  | fieldEquals (nesting : Nesting) (label : Label) (type : FieldType) (name : String)
  | fieldNumber (nesting : Nesting) (label : Label) (type : FieldType) (name : String)
  | fieldEnd (nesting : Nesting) (field : FieldDescriptor)

/-- The file as far as it was read, and what comes next. -/
structure Stage where
  file : FileDraft
  expecting : Expecting

/-- An error at a token. -/
def errorAt (t : Token) (cause : SyntaxError.Cause) : SyntaxError :=
  { cause, line := t.line, span := t.span }

namespace Stage

/-- Takes one given token. -/
def take (next : Stage) (expected word : String) : Except SyntaxError.Cause Stage :=
  if word = expected then .ok next else .error (.unexpectedToken expected word)

/-- Goes on behind an item of a body. -/
def afterItem (file : FileDraft) : BodyStep → Stage
  | .more nesting => { file, expecting := .item nesting }
  | .closed m => { file := file.addMessage m, expecting := .declaration }

/-- Takes the next token. -/
def step (policy : UnknownContent) (s : Stage) (word : String) : Except SyntaxError.Cause Stage :=
  match s.expecting with
  | .declaration =>
    if word = "package" then .ok { s with expecting := .packageName }
    else if word = "message" then .ok { s with expecting := .messageName [] }
    else .error (.unknownDeclaration word)
  | .packageName => .ok { file := s.file.setPackage word, expecting := .packageEnd }
  | .packageEnd => take { s with expecting := .declaration } ";" word
  | .messageName around => .ok { s with expecting := .messageStart word around }
  | .messageStart name around =>
    take { s with expecting := .item { innermost := .named name, enclosing := around } }
      "\x7b" word
  | .item n =>
    match Label.ofKeyword? word with
    | some label => .ok { s with expecting := .fieldType n label }
    | none =>
      if word = "message" then
        .ok { s with expecting := .messageName (n.innermost :: n.enclosing) }
      else if word = "\x7d" then .ok (afterItem s.file (close n))
      else
        match policy with
        | .skip => .ok s
        | .reject => .error (.unknownContent word)
  | .fieldType n label => .ok { s with expecting := .fieldName n label (.ofWord word) }
  | .fieldName n label type => .ok { s with expecting := .fieldEquals n label type word }
  | .fieldEquals n label type name =>
    take { s with expecting := .fieldNumber n label type name } "=" word
  | .fieldNumber n label type name =>
    match FieldNumber.ofText word with
    | .ok number => .ok { s with expecting := .fieldEnd n { name, number, label, type } }
    | .error reason => .error (.badFieldNumber word reason)
  | .fieldEnd n field => take { s with expecting := .item (n.addField field) } ";" word

/-- What is left of a file when the text ends, and why it may not end here. -/
def atEnd (s : Stage) : FileDraft × Option SyntaxError.Cause :=
  match s.expecting with
  | .declaration => (s.file, none)
  | .packageName => (s.file.setPackage "", some (.unexpectedToken ";" ""))
  | .packageEnd => (s.file, some (.unexpectedToken ";" ""))
  | .messageName _ => (s.file, some (.unexpectedToken "\x7b" ""))
  | .messageStart _ _ => (s.file, some (.unexpectedToken "\x7b" ""))
  | .item _ => (s.file, some .unclosedMessage)
  | .fieldType _ _ => (s.file, some (.unexpectedToken "=" ""))
  | .fieldName _ _ _ => (s.file, some (.unexpectedToken "=" ""))
  | .fieldEquals _ _ _ _ => (s.file, some (.unexpectedToken "=" ""))
  | .fieldNumber _ _ _ _ => (s.file, some (.badFieldNumber "" .empty))
  | .fieldEnd _ _ => (s.file, some (.unexpectedToken ";" ""))

/-- Takes several tokens. -/
def steps (policy : UnknownContent) (s : Stage) (words : List String) :
    Except SyntaxError.Cause Stage :=
  words.foldlM (step policy) s

end Stage

/-- Runs the machine over the tokens ahead, up to the first error: the file as far as it was read,
and whether the text was accepted. -/
def drive (policy : UnknownContent) (s : Stage) :
    List Token → Except SyntaxError Token → FileDraft × Except SyntaxError Unit
  | [], .error e => (s.file, .error e)
  | [], .ok last =>
    match s.atEnd with
    | (file, none) => (file, .ok ())
    | (file, some cause) => (file, .error (errorAt last cause))
  | t :: tokens, ending =>
    match s.step policy t.value with
    | .ok next => drive policy next tokens ending
    | .error cause => (s.file, .error (errorAt t cause))

/-! ## Several steps -/

namespace Stage

variable {policy : UnknownContent} {s next : Stage} {word : String} {words : List String}

theorem steps_nil : s.steps policy [] = .ok s := rfl

theorem steps_cons (h : s.step policy word = .ok next) :
    s.steps policy (word :: words) = next.steps policy words := by
  rw [steps, List.foldlM_cons, h]
  rfl

theorem steps_cons_error {cause : SyntaxError.Cause} (h : s.step policy word = .error cause) :
    s.steps policy (word :: words) = .error cause := by
  rw [steps, List.foldlM_cons, h]
  rfl

theorem steps_append {more : List String} (h : s.steps policy words = .ok next) :
    s.steps policy (words ++ more) = next.steps policy more := by
  rw [steps, List.foldlM_append]
  change (s.steps policy words >>= _) = _
  rw [h]
  rfl

theorem steps_append_error {more : List String} {cause : SyntaxError.Cause}
    (h : s.steps policy words = .error cause) : s.steps policy (words ++ more) = .error cause := by
  rw [steps, List.foldlM_append]
  change (s.steps policy words >>= _) = _
  rw [h]
  rfl

/-- Several tokens are taken one after the other. -/
theorem steps_cons_eq_ok_iff {last : Stage} :
    s.steps policy (word :: words) = .ok last ↔
      ∃ next, s.step policy word = .ok next ∧ next.steps policy words = .ok last := by
  cases hstep : s.step policy word with
  | ok next => simp [steps_cons hstep]
  | error cause => simp [steps_cons_error hstep]

theorem steps_append_eq_ok_iff {more : List String} {last : Stage} :
    s.steps policy (words ++ more) = .ok last ↔
      ∃ next, s.steps policy words = .ok next ∧ next.steps policy more = .ok last := by
  cases hsteps : s.steps policy words with
  | ok next => simp [steps_append hsteps]
  | error cause => simp [steps_append_error hsteps]

end Stage

/-! ## Accepted texts -/

theorem drive_cons_ok {policy : UnknownContent} {s next : Stage} {t : Token} {tokens : List Token}
    {ending : Except SyntaxError Token} (h : s.step policy t.value = .ok next) :
    drive policy s (t :: tokens) ending = drive policy next tokens ending := by
  rw [drive, h]

theorem drive_cons_error {policy : UnknownContent} {s : Stage} {t : Token} {tokens : List Token}
    {ending : Except SyntaxError Token} {cause : SyntaxError.Cause}
    (h : s.step policy t.value = .error cause) :
    drive policy s (t :: tokens) ending = (s.file, .error (errorAt t cause)) := by
  rw [drive, h]

/-- Tokens that are taken only lead to a later stage. -/
theorem drive_append {policy : UnknownContent} {s next : Stage} {tokens more : List Token}
    {ending : Except SyntaxError Token} (h : s.steps policy (tokens.map Token.value) = .ok next) :
    drive policy s (tokens ++ more) ending = drive policy next more ending := by
  induction tokens generalizing s with
  | nil =>
    cases h
    rfl
  | cons t tokens ih =>
    rw [List.map_cons] at h
    obtain ⟨next', hstep, hrest⟩ := Stage.steps_cons_eq_ok_iff.mp h
    rw [List.cons_append, drive_cons_ok hstep, ih hrest]

/-- Only between declarations may a text end. -/
theorem Stage.atEnd_eq_none_iff {s : Stage} {file : FileDraft} :
    s.atEnd = (file, none) ↔ s = { file, expecting := .declaration } := by
  obtain ⟨file', expecting⟩ := s
  cases expecting <;> simp [Stage.atEnd]

/-- **A text is accepted if its tokens lead the machine back to where declarations begin, and no
stray character comes behind them.** -/
theorem drive_eq_ok_iff {policy : UnknownContent} {s : Stage} {tokens : List Token}
    {ending : Except SyntaxError Token} {file : FileDraft} :
    drive policy s tokens ending = (file, .ok ()) ↔
      (∃ last, ending = .ok last) ∧
        s.steps policy (tokens.map Token.value) = .ok { file, expecting := .declaration } := by
  induction tokens generalizing s with
  | nil =>
    cases ending with
    | error e => simp [drive]
    | ok last =>
      rw [List.map_nil, Stage.steps_nil, Except.ok.injEq, ← Stage.atEnd_eq_none_iff, drive]
      rcases s.atEnd with ⟨file', _ | cause⟩ <;> simp
  | cons t tokens ih =>
    rw [List.map_cons]
    cases hstep : s.step policy t.value with
    | ok next => rw [drive_cons_ok hstep, Stage.steps_cons hstep, ih]
    | error cause => simp [drive_cons_error hstep, Stage.steps_cons_error hstep]

/-! ## Refused texts -/

/-- **A refused text was taken up to the token that is refused, or up to its end.** -/
theorem exists_steps_of_drive {policy : UnknownContent} {s : Stage} {tokens : List Token}
    {ending : Except SyntaxError Token} {file : FileDraft} {e : SyntaxError}
    (h : drive policy s tokens ending = (file, .error e)) :
    (∃ (earlier : List Token) (t : Token) (later : List Token) (s' : Stage)
        (cause : SyntaxError.Cause), tokens = earlier ++ t :: later ∧
      s.steps policy (earlier.map Token.value) = .ok s' ∧ s'.step policy t.value = .error cause ∧
        e = errorAt t cause) ∨
      ∃ s' : Stage, s.steps policy (tokens.map Token.value) = .ok s' ∧
        (ending = .error e ∨ ∃ (last : Token) (cause : SyntaxError.Cause),
          ending = .ok last ∧ s'.atEnd.2 = some cause ∧ e = errorAt last cause) := by
  induction tokens generalizing s with
  | nil =>
    refine Or.inr ⟨s, Stage.steps_nil, ?_⟩
    cases ending with
    | error e' =>
      cases h
      exact Or.inl rfl
    | ok last =>
      rw [drive] at h
      rcases hend : s.atEnd with ⟨file', _ | cause⟩
      · rw [hend] at h
        cases h
      · rw [hend] at h
        cases h
        exact Or.inr ⟨last, cause, rfl, rfl, rfl⟩
  | cons t tokens ih =>
    cases hstep : s.step policy t.value with
    | ok next =>
      rw [drive_cons_ok hstep] at h
      rcases ih h with ⟨earlier, t', later, s', cause, rfl, hsteps, hrefused⟩ | ⟨s', hsteps, hend⟩
      · exact Or.inl ⟨t :: earlier, t', later, s', cause, rfl, (Stage.steps_cons hstep).trans hsteps,
          hrefused⟩
      · exact Or.inr ⟨s', (Stage.steps_cons hstep).trans hsteps, hend⟩
    | error cause =>
      rw [drive_cons_error hstep] at h
      cases h
      exact Or.inl ⟨[], t, tokens, s, cause, rfl, Stage.steps_nil, hstep, rfl⟩

/-- **A text is refused at a stray character, at a token that the machine does not take, or because
it may not end where it does.** -/
theorem eq_error_of_drive {policy : UnknownContent} {s : Stage} {tokens : List Token}
    {ending : Except SyntaxError Token} {file : FileDraft} {e : SyntaxError}
    (h : drive policy s tokens ending = (file, .error e)) :
    ending = .error e ∨
      (∃ t ∈ tokens, ∃ (s' : Stage) (cause : SyntaxError.Cause),
        s'.step policy t.value = .error cause ∧ e = errorAt t cause) ∨
      ∃ (last : Token) (s' : Stage) (cause : SyntaxError.Cause),
        ending = .ok last ∧ s'.atEnd.2 = some cause ∧ e = errorAt last cause := by
  rcases exists_steps_of_drive h with ⟨earlier, t, later, s', cause, rfl, -, hrefused⟩ |
    ⟨s', -, hending | ⟨last, cause, hend⟩⟩
  · exact Or.inr (Or.inl ⟨t, by simp, s', cause, hrefused⟩)
  · exact Or.inl hending
  · exact Or.inr (Or.inr ⟨last, s', cause, hend⟩)

end ProtoSchema.Declaration
