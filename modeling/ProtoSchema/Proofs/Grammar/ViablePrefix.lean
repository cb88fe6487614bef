import ProtoSchema.Proofs.ErrorPlace
import ProtoSchema.Proofs.Grammar.Rendering
import ProtoSchema.Proofs.Token.Joining

/-!
# Errors come as early as they can

A list of tokens is viable if some text that is parsed begins with them. Wherever the machine
stands, a few more tokens lead it back to where declarations begin (`Stage.completable`): names and
symbols that are still missing, and a brace for each open message. So all that is taken is viable,
and a token is refused only if nothing that begins with it is ever parsed.

Main statement: `parse_viablePrefix`.
-/

namespace ProtoSchema

open Declaration Scanner SyntaxError

variable {policy : UnknownContent}

/-! ## Viable lists of tokens -/

/-- The tokens of a text that is parsed. -/
def Accepted (policy : UnknownContent) (words : List String) : Prop :=
  ∃ name source file, (ofSource source).readAll.tokens.map Token.value = words ∧
    parse policy name source = .ok file

/-- The tokens with which a text that is parsed begins. -/
def Viable (policy : UnknownContent) (words : List String) : Prop :=
  ∃ more, Accepted policy (words ++ more)

/-! ## Completions -/

/-- Tokens that lead from a stage back to where declarations begin. -/
def Declaration.Stage.Completable (policy : UnknownContent) (s : Stage) : Prop :=
  ∃ words file, (∀ w ∈ words, IsTokenText w) ∧
    s.steps policy words = .ok { file, expecting := .declaration }

namespace Declaration.Stage

/-- A stage can be completed if the next one can. -/
theorem Completable.step {s next : Stage} {word : String} (h : next.Completable policy)
    (hstep : s.step policy word = .ok next) (hword : IsTokenText word) : s.Completable policy := by
  obtain ⟨words, file, htext, hsteps⟩ := h
  refine ⟨word :: words, file, List.forall_mem_cons.mpr ⟨hword, htext⟩, ?_⟩
  exact (steps_cons hstep).trans hsteps

theorem completable_declaration (file : FileDraft) :
    Completable policy ⟨file, .declaration⟩ :=
  ⟨[], file, by simp, steps_nil⟩

/-- **Open messages are completed by a brace each.** -/
theorem completable_item (file : FileDraft) (n : Nesting) :
    Completable policy ⟨file, .item n⟩ := by
  obtain ⟨innermost, enclosing⟩ := n
  have hbrace : IsTokenText "\x7d" := isTokenText_fixed _ (by simp)
  induction enclosing generalizing innermost with
  | nil => exact (completable_declaration (file.addMessage innermost.finish)).step rfl hbrace
  | cons parent rest ih => exact (ih (parent.addNested innermost.finish)).step rfl hbrace

/-- **Every stage can be completed.** -/
theorem completable (s : Stage) : s.Completable policy := by
  obtain ⟨file, expecting⟩ := s
  have hname : IsTokenText "x" := isTokenText_of_all (by decide) rfl
  have hsemicolon : IsTokenText ";" := isTokenText_fixed _ (by simp)
  have hequals : IsTokenText "=" := isTokenText_fixed _ (by simp)
  have hbrace : IsTokenText "\x7b" := isTokenText_fixed _ (by simp)
  have hnumeral : IsTokenText "1" := isTokenText_of_all (by decide) rfl
  -- what a declaration still lacks, from its end to its beginning
  have hpackage : ∀ file, Completable policy ⟨file, .packageEnd⟩ :=
    fun file => (completable_declaration file).step rfl hsemicolon
  have hstart : ∀ name around, Completable policy ⟨file, .messageStart name around⟩ :=
    fun name around => (completable_item file ⟨.named name, around⟩).step rfl hbrace
  have hend : ∀ n field, Completable policy ⟨file, .fieldEnd n field⟩ :=
    fun n field => (completable_item file (n.addField field)).step rfl hsemicolon
  have hnumber : ∀ n label type name,
      Completable policy ⟨file, .fieldNumber n label type name⟩ :=
    fun n label type name => (hend n { name, number := 1, label, type }).step rfl hnumeral
  have hsign : ∀ n label type name,
      Completable policy ⟨file, .fieldEquals n label type name⟩ :=
    fun n label type name => (hnumber n label type name).step rfl hequals
  have hfield : ∀ n label type, Completable policy ⟨file, .fieldName n label type⟩ :=
    fun n label type => (hsign n label type "x").step rfl hname
  cases expecting with
  | declaration => exact completable_declaration file
  | packageName => exact (hpackage (file.setPackage "x")).step rfl hname
  | packageEnd => exact hpackage file
  | messageName around => exact (hstart "x" around).step rfl hname
  | messageStart name around => exact hstart name around
  | item n => exact completable_item file n
  | fieldType n label => exact (hfield n label (.ofWord "x")).step rfl hname
  | fieldName n label type => exact hfield n label type
  | fieldEquals n label type name => exact hsign n label type name
  | fieldNumber n label type name => exact hnumber n label type name
  | fieldEnd n field => exact hend n field

end Declaration.Stage

/-! ## What is taken is viable -/

/-- A token of a text is a symbol or a word. -/
theorem isTokenText_of_mem_readAll {source : String} {t : Token}
    (ht : t ∈ (ofSource source).readAll.tokens) : IsTokenText t.value := by
  obtain ⟨_, _, -, htiling, -⟩ := exists_tiling_ending source
  obtain ⟨front, lexeme, after, -, hlex, rfl⟩ := htiling.exists_tokenAt t ht
  cases hlex with
  | symbol hc => exact Or.inl ⟨_, hc, rfl⟩
  | word hne hall _ _ =>
    refine Or.inr ⟨fun h => hne (String.ofList_eq_empty_iff.mp h), ?_⟩
    show ∀ c ∈ (String.ofList lexeme).toList, _
    rwa [String.toList_ofList]

/-- **A list of tokens that the machine takes is viable.** -/
theorem viable_of_steps {name : String} {words : List String} {s : Stage}
    (htext : ∀ w ∈ words, IsTokenText w)
    (h : Stage.steps policy ⟨.named name, .declaration⟩ words = .ok s) : Viable policy words := by
  obtain ⟨more, file, hmore, hsteps⟩ : s.Completable policy := s.completable
  obtain ⟨text, hwritten⟩ := exists_written (List.forall_mem_append.mpr ⟨htext, hmore⟩)
  have hwritten : Written false (words ++ more) (String.ofList text).toList := by
    rw [String.toList_ofList]
    exact hwritten false
  obtain ⟨hfailure, hvalues⟩ := hwritten.readAll
  refine ⟨more, name, String.ofList text, file.finish, hvalues, ?_⟩
  refine parse_eq_ok_iff_drive.mpr ⟨file, drive_eq_ok_iff.mpr ⟨⟨_, ending_eq_endOf hfailure⟩, ?_⟩,
    rfl⟩
  rw [hvalues, Stage.steps_append h, hsteps]

/-- **A list of tokens that the machine does not take is not viable.** -/
theorem not_viable_of_steps {name : String} {words : List String} {cause : SyntaxError.Cause}
    (h : Stage.steps policy ⟨.named name, .declaration⟩ words = .error cause) :
    ¬Viable policy words := by
  rintro ⟨more, name', source, file, hvalues, hparse⟩
  obtain ⟨-, d, hwords, -⟩ := exists_derivation_of_parse hparse
  -- the derivation can be run in a file of any name
  have hsteps := Stage.steps_words (.named name) d
  rw [hwords, hvalues, Stage.steps_append_error h] at hsteps
  cases hsteps

/-! ## Refused texts -/

/-- An error of the scanner: a character that fits nowhere. -/
def SyntaxError.IsLexical (e : SyntaxError) : Prop :=
  ∃ byte, e.cause = .strayByte byte

theorem not_isLexical_of_found? {t : Token} {cause : Cause} {text : String}
    (h : cause.found? = some text) : ¬(errorAt t cause).IsLexical := by
  rintro ⟨byte, rfl : cause = _⟩
  cases h

/-- **A text is refused at its first token that is not viable, or when all its tokens were taken: at
a stray character or at its end.** -/
theorem exists_split_of_parse_error {name source : String} {e : SyntaxError}
    (h : parse policy name source = .error e) :
    (∃ earlier t later, (ofSource source).readAll.tokens = earlier ++ t :: later ∧
      e = errorAt t e.cause ∧ ¬e.IsLexical ∧
        ¬Viable policy ((earlier ++ [t]).map Token.value) ∧
          Viable policy (earlier.map Token.value)) ∨
      Viable policy ((ofSource source).readAll.tokens.map Token.value) ∧
        (e.IsLexical ∧ (ofSource source).readAll.failure = some e ∨
          e = errorAt (.endOf source) e.cause) := by
  have htext : ∀ w ∈ (ofSource source).readAll.tokens.map Token.value, IsTokenText w := by
    intro w hw
    obtain ⟨t, ht, rfl⟩ := List.mem_map.mp hw
    exact isTokenText_of_mem_readAll ht
  obtain ⟨file, hdrive⟩ := parse_eq_error_iff_drive.mp h
  rcases exists_steps_of_drive hdrive with
    ⟨earlier, t, later, s, cause, htokens, hsteps, hstep, rfl⟩ |
    ⟨s, hsteps, hending | ⟨last, cause, hending, -, rfl⟩⟩
  · refine Or.inl ⟨earlier, t, later, htokens, rfl,
      not_isLexical_of_found? (Stage.found?_of_step hstep), ?_, viable_of_steps ?_ hsteps⟩
    · rw [List.map_append]
      exact not_viable_of_steps ((Stage.steps_append hsteps).trans (Stage.steps_cons_error hstep))
    · rw [htokens, List.map_append, List.forall_mem_append] at htext
      exact htext.1
  · have hfailure := Scan.failure_of_ending hending
    obtain ⟨_, _, _, -, -, -, rfl⟩ := exists_stray_readAll hfailure
    exact Or.inr ⟨viable_of_steps htext hsteps, Or.inl ⟨⟨_, rfl⟩, hfailure⟩⟩
  · have hfailure := (Scan.failure_of_ending_ok hending).1
    rw [ending_eq_endOf hfailure] at hending
    cases hending
    exact Or.inr ⟨viable_of_steps htext hsteps, Or.inr rfl⟩

/-- No token of a text has the place of its end. -/
theorem span_ne_endSpan {source : String} {t : Token}
    (ht : t ∈ (ofSource source).readAll.tokens) : t.span ≠ endSpan source := by
  intro hspan
  have hstands := standsIn_of_mem_readAll ht
  have hlt := hstands.offset_lt_stop
  have hle := hstands.fits.stop_le
  have hstart : t.offset = source.utf8ByteSize := congrArg Span.start hspan
  omega

/-- **An accepted text that is cut at a token is accepted, or refused at its end.** -/
theorem parse_of_cut {name front rest : String} {file : FileDescriptor} {t : Token}
    (h : parse policy name (front ++ rest) = .ok file)
    (ht : t ∈ (ofSource (front ++ rest)).readAll.tokens)
    (hcut : front.utf8ByteSize = t.offset ∨ front.utf8ByteSize = t.span.stop) :
    (∃ file', parse policy name front = .ok file') ∨
      ∃ cause, parse policy name front = .error (errorAt (.endOf front) cause) := by
  obtain ⟨hfailure, later, htokens⟩ := exists_readAll_of_cut ht hcut
  cases hparse : parse policy name front with
  | ok file' => exact Or.inl ⟨file', rfl⟩
  | error e =>
    rcases exists_split_of_parse_error hparse with ⟨earlier, u, back, hsplit, -, -, hnot, -⟩ |
      ⟨-, ⟨-, hstray⟩ | hend⟩
    · -- what is read of the front part is read of the whole, and the whole is accepted
      refine absurd ⟨(back ++ later).map Token.value, name, front ++ rest, file, ?_, h⟩ hnot
      rw [htokens, hsplit, ← List.map_append]
      simp only [List.append_assoc, List.cons_append, List.nil_append]
    · rw [hfailure] at hstray
      cases hstray
    · exact Or.inr ⟨e.cause, congrArg Except.error hend⟩

/-- **Errors come at the earliest possible token.** An error is at a stray character, at a token or
at the end. Some text that is parsed begins with the tokens before it, and none with these and the
token at which it stands. A text that is parsed, cut at a token, is parsed or refused at its end. -/
theorem parse_viablePrefix (policy : UnknownContent) (name source : String) :
    (∀ e, parse policy name source = .error e →
      (e.IsLexical ∨ (∃ t ∈ (ofSource source).readAll.tokens, e = errorAt t e.cause) ∨
        e = errorAt (.endOf source) e.cause) ∧
      (∀ earlier t later, (ofSource source).readAll.tokens = earlier ++ t :: later →
        ¬e.IsLexical → e.span = t.span →
          ¬Viable policy ((earlier ++ [t]).map Token.value) ∧
            Viable policy (earlier.map Token.value)) ∧
      (e.IsLexical ∨ e.span = endSpan source →
        Viable policy ((ofSource source).readAll.tokens.map Token.value))) ∧
    ∀ file, parse policy name source = .ok file → ∀ front rest, front ++ rest = source →
      ∀ t ∈ (ofSource source).readAll.tokens,
        front.utf8ByteSize = t.offset ∨ front.utf8ByteSize = t.span.stop →
          (∃ file', parse policy name front = .ok file') ∨
            ∃ cause, parse policy name front = .error (errorAt (.endOf front) cause) := by
  constructor
  · intro e h
    rcases exists_split_of_parse_error h with ⟨earlier, t, later, htokens, he, hlex, hnot, hviable⟩ |
      ⟨hviable, hplace⟩
    · have hspan : e.span = t.span := congrArg SyntaxError.span he
      have ht : t ∈ (ofSource source).readAll.tokens := by
        rw [htokens]
        simp
      refine ⟨Or.inr (Or.inl ⟨t, ht, he⟩), ?_, ?_⟩
      · intro earlier' t' later' htokens' _ hspan'
        obtain ⟨rfl, rfl⟩ := split_eq_of_span_eq htokens htokens' (hspan.symm.trans hspan')
        exact ⟨hnot, hviable⟩
      · rintro (hlex' | hend)
        · exact absurd hlex' hlex
        · exact absurd (hspan.symm.trans hend) (span_ne_endSpan ht)
    · refine ⟨hplace.imp And.left Or.inr, ?_, fun _ => hviable⟩
      intro earlier t later htokens hlex hspan
      rcases hplace with ⟨hlex', -⟩ | he
      · exact absurd hlex' hlex
      · have ht : t ∈ (ofSource source).readAll.tokens := by
          rw [htokens]
          simp
        have hend : e.span = endSpan source := congrArg SyntaxError.span he
        exact absurd (hspan.symm.trans hend) (span_ne_endSpan ht)
  · rintro file h front rest rfl t ht hcut
    exact parse_of_cut h ht hcut

end ProtoSchema
