import ProtoSchema.Proofs.Declaration.UnknownContent
import ProtoSchema.Proofs.Grammar.Recognition
import ProtoSchema.Proofs.Token.Excerpt

/-!
# Only whole declarations are added

Reading declarations adds to a file as it goes on, and keeps what was added when it fails. What is
added are the declarations that were read as a whole: the tokens of a text are whole declarations
and a rest that does not begin with another one (`Whole`). Of the rest nothing is added; only a
package name counts as soon as it is read (`openPackage?`).

The machine shows this for the rest: inside a message it leaves the file as it is until it closes
the message (`drive_inside`), and a message that is closed was whole.

Main statement: `declarations_whole`.
-/

namespace ProtoSchema

open Grammar Declaration Scanner

variable {policy : UnknownContent} {tokens rest : List Token} {ending : Except SyntaxError Token}

/-! ## Whole declarations -/

/-- The tokens `front` are the declarations `d`, and `rest` does not begin with a declaration. -/
structure Whole (policy : UnknownContent) (d : Derivation policy) (front rest : List Token) :
    Prop where
  words_eq : d.words = front.map Token.value
  unfinished : ∀ (a : Declared policy) (more : List String),
    rest.map Token.value ≠ a.words ++ more

/-- The name of a package that is read though the declaration is not whole: the token behind the
keyword, be it the end of the text. -/
def openPackage? (ending : Except SyntaxError Token) : List Token → Option String
  | [] => none
  | t :: rest =>
    if t.value = "package" then (rest.head?.or ending.toOption).map Token.value else none

theorem Grammar.Declared.words_ne_nil (a : Declared policy) : a.words ≠ [] := by
  cases a <;> exact List.cons_ne_nil _ _

/-- **All tokens are whole declarations and a rest.** -/
theorem exists_whole (policy : UnknownContent) (tokens : List Token) :
    ∃ (d : Derivation policy) (front rest : List Token), tokens = front ++ rest ∧
      Whole policy d front rest := by
  induction hlen : tokens.length using Nat.strongRecOn generalizing tokens with
  | _ n ih =>
    subst hlen
    by_cases hwhole : ∃ (a : Declared policy) (more : List String),
        tokens.map Token.value = a.words ++ more
    · obtain ⟨a, more, hvalues⟩ := hwhole
      obtain ⟨first, later, rfl, hfirst, -⟩ := List.map_eq_append_iff.mp hvalues
      have hpos : 0 < first.length := by
        rw [← List.length_map Token.value, hfirst]
        exact List.length_pos_iff.mpr a.words_ne_nil
      obtain ⟨d, front, rest, rfl, h⟩ :=
        ih later.length (by rw [List.length_append]; omega) later rfl
      refine ⟨a :: d, first ++ front, rest, (List.append_assoc ..).symm, ?_, h.unfinished⟩
      rw [List.map_append, hfirst, ← h.words_eq]
      exact List.flatMap_cons
    · refine ⟨[], [], tokens, rfl, rfl, ?_⟩
      exact fun a more hvalues => hwhole ⟨a, more, hvalues⟩

/-! ## The machine inside a message -/

namespace Declaration

/-- What is expected once the keyword of a message was read, until the message is closed. -/
def Expecting.Inside : Expecting → Prop
  | .declaration => False
  | .packageName => False
  | .packageEnd => False
  | _ => True

/-- **Inside a message the file stays as it is; the brace that closes the message adds it.** -/
theorem Stage.step_inside {s next : Stage} {word : String} (hs : s.expecting.Inside)
    (h : s.step policy word = .ok next) :
    (next.file = s.file ∧ next.expecting.Inside) ∨
      ∃ m, next = ⟨s.file.addMessage m, .declaration⟩ := by
  obtain ⟨file, expecting⟩ := s
  cases expecting with
  | declaration => cases hs
  | packageName => cases hs
  | packageEnd => cases hs
  | item n =>
    unfold step at h
    cases hlabel : Label.ofKeyword? word with
    | some l =>
      simp only [hlabel] at h
      cases h
      exact Or.inl ⟨rfl, trivial⟩
    | none =>
      simp only [hlabel] at h
      split at h
      · cases h
        exact Or.inl ⟨rfl, trivial⟩
      · split at h
        · cases h
          obtain ⟨innermost, _ | ⟨parent, around⟩⟩ := n
          · exact Or.inr ⟨_, rfl⟩
          · exact Or.inl ⟨rfl, trivial⟩
        · cases policy with
          | skip =>
            cases h
            exact Or.inl ⟨rfl, trivial⟩
          | reject => cases h
  | fieldNumber n label type name =>
    unfold step at h
    cases hnumber : FieldNumber.ofText word with
    | ok number =>
      simp only [hnumber] at h
      cases h
      exact Or.inl ⟨rfl, trivial⟩
    | error reason =>
      simp only [hnumber] at h
      cases h
  | messageStart name around =>
    obtain ⟨-, rfl⟩ := eq_of_take h
    exact Or.inl ⟨rfl, trivial⟩
  | fieldEquals n label type name =>
    obtain ⟨-, rfl⟩ := eq_of_take h
    exact Or.inl ⟨rfl, trivial⟩
  | fieldEnd n field =>
    obtain ⟨-, rfl⟩ := eq_of_take h
    exact Or.inl ⟨rfl, trivial⟩
  | _ =>
    cases h
    exact Or.inl ⟨rfl, trivial⟩

/-- **From inside a message, a run leaves the file as it is, or it comes to where the message is
closed.** -/
theorem drive_inside {s : Stage} (hs : s.expecting.Inside) :
    (drive policy s tokens ending).1 = s.file ∨
      ∃ front back m, tokens = front ++ back ∧
        s.steps policy (front.map Token.value) = .ok ⟨s.file.addMessage m, .declaration⟩ := by
  induction tokens generalizing s with
  | nil =>
    refine Or.inl ?_
    cases ending with
    | error e => rfl
    | ok last =>
      obtain ⟨file, expecting⟩ := s
      cases expecting <;> first | rfl | cases hs
  | cons t tokens ih =>
    cases hstep : s.step policy t.value with
    | error cause =>
      rw [drive_cons_error hstep]
      exact Or.inl rfl
    | ok next =>
      rw [drive_cons_ok hstep]
      rcases Stage.step_inside hs hstep with ⟨hfile, hinside⟩ | ⟨m, rfl⟩
      · refine (ih hinside).imp (fun h => h.trans hfile) ?_
        rintro ⟨front, back, m, rfl, hsteps⟩
        refine ⟨t :: front, back, m, rfl, ?_⟩
        rw [List.map_cons, Stage.steps_cons hstep, hsteps, hfile]
      · exact Or.inr ⟨[t], tokens, m, rfl, Stage.steps_cons hstep⟩

/-! ## The unfinished rest -/

/-- A message whose tokens are not whole leaves the file as it is. -/
theorem drive_unfinished_message {file : FileDraft}
    (h : ∀ (a : Declared policy) (more : List String),
      "message" :: rest.map Token.value ≠ a.words ++ more) :
    (drive policy ⟨file, .messageName []⟩ rest ending).1 = file := by
  have hinside : Expecting.Inside (.messageName []) := trivial
  have hrun : (drive policy ⟨file, .messageName []⟩ rest ending).1 = file ∨ _ :=
    drive_inside hinside
  rcases hrun with hfile | ⟨front, back, m, rfl, hsteps⟩
  · exact hfile
  · obtain ⟨name, inside, hfront⟩ := Stage.exists_header hsteps
    rw [hfront, Stage.steps_header] at hsteps
    obtain ⟨items, more, rfl⟩ := Stage.exists_items hsteps
    refine absurd ?_ (h (.message name items) (more ++ back.map Token.value))
    simp [hfront, Declared.words]

/-- **Of a rest that does not begin with a whole declaration, only the name of a package counts.** -/
theorem drive_unfinished {file : FileDraft}
    (hending : ∀ last, ending = .ok last → last.value = "")
    (h : ∀ (a : Declared policy) (more : List String), rest.map Token.value ≠ a.words ++ more) :
    (drive policy ⟨file, .declaration⟩ rest ending).1
      = { file with package := (openPackage? ending rest).or file.package } := by
  cases rest with
  | nil => cases ending <;> rfl
  | cons t rest =>
    by_cases hpackage : t.value = "package"
    · have hstep : Stage.step policy ⟨file, .declaration⟩ t.value = .ok ⟨file, .packageName⟩ := by
        simp only [Stage.step, if_pos hpackage]
      rw [drive_cons_ok hstep, openPackage?, if_pos hpackage]
      cases rest with
      | nil =>
        cases hend : ending with
        | error e => rfl
        | ok last =>
          simp only [drive, Stage.atEnd, List.head?_nil, Except.toOption, Option.none_or,
            Option.map_some, hending last hend, Option.some_or]
          rfl
      | cons name rest =>
        have hname : Stage.step policy ⟨file, .packageName⟩ name.value
            = .ok ⟨file.setPackage name.value, .packageEnd⟩ := rfl
        rw [drive_cons_ok hname]
        show _ = file.setPackage name.value
        cases rest with
        | nil => cases ending <;> rfl
        | cons semicolon rest =>
          have hne : semicolon.value ≠ ";" := by
            intro hsemicolon
            refine h (.package name.value) (rest.map Token.value) ?_
            simp [Declared.words, hpackage, hsemicolon]
          have hstep : Stage.step policy ⟨file.setPackage name.value, .packageEnd⟩ semicolon.value
              = .error (.unexpectedToken ";" semicolon.value) := if_neg hne
          rw [drive_cons_error hstep]
    · rw [openPackage?, if_neg hpackage, Option.none_or]
      by_cases hmessage : t.value = "message"
      · have hstep : Stage.step policy ⟨file, .declaration⟩ t.value
            = .ok ⟨file, .messageName []⟩ := by
          simp only [Stage.step, if_neg hpackage, if_pos hmessage]
        rw [drive_cons_ok hstep, drive_unfinished_message]
        rwa [List.map_cons, hmessage] at h
      · have hstep : Stage.step policy ⟨file, .declaration⟩ t.value
            = .error (.unknownDeclaration t.value) := by
          simp only [Stage.step, if_neg hpackage, if_neg hmessage]
        rw [drive_cons_error hstep]

/-! ## Whole declarations and the rest -/

variable {d : Derivation policy} {front : List Token}

/-- The machine goes on behind the whole declarations. -/
theorem drive_whole (h : Whole policy d front rest) (file : FileDraft) :
    drive policy ⟨file, .declaration⟩ (front ++ rest) ending
      = drive policy ⟨d.foldl FileDraft.declare file, .declaration⟩ rest ending := by
  refine drive_append ?_
  rw [← h.words_eq]
  exact Stage.steps_words file d

/-- **What is added to a file are the whole declarations, and the name of an open package.** -/
theorem finish_drive_whole (h : Whole policy d front rest) (file : FileDraft)
    (hending : ∀ last, ending = .ok last → last.value = "") :
    (drive policy ⟨file, .declaration⟩ (front ++ rest) ending).1.finish
      = { name := file.name
          package := (openPackage? ending rest).or
            ((d.filterMap Declared.package?).getLast?.or file.package)
          messages := file.messages.toList ++ d.filterMap Declared.message? } := by
  have hfinish := FileDraft.finish_foldl_declare file d
  rw [FileDraft.finish, FileDescriptor.mk.injEq] at hfinish
  obtain ⟨hname, hpackage, hmessages⟩ := hfinish
  rw [drive_whole h, drive_unfinished hending h.unfinished, FileDraft.finish, hname, hpackage,
    hmessages]

/-- A text is accepted only if nothing is left behind its whole declarations. -/
theorem eq_nil_of_drive_whole (h : Whole policy d front rest) {file file' : FileDraft}
    (hdrive : drive policy ⟨file, .declaration⟩ (front ++ rest) ending = (file', .ok ())) :
    rest = [] ∧ ∃ last, ending = .ok last := by
  rw [drive_whole h] at hdrive
  obtain ⟨hlast, hsteps⟩ := drive_eq_ok_iff.mp hdrive
  obtain ⟨d', hwords⟩ := Stage.exists_derivation hsteps
  refine ⟨?_, hlast⟩
  cases d' with
  | nil => exact List.map_eq_nil_iff.mp hwords.symm
  | cons a d' =>
    refine absurd hwords.symm (h.unfinished a (Derivation.words d'))

/-- **A text is refused behind its whole declarations.** -/
theorem stop_le_of_drive_whole {source : String} (h : Whole policy d front rest)
    (htokens : (ofSource source).readAll.tokens = front ++ rest) {file file' : FileDraft}
    {e : SyntaxError}
    (hdrive : drive policy ⟨file, .declaration⟩ (ofSource source).readAll.tokens
      (ofSource source).readAll.ending = (file', .error e)) :
    ∀ t ∈ front, t.span.stop ≤ e.span.start := by
  intro t ht
  have hbehind : t.span.stop ≤ endingOffset (ofSource source).readAll.ending := by
    refine stop_le_endingOffset ?_
    rw [htokens]
    exact List.mem_append_left rest ht
  have horder := pairwise_readAll source
  rw [htokens, List.pairwise_append] at horder
  rw [htokens, drive_whole h] at hdrive
  rcases eq_error_of_drive hdrive with hending | ⟨u, hu, s, cause, -, rfl⟩ |
    ⟨last, s, cause, hending, -, rfl⟩
  · rwa [hending] at hbehind
  · exact horder.2.2 t ht u hu
  · rwa [hending] at hbehind

/-- **How reading declarations ends does not depend on the file they are added to.** -/
theorem declarations_outcome (file file' : FileDraft) (c : Cursor) :
    (declarations policy file c).2 = (declarations policy file' c).2 := by
  fun_induction declarations policy file c generalizing file' with
  | case1 file c name c₁ hdecl c₂ hexpect ih =>
    rw [declarations_of_package hdecl, hexpect]
    exact ih (file'.setPackage name)
  | case2 file c name c₁ hdecl e c₂ hexpect => rw [declarations_of_package hdecl, hexpect]
  | case3 file c m c₁ hdecl ih =>
    rw [ih (file'.addMessage m)]
    conv_rhs => rw [declarations, hdecl]
  | case4 file c c₁ hdecl => rw [declarations, hdecl]
  | case5 file c e c₁ hdecl => rw [declarations_of_refused hdecl]

end Declaration

/-! ## Texts -/

/-- A message that is declared in a text, with its tokens, is declared by their excerpt alone. -/
theorem exists_excerpt_of_message {source : String} {earlier tokens later : List Token}
    {message : String} {items : Items policy}
    (h : (ofSource source).readAll.tokens = earlier ++ tokens ++ later)
    (hwords : tokens.map Token.value = (Declared.message message items).words) :
    ∃ part, Excerpt source part tokens ∧ ∀ name, parse policy name part = .ok
      { name := some name, package := none,
        messages := [{ name := message, fields := items.fields, nested := items.nested }] } := by
  have hne : tokens ≠ [] := by
    rintro rfl
    exact (Declared.message message items).words_ne_nil hwords.symm
  obtain ⟨part, hpart, hfailure, hvalues⟩ := exists_excerpt h hne
  refine ⟨part, hpart, fun name => ?_⟩
  have halone : Derivation.words [Declared.message message items]
      = (ofSource part).readAll.tokens.map Token.value := by
    rw [hvalues, hwords]
    exact List.flatMap_singleton ..
  exact parse_of_derivation hfailure halone

/-- **Only whole declarations are added to a file.** Whatever becomes of a text, its tokens are
whole declarations and a rest that does not begin with another one, and a text that is refused is
refused behind the whole ones. A file keeps its name and its messages and gets the messages among
the whole declarations, in their order; each is what its part of the text declares alone. The
package is the last one that is named, in a whole declaration or at the beginning of the rest. How
the reading ends does not depend on the file. -/
theorem declarations_whole (policy : UnknownContent) (source : String) :
    ∃ (d : Derivation policy) (front rest : List Token),
      (ofSource source).readAll.tokens = front ++ rest ∧ Whole policy d front rest ∧
      (∀ file : FileDescriptor,
        (declarations policy (.ofFile file) (.ofSource source)).1.finish
          = { name := file.name
              package := (openPackage? (ofSource source).readAll.ending rest).or
                ((d.filterMap Declared.package?).getLast?.or file.package)
              messages := file.messages ++ d.filterMap Declared.message? } ∧
        match (declarations policy (.ofFile file) (.ofSource source)).2 with
        | .ok () _ => rest = [] ∧ (ofSource source).readAll.failure = none
        | .error e _ => ∀ t ∈ front, t.span.stop ≤ e.span.start) ∧
      (∀ file file', (declarations policy file (.ofSource source)).2
        = (declarations policy file' (.ofSource source)).2) ∧
      ∀ before message items after, d = before ++ .message message items :: after →
        ∃ earlier tokens later part, front = earlier ++ tokens ++ later ∧
          earlier.map Token.value = Derivation.words before ∧
          tokens.map Token.value = (Declared.message message items).words ∧
          Excerpt source part tokens ∧ ∀ name, parse policy name part = .ok
            { name := some name, package := none,
              messages := [{ name := message, fields := items.fields, nested := items.nested }] } := by
  obtain ⟨d, front, rest, htokens, h⟩ := exists_whole policy (ofSource source).readAll.tokens
  refine ⟨d, front, rest, htokens, h, ?_, fun file file' => declarations_outcome file file' _, ?_⟩
  · intro file
    have hfollows : FollowsToEnd policy ⟨.ofFile file, .declaration⟩ _ _
        (declarations policy (.ofFile file) (.ofSource source)) :=
      drive_declarations (Cursor.ahead_ofSource source)
    have hending : ∀ last, (ofSource source).readAll.ending = .ok last → last.value = "" :=
      fun _ => Scan.value_of_ending
    have hfinish := finish_drive_whole h (.ofFile file) hending
    rw [← htokens] at hfinish
    rcases hread : declarations policy (.ofFile file) (.ofSource source) with
      ⟨file', ⟨⟨⟩, c⟩ | ⟨e, c⟩⟩
    · rw [hread] at hfollows
      obtain ⟨hdrive, -⟩ := hfollows
      rw [hdrive] at hfinish
      rw [htokens] at hdrive
      obtain ⟨hrest, last, hending⟩ := eq_nil_of_drive_whole h hdrive
      exact ⟨hfinish, hrest, (Scan.failure_of_ending_ok hending).1⟩
    · rw [hread] at hfollows
      have hdrive : drive policy _ _ _ = _ := hfollows
      rw [hdrive] at hfinish
      exact ⟨hfinish, stop_le_of_drive_whole h htokens hdrive⟩
  · rintro before message items after rfl
    have hvalues : front.map Token.value = Derivation.words before
        ++ ((Declared.message message items).words ++ Derivation.words after) := by
      rw [← h.words_eq, Derivation.words, List.flatMap_append, List.flatMap_cons]
      rfl
    obtain ⟨earlier, behind, rfl, hearlier, hbehind⟩ := List.map_eq_append_iff.mp hvalues
    obtain ⟨tokens, later, rfl, hmessage, -⟩ := List.map_eq_append_iff.mp hbehind
    have hsplit : (ofSource source).readAll.tokens = earlier ++ tokens ++ (later ++ rest) := by
      rw [htokens]
      simp only [List.append_assoc]
    obtain ⟨part, hpart, hparse⟩ := exists_excerpt_of_message hsplit hmessage
    exact ⟨earlier, tokens, later, part, (List.append_assoc ..).symm, hearlier, hmessage, hpart,
      hparse⟩

end ProtoSchema
