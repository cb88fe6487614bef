import ProtoSchema.Proofs.ErrorPlace
import ProtoSchema.Proofs.Token.Order

/-!
# Skipping and refusing unknown content

The same text is read twice, once with unknown content skipped and once with it refused. The two
runs do the same up to the first token that is skipped; there the second one stops.

That token is told from the run that skips (`SkippedFirst`): an item of a body consists of this
token alone, and the open messages are as before (`Skips`).

Main statement: `parse_reject_eq_or_skippedFirst`.
-/

namespace ProtoSchema

namespace Declaration

open Cursor

/-! ## The first token that is skipped -/

/-- The next item of a body is one token, and leaves the open messages as they are. -/
def Skips (n : Nesting) (c : Cursor) (t : Token) : Prop :=
  ∃ c', advance c = .ok t c' ∧ item .skip n c = .ok (.more n) c'

/-- The first token that is skipped when a body is read. -/
inductive SkippedInBody : Nesting → Cursor → Token → Prop where
  | here {n : Nesting} {c : Cursor} {t : Token} : Skips n c t → SkippedInBody n c t
  | later {n n' : Nesting} {c c' : Cursor} {t : Token} : (∀ u, ¬Skips n c u) →
      item .skip n c = .ok (.more n') c' → SkippedInBody n' c' t → SkippedInBody n c t

/-- The first token that is skipped when a message is read, its keyword being next. -/
def SkippedInMessage (c : Cursor) (t : Token) : Prop :=
  ∃ keyword c₁ c₂ name c₃, advance c = .ok keyword c₁ ∧ keyword.value = "message" ∧
    pushback c₁ = .ok () c₂ ∧ header c₂ = .ok name c₃ ∧ SkippedInBody (.outermost name) c₃ t

/-- The first token that is skipped when declarations are read. -/
inductive SkippedFirst : Cursor → Token → Prop where
  | here {c : Cursor} {t : Token} : SkippedInMessage c t → SkippedFirst c t
  | afterMessage {c c' : Cursor} {m : MessageDescriptor} {t : Token} :
      (∀ u, ¬SkippedInMessage c u) → declaration .skip c = .ok (.message m) c' →
      SkippedFirst c' t → SkippedFirst c t
  | afterPackage {c c' c'' : Cursor} {name : String} {t : Token} :
      declaration .skip c = .ok (.package name) c' → expect ";" c' = .ok () c'' →
      SkippedFirst c'' t → SkippedFirst c t

/-! ## One item -/

theorem addField_ne (n : Nesting) (f : FieldDescriptor) : n.addField f ≠ n := by
  intro h
  have hsize := congrArg (fun n : Nesting => n.innermost.fields.size) h
  simp [Nesting.addField, MessageDraft.addField] at hsize

theorem enter_ne (n : Nesting) (name : String) : n.enter name ≠ n := by
  intro h
  have hdepth := congrArg (fun n : Nesting => n.enclosing.length) h
  simp [Nesting.enter] at hdepth

theorem close_ne (n : Nesting) : close n ≠ .more n := by
  obtain ⟨innermost, enclosing⟩ := n
  cases enclosing with
  | nil => simp [close]
  | cons parent rest =>
    rw [close, ne_eq, BodyStep.more.injEq]
    intro h
    have hdepth := congrArg (fun n : Nesting => n.enclosing.length) h
    simp at hdepth

/-- The error at a token of unknown content. -/
def unknownAt (t : Token) : SyntaxError := errorAt t (.unknownContent t.value)

/-- What an item returns that is a token of known content: it does not depend on what happens to
unknown content, and the open messages are changed. -/
theorem item_cases (n : Nesting) {c c₁ : Cursor} {t : Token} (h : advance c = .ok t c₁) :
    (∃ r, (∀ policy, item policy n c = r) ∧ ∀ c', r ≠ .ok (.more n) c') ∨
      item .skip n c = .ok (.more n) c₁ ∧ ∃ c', item .reject n c = .error (unknownAt t) c' := by
  have hread : ∀ policy, item policy n c = _ := fun policy => Reading.bind_of_ok h
  by_cases hlabel : (Label.ofKeyword? t.value).isSome
  · refine Or.inl ⟨_, fun policy => by rw [hread, if_pos hlabel], ?_⟩
    intro c' hmore
    obtain ⟨_, c₂, -, hmore⟩ := Reading.bind_eq_ok_iff.1 hmore
    obtain ⟨f, c₃, -, hmore⟩ := Reading.bind_eq_ok_iff.1 hmore
    injection hmore with hstep
    injection hstep with hsame
    exact addField_ne n f hsame
  · by_cases hmessage : t.value = "message"
    · refine Or.inl ⟨_, fun policy => by rw [hread, if_neg hlabel, if_pos hmessage], ?_⟩
      intro c' hmore
      obtain ⟨_, c₂, -, hmore⟩ := Reading.bind_eq_ok_iff.1 hmore
      obtain ⟨name, c₃, -, hmore⟩ := Reading.bind_eq_ok_iff.1 hmore
      injection hmore with hstep
      injection hstep with hsame
      exact enter_ne n name hsame
    · by_cases hclose : t.value = "\x7d"
      · refine Or.inl ⟨_, fun policy => by
          rw [hread, if_neg hlabel, if_neg hmessage, if_pos hclose], ?_⟩
        intro c' hmore
        injection hmore with hstep
        exact close_ne n hstep
      · by_cases hend : t.value = ""
        · refine Or.inl ⟨_, fun policy => by
            rw [hread, if_neg hlabel, if_neg hmessage, if_neg hclose, if_pos hend], ?_⟩
          intro c' hmore
          cases hmore
        · refine Or.inr ⟨?_, { c₁ with failure := some (unknownAt t) }, ?_⟩
          · rw [hread, if_neg hlabel, if_neg hmessage, if_neg hclose, if_neg hend]
            rfl
          · rw [hread, if_neg hlabel, if_neg hmessage, if_neg hclose, if_neg hend]
            show fail _ c₁ = _
            rw [fail, current_of_advance h]
            rfl

/-- **An item is read alike, or it is skipped in one run and refused in the other.** -/
theorem item_reject (n : Nesting) (c : Cursor) :
    (item .reject n c = item .skip n c ∧ ∀ t, ¬Skips n c t) ∨
      ∃ t c', Skips n c t ∧ item .reject n c = .error (unknownAt t) c' := by
  cases hadv : advance c with
  | error e c₁ =>
    refine Or.inl ⟨?_, ?_⟩
    · rw [item, item, Reading.bind_of_error hadv, Reading.bind_of_error hadv]
    · rintro t ⟨c', hread, -⟩
      rw [hadv] at hread
      cases hread
  | ok t c₁ =>
    rcases item_cases n hadv with ⟨r, hitem, hne⟩ | ⟨hskip, c', hreject⟩
    · refine Or.inl ⟨(hitem .reject).trans (hitem .skip).symm, ?_⟩
      rintro u ⟨c', -, hskip⟩
      exact hne c' ((hitem .skip).symm.trans hskip)
    · exact Or.inr ⟨t, c', ⟨c₁, hadv, hskip⟩, hreject⟩

/-! ## Bodies and messages -/

/-- Nothing is skipped in a body if neither its first item nor what follows is. -/
theorem not_skippedInBody {n : Nesting} {c : Cursor} (hfirst : ∀ u, ¬Skips n c u)
    (hrest : ∀ n' c', item .skip n c = .ok (.more n') c' → ∀ t, ¬SkippedInBody n' c' t) :
    ∀ t, ¬SkippedInBody n c t := by
  intro t ht
  cases ht with
  | here hskips => exact hfirst t hskips
  | later _ hitem hskipped => exact hrest _ _ hitem t hskipped

theorem body_of_refused {n : Nesting} {c c' : Cursor} {e : SyntaxError} {policy : UnknownContent}
    (h : item policy n c = .error e c') : body policy n c = .error e c' := by
  rw [body, h]

/-- **Two runs of a body agree up to the first token that is skipped.** -/
theorem body_reject (n : Nesting) (c : Cursor) :
    (body .reject n c = body .skip n c ∧ ∀ t, ¬SkippedInBody n c t) ∨
      ∃ t c', SkippedInBody n c t ∧ body .reject n c = .error (unknownAt t) c' := by
  fun_induction body .skip n c with
  | case1 n c n' c₁ hitem ih =>
    rcases item_reject n c with ⟨hsame, hnone⟩ | ⟨t, c', hskips, hrefused⟩
    · rw [body, hsame, hitem]
      rcases ih with ⟨heq, hnone'⟩ | ⟨t, c', hskipped, hrefused⟩
      · refine Or.inl ⟨heq, not_skippedInBody hnone ?_⟩
        intro n'' c'' hitem'
        rw [hitem] at hitem'
        cases hitem'
        exact hnone'
      · exact Or.inr ⟨t, c', .later hnone hitem hskipped, hrefused⟩
    · exact Or.inr ⟨t, c', .here hskips, body_of_refused hrefused⟩
  | case2 n c m c₁ hitem =>
    rcases item_reject n c with ⟨hsame, hnone⟩ | ⟨t, c', hskips, hrefused⟩
    · refine Or.inl ⟨by rw [body, hsame, hitem], not_skippedInBody hnone ?_⟩
      intro n' c' hitem'
      rw [hitem] at hitem'
      cases hitem'
    · exact Or.inr ⟨t, c', .here hskips, body_of_refused hrefused⟩
  | case3 n c e c₁ hitem =>
    rcases item_reject n c with ⟨hsame, hnone⟩ | ⟨t, c', hskips, hrefused⟩
    · refine Or.inl ⟨body_of_refused (hsame.trans hitem), not_skippedInBody hnone ?_⟩
      intro n' c' hitem'
      rw [hitem] at hitem'
      cases hitem'
    · exact Or.inr ⟨t, c', .here hskips, body_of_refused hrefused⟩

/-- Two runs of a message agree up to the first token that is skipped. -/
theorem message_reject {c c₁ c₂ : Cursor} {keyword : Token} (hadv : advance c = .ok keyword c₁)
    (hkeyword : keyword.value = "message") (hpush : pushback c₁ = .ok () c₂) :
    (message .reject c₂ = message .skip c₂ ∧ ∀ t, ¬SkippedInMessage c t) ∨
      ∃ t c', SkippedInMessage c t ∧ message .reject c₂ = .error (unknownAt t) c' := by
  have hopened : ∀ {t}, SkippedInMessage c t →
      ∃ name c₃, header c₂ = .ok name c₃ ∧ SkippedInBody (.outermost name) c₃ t := by
    rintro t ⟨_, _, _, name, c₃, hadv', -, hpush', hheader, hskipped⟩
    rw [hadv] at hadv'
    cases hadv'
    rw [hpush] at hpush'
    cases hpush'
    exact ⟨name, c₃, hheader, hskipped⟩
  cases hheader : header c₂ with
  | error e c₃ =>
    have hread : ∀ policy, message policy c₂ = .error e c₃ :=
      fun policy => Reading.bind_of_error hheader
    refine Or.inl ⟨(hread .reject).trans (hread .skip).symm, ?_⟩
    intro t ht
    obtain ⟨_, _, hheader', -⟩ := hopened ht
    rw [hheader] at hheader'
    cases hheader'
  | ok name c₃ =>
    have hread : ∀ policy, message policy c₂ = body policy (.outermost name) c₃ :=
      fun policy => Reading.bind_of_ok hheader
    rcases body_reject (.outermost name) c₃ with ⟨hsame, hnone⟩ | ⟨t, c', hskipped, hrefused⟩
    · refine Or.inl ⟨(hread .reject).trans (hsame.trans (hread .skip).symm), ?_⟩
      intro t ht
      obtain ⟨_, _, hheader', hskipped⟩ := hopened ht
      rw [hheader] at hheader'
      cases hheader'
      exact hnone t hskipped
    · exact Or.inr ⟨t, c', ⟨keyword, c₁, c₂, name, c₃, hadv, hkeyword, hpush, hheader, hskipped⟩,
        (hread .reject).trans hrefused⟩

/-! ## Declarations -/

/-- **Two runs of a declaration agree up to the first token that is skipped.** -/
theorem declaration_reject (c : Cursor) :
    (declaration .reject c = declaration .skip c ∧ ∀ t, ¬SkippedInMessage c t) ∨
      ∃ t c', SkippedInMessage c t ∧ declaration .reject c = .error (unknownAt t) c' := by
  cases hadv : advance c with
  | error e c₁ =>
    refine Or.inl ⟨?_, ?_⟩
    · rw [declaration, declaration, Reading.bind_of_error hadv, Reading.bind_of_error hadv]
    · rintro t ⟨_, _, _, _, _, hadv', -⟩
      rw [hadv] at hadv'
      cases hadv'
  | ok t c₁ =>
    have hread : ∀ policy, declaration policy c = _ := fun policy => Reading.bind_of_ok hadv
    have hnone : t.value ≠ "message" → ∀ u, ¬SkippedInMessage c u := by
      rintro hne u ⟨_, _, _, _, _, hadv', hkeyword, -⟩
      rw [hadv] at hadv'
      cases hadv'
      exact hne hkeyword
    by_cases hpackage : t.value = "package"
    · refine Or.inl ⟨by rw [hread, hread, if_pos hpackage, if_pos hpackage], hnone ?_⟩
      rw [hpackage]
      decide
    · by_cases hmessage : t.value = "message"
      · rw [hread, hread, if_neg hpackage, if_neg hpackage, if_pos hmessage, if_pos hmessage]
        cases hpush : pushback c₁ with
        | error e c₂ =>
          rw [Reading.bind_of_error hpush, Reading.bind_of_error hpush]
          refine Or.inl ⟨rfl, ?_⟩
          rintro u ⟨_, _, _, _, _, hadv', -, hpush', -⟩
          rw [hadv] at hadv'
          cases hadv'
          rw [hpush] at hpush'
          cases hpush'
        | ok _ c₂ =>
          rw [Reading.bind_of_ok hpush, Reading.bind_of_ok hpush]
          rcases message_reject hadv hmessage hpush with ⟨hsame, hnone'⟩ | ⟨u, c', hu, hrefused⟩
          · refine Or.inl ⟨?_, hnone'⟩
            show EStateM.bind _ _ _ = EStateM.bind _ _ _
            rw [EStateM.bind, EStateM.bind, hsame]
          · exact Or.inr ⟨u, c', hu, Reading.bind_of_error hrefused⟩
      · refine Or.inl ⟨?_, hnone hmessage⟩
        rw [hread, hread, if_neg hpackage, if_neg hpackage, if_neg hmessage, if_neg hmessage]

theorem declarations_of_refused {policy : UnknownContent} {file : FileDraft} {c c' : Cursor}
    {e : SyntaxError} (h : declaration policy c = .error e c') :
    declarations policy file c = (file, .error e c') := by
  rw [declarations, h]

/-- Behind the name of a package, its semicolon is read and then further declarations. -/
theorem declarations_of_package {policy : UnknownContent} {file : FileDraft} {c c₁ : Cursor}
    {name : String} (h : declaration policy c = .ok (.package name) c₁) :
    declarations policy file c =
      match expect ";" c₁ with
      | .ok () c₂ => declarations policy (file.setPackage name) c₂
      | .error e c₂ => (file.setPackage name, .error e c₂) := by
  rw [declarations, h]
  dsimp only
  split
  · next hexpect => rw [hexpect]
  · next hexpect => rw [hexpect]

/-- **Two runs of all declarations agree up to the first token that is skipped.** -/
theorem declarations_reject (file : FileDraft) (c : Cursor) :
    declarations .reject file c = declarations .skip file c ∨
      ∃ t file' c', SkippedFirst c t ∧
        declarations .reject file c = (file', .error (unknownAt t) c') := by
  fun_induction declarations .skip file c with
  | case1 file c name c₁ hdecl c₂ hexpect ih =>
    rcases declaration_reject c with ⟨hsame, -⟩ | ⟨t, c', hskipped, hrefused⟩
    · rw [declarations_of_package (hsame.trans hdecl), hexpect]
      refine ih.imp id ?_
      rintro ⟨t, file', c', hskipped, hrefused⟩
      exact ⟨t, file', c', .afterPackage hdecl hexpect hskipped, hrefused⟩
    · exact Or.inr ⟨t, file, c', .here hskipped, declarations_of_refused hrefused⟩
  | case2 file c name c₁ hdecl e c₂ hexpect =>
    rcases declaration_reject c with ⟨hsame, -⟩ | ⟨t, c', hskipped, hrefused⟩
    · exact Or.inl (by rw [declarations_of_package (hsame.trans hdecl), hexpect])
    · exact Or.inr ⟨t, file, c', .here hskipped, declarations_of_refused hrefused⟩
  | case3 file c m c₁ hdecl ih =>
    rcases declaration_reject c with ⟨hsame, hnone⟩ | ⟨t, c', hskipped, hrefused⟩
    · rw [declarations, hsame, hdecl]
      refine ih.imp id ?_
      rintro ⟨t, file', c', hskipped, hrefused⟩
      exact ⟨t, file', c', .afterMessage hnone hdecl hskipped, hrefused⟩
    · exact Or.inr ⟨t, file, c', .here hskipped, declarations_of_refused hrefused⟩
  | case4 file c c₁ hdecl =>
    rcases declaration_reject c with ⟨hsame, -⟩ | ⟨t, c', hskipped, hrefused⟩
    · exact Or.inl (by rw [declarations, hsame, hdecl])
    · exact Or.inr ⟨t, file, c', .here hskipped, declarations_of_refused hrefused⟩
  | case5 file c e c₁ hdecl =>
    rcases declaration_reject c with ⟨hsame, -⟩ | ⟨t, c', hskipped, hrefused⟩
    · exact Or.inl (declarations_of_refused (hsame.trans hdecl))
    · exact Or.inr ⟨t, file, c', .here hskipped, declarations_of_refused hrefused⟩

/-! ## The same two runs, token by token -/

/-- The machine takes a token alike, or it stays where it is and refuses the token. -/
theorem Stage.step_reject (s : Stage) (word : String) :
    s.step .reject word = s.step .skip word ∨
      s.step .reject word = .error (.unknownContent word) ∧ s.step .skip word = .ok s := by
  obtain ⟨file, expecting⟩ := s
  cases expecting with
  | item n =>
    unfold step
    cases Label.ofKeyword? word with
    | some label => exact Or.inl rfl
    | none =>
      by_cases hmessage : word = "message"
      · exact Or.inl (by simp only [if_pos hmessage])
      · by_cases hclose : word = "\x7d"
        · exact Or.inl (by simp only [if_neg hmessage, if_pos hclose])
        · exact Or.inr (by simp only [if_neg hmessage, if_neg hclose, and_self])
  | _ => exact Or.inl rfl

/-- **The machine that skips goes on behind the token that the other refuses.** -/
theorem drive_reject (s : Stage) (tokens : List Token) (ending : Except SyntaxError Token) :
    drive .reject s tokens ending = drive .skip s tokens ending ∨
      ∃ earlier t later s', tokens = earlier ++ t :: later ∧
        drive .reject s tokens ending = (s'.file, .error (unknownAt t)) ∧
          drive .skip s tokens ending = drive .skip s' later ending := by
  induction tokens generalizing s with
  | nil => exact Or.inl (by cases ending <;> rfl)
  | cons t tokens ih =>
    rcases s.step_reject t.value with hsame | ⟨hrefused, hskip⟩
    · cases hstep : s.step .skip t.value with
      | ok next =>
        rw [drive_cons_ok (hsame.trans hstep), drive_cons_ok hstep]
        refine (ih next).imp id ?_
        rintro ⟨earlier, u, later, s', rfl, hrefused, hskip⟩
        exact ⟨t :: earlier, u, later, s', rfl, hrefused, hskip⟩
      | error cause =>
        rw [drive_cons_error (hsame.trans hstep), drive_cons_error hstep]
        exact Or.inl rfl
    · exact Or.inr ⟨[], t, tokens, s, rfl, drive_cons_error hrefused, drive_cons_ok hskip⟩

theorem Stage.step_skip_ne {s : Stage} {word found : String} :
    s.step .skip word ≠ .error (.unknownContent found) := by
  intro h
  unfold step take at h
  repeat' split at h
  all_goals first
    | contradiction
    | cases h

theorem Stage.atEnd_ne {s : Stage} {found : String} :
    s.atEnd.2 ≠ some (.unknownContent found) := by
  obtain ⟨file, expecting⟩ := s
  cases expecting <;> simp [atEnd]

end Declaration

open Declaration Scanner

/-! ## Texts -/

/-- **What is read with unknown content refused is read alike with it skipped.** -/
theorem parse_skip_of_reject {name source : String} {file : FileDescriptor}
    (h : parse .reject name source = .ok file) : parse .skip name source = .ok file := by
  obtain ⟨draft, hdrive, hfinish⟩ := parse_eq_ok_iff_drive.mp h
  refine parse_eq_ok_iff_drive.mpr ⟨draft, ?_, hfinish⟩
  rcases drive_reject ⟨.named name, .declaration⟩ (ofSource source).readAll.tokens
    (ofSource source).readAll.ending with hsame | ⟨_, t, _, s, -, hrefused, -⟩
  · rw [← hsame, hdrive]
  · rw [hrefused] at hdrive
    cases hdrive

/-- **Skipped content is never refused.** -/
theorem cause_ne_of_parse_skip {name source found : String} {e : SyntaxError}
    (h : parse .skip name source = .error e) : e.cause ≠ .unknownContent found := by
  obtain ⟨file, hdrive⟩ := parse_eq_error_iff_drive.mp h
  rcases eq_error_of_drive hdrive with hending | ⟨t, -, s, cause, hstep, rfl⟩ |
    ⟨last, s, cause, -, hend, rfl⟩
  · obtain ⟨_, _, _, -, -, -, rfl⟩ := exists_stray_readAll (Scan.failure_of_ending hending)
    exact SyntaxError.Cause.noConfusion
  · rintro (rfl : cause = _)
    exact Stage.step_skip_ne hstep
  · rintro (rfl : cause = _)
    exact Stage.atEnd_ne hend

/-- **The run that skips fails behind the token that the other run refuses, if it fails.** -/
theorem behind_of_parse_skip {name source : String} {t : Token} {e : SyntaxError}
    (hreject : parse .reject name source = .error (unknownAt t))
    (hskip : parse .skip name source = .error e) :
    t.offset < t.span.stop ∧ t.span.stop ≤ e.span.start := by
  obtain ⟨file, hrefused⟩ := parse_eq_error_iff_drive.mp hreject
  obtain ⟨file', hdrive⟩ := parse_eq_error_iff_drive.mp hskip
  rcases drive_reject ⟨.named name, .declaration⟩ (ofSource source).readAll.tokens
    (ofSource source).readAll.ending with hsame | ⟨earlier, u, later, s, htokens, hrefused', hgo⟩
  · rw [hsame, hdrive] at hrefused
    cases hrefused
    exact absurd rfl (cause_ne_of_parse_skip hskip)
  · have hspan : u.span = t.span := by
      rw [hrefused', Prod.mk.injEq] at hrefused
      exact congrArg SyntaxError.span (Except.error.inj hrefused.2)
    have horder := pairwise_readAll source
    have hu : u ∈ (ofSource source).readAll.tokens := by
      rw [htokens]
      simp
    have hnonempty : u.span.start < u.span.stop := (standsIn_of_mem_readAll hu).offset_lt_stop
    have hbehind := stop_le_endingOffset hu
    rw [htokens, List.pairwise_append, List.pairwise_cons] at horder
    rw [hdrive] at hgo
    refine ⟨by rwa [hspan] at hnonempty, ?_⟩
    rw [← hspan]
    rcases eq_error_of_drive hgo.symm with hending | ⟨v, hv, s', cause, -, rfl⟩ |
      ⟨last, s', cause, hending, -, rfl⟩
    · rwa [hending] at hbehind
    · exact horder.2.1.1 v hv
    · rwa [hending] at hbehind

/-- **Refusing unknown content only restricts what is parsed.** Both runs have the same outcome, or
the one that refuses stops at the first token that the other skips, and the other, if it fails, does
so behind that token. So what is parsed without skipping is parsed alike with it, and a run that
skips never refuses unknown content. -/
theorem parse_reject_eq_or_skippedFirst (name source : String) :
    (parse .reject name source = parse .skip name source ∨
      ∃ t, SkippedFirst (.ofSource source) t ∧
        parse .reject name source = .error (errorAt t (.unknownContent t.value)) ∧
          ∀ e, parse .skip name source = .error e →
            t.span.stop ≤ e.span.start ∧ t.offset < e.offset) ∧
      (∀ file, parse .reject name source = .ok file → parse .skip name source = .ok file) ∧
      ∀ e found, parse .skip name source = .error e → e.cause ≠ .unknownContent found := by
  have hcases : parse .reject name source = parse .skip name source ∨
      ∃ t, SkippedFirst (.ofSource source) t ∧
        parse .reject name source = .error (unknownAt t) := by
    unfold parse file
    rcases declarations_reject (.named name) (.ofSource source) with
      hsame | ⟨t, file, c, hskipped, hrefused⟩
    · rw [hsame]
      exact Or.inl rfl
    · rw [hrefused]
      exact Or.inr ⟨t, hskipped, rfl⟩
  refine ⟨?_, ?_, fun e found => cause_ne_of_parse_skip⟩
  · refine hcases.imp id ?_
    rintro ⟨t, hskipped, hrefused⟩
    refine ⟨t, hskipped, hrefused, ?_⟩
    intro e hskip
    obtain ⟨hnonempty, hstop⟩ := behind_of_parse_skip hrefused hskip
    have hoffset := (pointsInto_of_parse hskip).offset_eq
    exact ⟨hstop, hoffset ▸ Nat.lt_of_lt_of_le hnonempty hstop⟩
  · intro file h
    rcases hcases with hsame | ⟨t, -, hrefused⟩
    · rw [← hsame, h]
    · rw [hrefused] at h
      cases h

end ProtoSchema
