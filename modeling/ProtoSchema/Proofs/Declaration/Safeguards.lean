import ProtoSchema.Proofs.ErrorPlace

/-!
# Safeguards that no text sets off

Some errors guard the readers against each other: that a token is pushed back twice, that a message
is read where none begins, that a field is read where there is no label, that text is left behind
the declarations. No text that is parsed ends in one of them.

Pushing back is safe from any cursor without an error, however it was reached: a reader leaves no
token pushed back when it succeeds (`Settles`), and only pushes back the token that it has just
read, to have it read again at once (`Keeps`).

Main statement: `declarations_safe`.
-/

namespace ProtoSchema

/-- What a text may be refused for. The remaining causes guard against misuse of the readers. -/
structure SyntaxError.Cause.Reported (cause : SyntaxError.Cause) : Prop where
  not_unconsumedInput : cause ≠ .unconsumedInput
  not_repeatedPushback : cause ≠ .repeatedPushback
  not_missingLabel : ∀ found, cause ≠ .missingLabel found
  /-- The keyword of a message is read only where it stands. -/
  expected_mem : ∀ expected found, cause = .unexpectedToken expected found →
    expected ∈ [";", "\x7b", "="]

/-- An error of the scanner is a stray character, from whatever place it reads on. -/
theorem Scanner.cause_of_advance {s s' : Scanner} {e : SyntaxError}
    (h : s.advance = (.error e, s')) : ∃ byte, e.cause = .strayByte byte := by
  unfold advance at h
  split at h
  · simp at h
  · dsimp only at h
    split at h
    · simp at h
    · split at h
      · simp at h
      · simp only [Prod.mk.injEq, Except.error.injEq] at h
        obtain ⟨rfl, -⟩ := h
        exact ⟨_, rfl⟩

namespace Declaration

open Cursor SyntaxError

variable {α β : Type} {policy : UnknownContent}

/-! ## Whole texts -/

theorem reported_strayByte (byte : UInt8) : (Cause.strayByte byte).Reported where
  not_unconsumedInput := nofun
  not_repeatedPushback := nofun
  not_missingLabel := nofun
  expected_mem := nofun

theorem Stage.reported_of_step {s : Stage} {word : String} {cause : Cause}
    (h : s.step policy word = .error cause) : cause.Reported := by
  unfold step take at h
  repeat' split at h
  all_goals
    cases h
    try exact ⟨nofun, nofun, nofun, by simp⟩

theorem Stage.reported_of_atEnd {s : Stage} {cause : Cause} (h : s.atEnd.2 = some cause) :
    cause.Reported := by
  obtain ⟨file, expecting⟩ := s
  cases expecting <;> cases h <;> exact ⟨nofun, nofun, nofun, by simp⟩

/-- **No text is refused for what a safeguard reports.** -/
theorem reported_of_parse {name source : String} {e : SyntaxError}
    (h : parse policy name source = .error e) : e.cause.Reported := by
  obtain ⟨file, hdrive⟩ := parse_eq_error_iff_drive.mp h
  rcases eq_error_of_drive hdrive with hending | ⟨t, -, s, cause, hstep, rfl⟩ |
    ⟨last, s, cause, -, hend, rfl⟩
  · obtain ⟨byte, hcause⟩ := Scanner.Scan.cause_of_ending hending
    rw [hcause]
    exact reported_strayByte byte
  · exact Stage.reported_of_step hstep
  · exact Stage.reported_of_atEnd hend

/-- **Behind the declarations of a text nothing is left.** -/
theorem finish_of_declarations {source : String} {file file' : FileDraft} {c : Cursor}
    (h : declarations policy file (.ofSource source) = (file', .ok () c)) :
    c.remainder = "" ∧ finish c = .ok () c := by
  have hfollows : FollowsToEnd policy ⟨file, .declaration⟩ _ _
      (declarations policy file (.ofSource source)) := drive_declarations (ahead_ofSource source)
  rw [h] at hfollows
  obtain ⟨-, hrest⟩ := hfollows
  constructor
  · rw [remainder, Scanner.remainder, hrest, String.ofList_nil]
  · rw [finish, hrest]
    rfl

/-! ## Readers from any cursor -/

/-- An outcome that shows no trouble with pushing back: no token is left pushed back on success, and
failure has another cause. -/
def Settled : EStateM.Result SyntaxError Cursor α → Prop
  | .ok _ c => c.failure = none ∧ c.pushedBack = false
  | .error e _ => e.cause ≠ .repeatedPushback

/-- A reader that may begin with a token pushed back. -/
def Settles (x : Reading α) : Prop := ∀ c : Cursor, c.failure = none → Settled (x c)

/-- A reader that goes on behind a token that was read. -/
def Keeps (x : Reading α) : Prop :=
  ∀ c : Cursor, c.failure = none → c.pushedBack = false → Settled (x c)

theorem Settles.keeps {x : Reading α} (h : Settles x) : Keeps x :=
  fun c hfailure _ => h c hfailure

theorem keeps_pure (a : α) : Keeps (pure a) := fun _ hfailure hback => ⟨hfailure, hback⟩

theorem keeps_fail {cause : Cause} (h : cause ≠ .repeatedPushback) :
    Keeps (fail cause : Reading α) := fun _ _ _ => h

theorem Settled.bind {x : Reading α} {f : α → Reading β} {c : Cursor} (hx : Settled (x c))
    (hf : ∀ a, Keeps (f a)) : Settled ((x >>= f) c) := by
  cases hread : x c with
  | ok a c₁ =>
    rw [hread] at hx
    rw [Reading.bind_of_ok hread]
    exact hf a c₁ hx.1 hx.2
  | error e c₁ =>
    rw [hread] at hx
    rw [Reading.bind_of_error hread]
    exact hx

theorem Settles.bind {x : Reading α} {f : α → Reading β} (hx : Settles x)
    (hf : ∀ a, Keeps (f a)) : Settles (x >>= f) :=
  fun c hfailure => (hx c hfailure).bind hf

theorem Keeps.bind {x : Reading α} {f : α → Reading β} (hx : Keeps x)
    (hf : ∀ a, Keeps (f a)) : Keeps (x >>= f) :=
  fun c hfailure hback => (hx c hfailure hback).bind hf

/-- A token that was just read may be pushed back for a reader that reads it again. -/
theorem Settles.afterPushback {x : Reading α} (h : Settles x) : Keeps (do pushback; x) := by
  intro c hfailure hback
  have hpush : pushback c = .ok () { c with pushedBack := true } := by
    rw [pushback, if_neg (by simp [hback])]
  rw [Reading.bind_of_ok hpush]
  exact h _ hfailure

/-- **Reading a token settles.** -/
theorem settles_advance : Settles advance := by
  intro c hfailure
  cases hback : c.pushedBack with
  | true =>
    rw [advance_of_pushedBack hfailure hback]
    exact ⟨hfailure, rfl⟩
  | false =>
    rcases hadv : c.scanner.advance with ⟨e | _ | t, s⟩
    · rw [advance_of_scanError hfailure hback hadv]
      obtain ⟨byte, hcause⟩ := Scanner.cause_of_advance hadv
      show e.cause ≠ _
      rw [hcause]
      nofun
    · rw [advance_of_none hfailure hback hadv]
      exact ⟨hfailure, hback⟩
    · rw [advance_of_token hfailure hback hadv]
      exact ⟨hfailure, hback⟩

theorem settles_expect (value : String) : Settles (expect value) := by
  refine settles_advance.bind fun t => ?_
  split
  · exact keeps_pure ()
  · exact keeps_fail nofun

theorem settles_header : Settles header := by
  refine (settles_expect _).bind fun _ => ?_
  refine settles_advance.keeps.bind fun name => ?_
  refine (settles_expect _).keeps.bind fun _ => ?_
  exact keeps_pure _

theorem settles_label : Settles label := by
  refine settles_advance.bind fun t => ?_
  split
  · exact keeps_pure _
  · exact keeps_fail nofun

theorem settles_number : Settles number := by
  refine settles_advance.bind fun t => ?_
  split
  · exact keeps_pure _
  · exact keeps_fail nofun

theorem settles_field : Settles field := by
  refine settles_label.bind fun label => ?_
  refine settles_advance.keeps.bind fun type => ?_
  refine settles_advance.keeps.bind fun name => ?_
  refine (settles_expect _).keeps.bind fun _ => ?_
  refine settles_number.keeps.bind fun number => ?_
  refine (settles_expect _).keeps.bind fun _ => ?_
  exact keeps_pure _

theorem settles_item (n : Nesting) : Settles (item policy n) := by
  refine settles_advance.bind fun t => ?_
  split
  · exact (settles_field.bind fun f => keeps_pure _).afterPushback
  split
  · exact (settles_header.bind fun name => keeps_pure _).afterPushback
  split
  · exact keeps_pure _
  split
  · exact keeps_fail nofun
  cases policy with
  | skip => exact keeps_pure _
  | reject => exact keeps_fail nofun

theorem settled_body {n : Nesting} {c : Cursor} (h : c.failure = none) :
    Settled (body policy n c) := by
  have hitem : Settled (item policy n c) := settles_item n c h
  fun_induction body policy n c with
  | case1 n c n' c₁ hread ih =>
    rw [hread] at hitem
    exact ih hitem.1 (settles_item n' c₁ hitem.1)
  | case2 n c m c₁ hread =>
    rw [hread] at hitem
    exact hitem
  | case3 n c e c₁ hread =>
    rw [hread] at hitem
    exact hitem

theorem settles_message : Settles (message policy) :=
  settles_header.bind fun _ _ hfailure _ => settled_body hfailure

theorem settles_declaration : Settles (declaration policy) := by
  refine settles_advance.bind fun t => ?_
  split
  · exact settles_advance.keeps.bind fun name => keeps_pure _
  split
  · exact (settles_message.bind fun m => keeps_pure _).afterPushback
  split
  · exact keeps_pure _
  · exact keeps_fail nofun

theorem settled_declarations {file : FileDraft} {c : Cursor} (h : c.failure = none) :
    Settled (declarations policy file c).2 := by
  have hdecl : Settled (declaration policy c) := settles_declaration c h
  fun_induction declarations policy file c with
  | case1 file c name c₁ hread c₂ hexpect ih =>
    rw [hread] at hdecl
    have hsemicolon := settles_expect ";" c₁ hdecl.1
    rw [hexpect] at hsemicolon
    exact ih hsemicolon.1 (settles_declaration c₂ hsemicolon.1)
  | case2 file c name c₁ hread e c₂ hexpect =>
    rw [hread] at hdecl
    have hsemicolon := settles_expect ";" c₁ hdecl.1
    rw [hexpect] at hsemicolon
    exact hsemicolon
  | case3 file c m c₁ hread ih =>
    rw [hread] at hdecl
    exact ih hdecl.1 (settles_declaration c₁ hdecl.1)
  | case4 file c c₁ hread =>
    rw [hread] at hdecl
    exact hdecl
  | case5 file c e c₁ hread =>
    rw [hread] at hdecl
    exact hdecl

/-- **No safeguard is ever set off.** Behind the declarations of a text nothing is left, and the
text is never refused for what a safeguard reports; the words that lead to a field in a body are
those that its label is read from. From any cursor without an error, wherever it stands and whether
or not a token is pushed back, no reader pushes back a second token, and none leaves one pushed back
when it succeeds. -/
theorem declarations_safe (policy : UnknownContent) :
    (∀ source file file' c, declarations policy file (.ofSource source) = (file', .ok () c) →
      c.remainder = "" ∧ finish c = .ok () c) ∧
    (∀ name source e, parse policy name source = .error e → e.cause.Reported) ∧
    (∀ word, word = "required" ∨ word = "optional" ∨ word = "repeated" ↔
      (Label.ofKeyword? word).isSome) ∧
    ∀ c : Cursor, c.failure = none →
      (∀ file, Settled (declarations policy file c).2) ∧ Settled (message policy c) ∧
        Settled (header c) ∧ Settled (field c) ∧ ∀ value, Settled (expect value c) := by
  refine ⟨fun _ _ _ _ => finish_of_declarations, fun _ _ _ => reported_of_parse,
    fun _ => Label.isSome_ofKeyword?_iff.symm, fun c h => ?_⟩
  exact ⟨fun _ => settled_declarations h, settles_message c h, settles_header c h,
    settles_field c h, fun value => settles_expect value c h⟩

end Declaration

end ProtoSchema
