import ProtoSchema.Proofs.Declaration.Drive
import ProtoSchema.Proofs.Token.Order

/-!
# Layout makes no difference

Two texts with the same token values may differ in all their blanks, newlines and comments. The
machine is moved by values alone, so its two runs go through the same stages; the places of tokens
only come in when an error is made, and then for the same token of both texts.

Main statement: `parse_layout`.
-/

namespace ProtoSchema

namespace Declaration

variable {policy : UnknownContent} {tokens tokens' : List Token}
  {ending ending' : Except SyntaxError Token} {e e' : SyntaxError}

/-! ## Places -/

/-- Two texts end alike: properly, or at stray characters of the same kind. -/
inductive EndAlike : Except SyntaxError Token → Except SyntaxError Token → Prop where
  | proper {last last' : Token} : EndAlike (.ok last) (.ok last')
  | stray {e e' : SyntaxError} : e.cause = e'.cause → EndAlike (.error e) (.error e')

/-- Errors of two texts at the same place: at tokens of the same index, at the end of both texts, or
at the stray characters that end them. -/
inductive SamePlace (tokens tokens' : List Token) (ending ending' : Except SyntaxError Token) :
    SyntaxError → SyntaxError → Prop where
  | atToken {i : Nat} {t t' : Token} {cause : SyntaxError.Cause} : tokens[i]? = some t →
      tokens'[i]? = some t' →
        SamePlace tokens tokens' ending ending' (errorAt t cause) (errorAt t' cause)
  | atEnd {last last' : Token} {cause : SyntaxError.Cause} : ending = .ok last →
      ending' = .ok last' →
        SamePlace tokens tokens' ending ending' (errorAt last cause) (errorAt last' cause)
  | atStray {e e' : SyntaxError} : ending = .error e → ending' = .error e' →
      e.cause = e'.cause → SamePlace tokens tokens' ending ending' e e'

/-- One more token in front of both texts moves all places alike. -/
theorem SamePlace.cons {t t' : Token} (h : SamePlace tokens tokens' ending ending' e e') :
    SamePlace (t :: tokens) (t' :: tokens') ending ending' e e' := by
  cases h with
  | @atToken i _ _ _ ht ht' =>
    have hnext : (t :: tokens)[i + 1]? = _ := ht
    exact .atToken hnext ht'
  | atEnd hlast hlast' => exact .atEnd hlast hlast'
  | atStray he he' hcause => exact .atStray he he' hcause

/-! ## Two runs of the machine -/

/-- **The machine reads values alone.** Over tokens of the same values it accepts the same file, or
it stops at the same place for the same cause. -/
theorem drive_layout (hvalues : tokens.map Token.value = tokens'.map Token.value)
    (hends : EndAlike ending ending') (s : Stage) :
    (∃ file, drive policy s tokens ending = (file, .ok ()) ∧
        drive policy s tokens' ending' = (file, .ok ())) ∨
      ∃ file e e', drive policy s tokens ending = (file, .error e) ∧
        drive policy s tokens' ending' = (file, .error e') ∧
          SamePlace tokens tokens' ending ending' e e' := by
  induction tokens generalizing tokens' s with
  | nil =>
    obtain rfl : tokens' = [] := List.map_eq_nil_iff.mp hvalues.symm
    cases hends with
    | stray hcause => exact Or.inr ⟨s.file, _, _, rfl, rfl, .atStray rfl rfl hcause⟩
    | proper =>
      rw [drive, drive]
      rcases s.atEnd with ⟨file, _ | cause⟩
      · exact Or.inl ⟨file, rfl, rfl⟩
      · exact Or.inr ⟨file, _, _, rfl, rfl, .atEnd rfl rfl⟩
  | cons t tokens ih =>
    obtain ⟨t', tokens', rfl⟩ : ∃ t' rest, tokens' = t' :: rest := by
      cases tokens' with
      | nil => cases hvalues
      | cons t' rest => exact ⟨t', rest, rfl⟩
    rw [List.map_cons, List.map_cons, List.cons.injEq] at hvalues
    obtain ⟨hvalue, hvalues⟩ := hvalues
    cases hstep : s.step policy t.value with
    | ok next =>
      have hstep' : s.step policy t'.value = .ok next := hvalue ▸ hstep
      rw [drive_cons_ok hstep, drive_cons_ok hstep']
      rcases ih hvalues next with hsame | ⟨file, e, e', hdrive, hdrive', hplace⟩
      · exact Or.inl hsame
      · exact Or.inr ⟨file, e, e', hdrive, hdrive', hplace.cons⟩
    | error cause =>
      have hstep' : s.step policy t'.value = .error cause := hvalue ▸ hstep
      rw [drive_cons_error hstep, drive_cons_error hstep']
      have hplace : SamePlace (t :: tokens) (t' :: tokens') ending ending' (errorAt t cause)
          (errorAt t' cause) := by
        have hfirst : (t :: tokens)[0]? = some t := rfl
        exact .atToken hfirst rfl
      exact Or.inr ⟨s.file, _, _, rfl, rfl, hplace⟩

end Declaration

open Declaration Scanner

/-! ## Texts -/

variable {policy : UnknownContent} {source source' : String}

/-- Scans that fail alike, or do not, end alike. -/
theorem Scanner.Scan.endAlike {scan scan' : Scan}
    (h : scan.failure.map SyntaxError.cause = scan'.failure.map SyntaxError.cause) :
    EndAlike scan.ending scan'.ending := by
  unfold Scan.ending
  cases hfailure : scan.failure with
  | none =>
    rw [hfailure, Option.map_none, eq_comm, Option.map_eq_none_iff] at h
    rw [h]
    exact .proper
  | some e =>
    rw [hfailure, Option.map_some, eq_comm, Option.map_eq_some_iff] at h
    obtain ⟨e', hfailure', hcause⟩ := h
    rw [hfailure']
    exact .stray hcause.symm

/-- **Layout makes no difference.** Two texts with the same token values that end the same way are
parsed to the same file, or refused for the same cause: at tokens of the same index, at the end of
both, or at the stray characters that end them. -/
theorem parse_layout {name : String}
    (hvalues : (ofSource source).readAll.tokens.map Token.value
      = (ofSource source').readAll.tokens.map Token.value)
    (hends : (ofSource source).readAll.failure.map SyntaxError.cause
      = (ofSource source').readAll.failure.map SyntaxError.cause) :
    (∃ file, parse policy name source = .ok file ∧ parse policy name source' = .ok file) ∨
      ∃ e e', parse policy name source = .error e ∧ parse policy name source' = .error e' ∧
        e.cause = e'.cause ∧
          ((∃ (i : Nat) (t t' : Token), (ofSource source).readAll.tokens[i]? = some t ∧
              (ofSource source').readAll.tokens[i]? = some t' ∧
                e = errorAt t e.cause ∧ e' = errorAt t' e'.cause) ∨
            (e = errorAt (.endOf source) e.cause ∧ e' = errorAt (.endOf source') e'.cause) ∨
              ((ofSource source).readAll.failure = some e ∧
                (ofSource source').readAll.failure = some e')) := by
  rcases drive_layout hvalues (Scan.endAlike hends) ⟨.named name, .declaration⟩ with
    ⟨file, hdrive, hdrive'⟩ | ⟨file, e, e', hdrive, hdrive', hplace⟩
  · exact Or.inl ⟨file.finish, parse_eq_ok_iff_drive.mpr ⟨file, hdrive, rfl⟩,
      parse_eq_ok_iff_drive.mpr ⟨file, hdrive', rfl⟩⟩
  · refine Or.inr ⟨e, e', parse_eq_error_iff_drive.mpr ⟨file, hdrive⟩,
      parse_eq_error_iff_drive.mpr ⟨file, hdrive'⟩, ?_⟩
    cases hplace with
    | atToken ht ht' => exact ⟨rfl, Or.inl ⟨_, _, _, ht, ht', rfl, rfl⟩⟩
    | atEnd hlast hlast' =>
      rw [ending_eq_endOf (Scan.failure_of_ending_ok hlast).1] at hlast
      rw [ending_eq_endOf (Scan.failure_of_ending_ok hlast').1] at hlast'
      cases hlast
      cases hlast'
      exact ⟨rfl, Or.inr (Or.inl ⟨rfl, rfl⟩)⟩
    | atStray he he' hcause =>
      exact ⟨hcause, Or.inr (Or.inr ⟨Scan.failure_of_ending he, Scan.failure_of_ending he'⟩)⟩

/-- A missing semicolon is missed alike behind a comment. -/
theorem parse_layout_comment :
    (ofSource "package a b").readAll.tokens.map Token.value
        = (ofSource "package // x\n a\nb").readAll.tokens.map Token.value ∧
      ∃ e, parse .skip "f" "package // x\n a\nb" = .error e ∧
        e.cause = .unexpectedToken ";" "b" := by
  have hvalues : (ofSource "package a b").readAll.tokens.map Token.value
      = (ofSource "package // x\n a\nb").readAll.tokens.map Token.value := by decide +kernel
  have hends : (ofSource "package a b").readAll.failure.map SyntaxError.cause
      = (ofSource "package // x\n a\nb").readAll.failure.map SyntaxError.cause := by decide +kernel
  have hparse : parse .skip "f" "package a b" = .error
      { cause := .unexpectedToken ";" "b", line := 1, span := { start := 10, stop := 11 } } := by
    decide +kernel
  refine ⟨hvalues, ?_⟩
  rcases @parse_layout .skip _ _ "f" hvalues hends with
    ⟨file, haccepted, -⟩ | ⟨e, e', hrefused, hrefused', hcause, -⟩
  · rw [hparse] at haccepted
    cases haccepted
  · rw [hparse] at hrefused
    cases hrefused
    exact ⟨e', hrefused', hcause.symm⟩

end ProtoSchema
