import ProtoSchema.Proofs.Declaration.Readings
import ProtoSchema.Proofs.Token.Blanking

/-!
# Skipping is blanking out

A token of unknown content that is skipped might as well not be there. Over the tokens of a text,
the machine that skips unknown content does what the machine that refuses it does over the others
(`drive_filter`). So a text is read with unknown content skipped as it is read with it refused once
that content is overwritten by spaces (`blanked`).

That content is no more and no less than what the run skips (`mem_unknownContent_iff`).

Main statement: `parse_skip_eq_parse_blanked`.
-/

namespace ProtoSchema

open Declaration Scanner

namespace Declaration

open Cursor

/-! ## What is skipped -/

section

variable {n : Nesting} {c c' : Cursor} {t : Token}

/-- A token that is skipped when a body is read. -/
inductive SkipsInBody : Nesting → Cursor → Token → Prop where
  | here {n : Nesting} {c : Cursor} {t : Token} : Skips n c t → SkipsInBody n c t
  | later {n n' : Nesting} {c c' : Cursor} {t : Token} : item .skip n c = .ok (.more n') c' →
      SkipsInBody n' c' t → SkipsInBody n c t

/-- A token that is skipped when a message is read, its keyword being next. -/
def SkipsInMessage (c : Cursor) (t : Token) : Prop :=
  ∃ keyword c₁ c₂ name c₃, advance c = .ok keyword c₁ ∧ keyword.value = "message" ∧
    pushback c₁ = .ok () c₂ ∧ header c₂ = .ok name c₃ ∧ SkipsInBody (.outermost name) c₃ t

/-- A token that is skipped when declarations are read. -/
inductive SkipsAhead : Cursor → Token → Prop where
  | here {c : Cursor} {t : Token} : SkipsInMessage c t → SkipsAhead c t
  | afterMessage {c c' : Cursor} {m : MessageDescriptor} {t : Token} :
      declaration .skip c = .ok (.message m) c' → SkipsAhead c' t → SkipsAhead c t
  | afterPackage {c c' c'' : Cursor} {name : String} {t : Token} :
      declaration .skip c = .ok (.package name) c' → expect ";" c' = .ok () c'' →
      SkipsAhead c'' t → SkipsAhead c t

theorem skipsInBody_iff :
    SkipsInBody n c t ↔
      Skips n c t ∨ ∃ n' c', item .skip n c = .ok (.more n') c' ∧ SkipsInBody n' c' t := by
  constructor
  · intro h
    cases h with
    | here hskips => exact Or.inl hskips
    | later hitem hlater => exact Or.inr ⟨_, _, hitem, hlater⟩
  · rintro (hskips | ⟨n', c', hitem, hlater⟩)
    · exact .here hskips
    · exact .later hitem hlater

theorem skipsAhead_iff :
    SkipsAhead c t ↔
      SkipsInMessage c t ∨
        (∃ m c', declaration .skip c = .ok (.message m) c' ∧ SkipsAhead c' t) ∨
          ∃ name c' c'', declaration .skip c = .ok (.package name) c' ∧
            expect ";" c' = .ok () c'' ∧ SkipsAhead c'' t := by
  constructor
  · intro h
    cases h with
    | here hskips => exact Or.inl hskips
    | afterMessage hdecl hlater => exact Or.inr (Or.inl ⟨_, _, hdecl, hlater⟩)
    | afterPackage hdecl hexpect hlater =>
      exact Or.inr (Or.inr ⟨_, _, _, hdecl, hexpect, hlater⟩)
  · rintro (hskips | ⟨m, c', hdecl, hlater⟩ | ⟨name, c', c'', hdecl, hexpect, hlater⟩)
    · exact .here hskips
    · exact .afterMessage hdecl hlater
    · exact .afterPackage hdecl hexpect hlater

/-- **In a body, unknown content is what is skipped.** -/
theorem mem_unknownInBody_iff : t ∈ unknownInBody .skip n c ↔ SkipsInBody n c t := by
  fun_induction unknownInBody .skip n c with
  | case1 n c n' c' hitem ih =>
    rw [skipsInBody_iff, List.mem_append, Option.mem_toList, unknownItem?_eq_some_iff (n := n), ih]
    simp [hitem]
  | case2 n c m c' hitem =>
    rw [Option.mem_toList, unknownItem?_eq_some_iff (n := n), skipsInBody_iff]
    simp [hitem]
  | case3 n c e c' hitem =>
    rw [Option.mem_toList, unknownItem?_eq_some_iff (n := n), skipsInBody_iff]
    simp [hitem]

theorem mem_unknownInDeclaration_iff :
    t ∈ unknownInDeclaration .skip c ↔ SkipsInMessage c t := by
  unfold unknownInDeclaration unknownInMessage SkipsInMessage
  cases hadv : advance c with
  | error e c₁ => simp
  | ok keyword c₁ =>
    by_cases hkeyword : keyword.value = "message"
    · cases hpush : pushback c₁ with
      | error e c₂ => simp [hkeyword, hpush]
      | ok _ c₂ =>
        cases hheader : header c₂ with
        | error e c₃ => simp [hkeyword, hpush, hheader]
        | ok name c₃ => simp [hkeyword, hpush, hheader, mem_unknownInBody_iff]
    · simp [hkeyword]

/-- Outside messages nothing is skipped. -/
theorem not_skipsInMessage {o : Opening} (h : declaration .skip c = .ok o c')
    (hne : ∀ m, o ≠ .message m) : ¬SkipsInMessage c t := by
  rw [← mem_unknownInDeclaration_iff, unknownInDeclaration_eq_nil h hne]
  exact List.not_mem_nil

/-- **Unknown content is what is skipped.** A token belongs to it exactly if the run that skips
unknown content skips it: in the body of some message, an item is that token alone and leaves the
open messages as they are. -/
theorem mem_unknownContent_iff : t ∈ unknownContent .skip c ↔ SkipsAhead c t := by
  fun_induction unknownContent .skip c with
  | case1 c name c₁ hdecl c₂ hexpect ih =>
    rw [skipsAhead_iff, ih]
    simp [not_skipsInMessage hdecl (by simp), hdecl, hexpect]
  | case2 c name c₁ hdecl e c₂ hexpect =>
    rw [skipsAhead_iff]
    simp [not_skipsInMessage hdecl (by simp), hdecl, hexpect]
  | case3 c m c₁ hdecl ih =>
    rw [skipsAhead_iff, List.mem_append, mem_unknownInDeclaration_iff, ih]
    simp [hdecl]
  | case4 c c₁ hdecl =>
    rw [skipsAhead_iff]
    simp [not_skipsInMessage hdecl (by simp), hdecl]
  | case5 c e c₁ hdecl =>
    rw [mem_unknownInDeclaration_iff, skipsAhead_iff]
    simp [hdecl]

end

end Declaration

/-! ## The machine without unknown content -/

namespace Declaration

variable {policy : UnknownContent} {s : Stage} {tokens : List Token}
  {ending : Except SyntaxError Token}

/-- Unknown content is among the tokens. -/
theorem mem_of_mem_unknowns {t : Token} (h : t ∈ unknowns (readings policy s tokens ending)) :
    t ∈ tokens := by
  induction tokens generalizing s with
  | nil =>
    cases ending with
    | error e => cases h
    | ok last =>
      obtain ⟨r, hr, hsome⟩ := List.mem_filterMap.mp h
      rw [List.eq_of_mem_replicate hr] at hsome
      cases hsome
  | cons u tokens ih =>
    have hfirst : t ∈ unknowns [(s.role u.value, u)] → t ∈ u :: tokens := by
      intro ht
      rw [unknowns_singleton] at ht
      split at ht
      · exact List.mem_singleton.mp ht ▸ List.mem_cons_self
      · cases ht
    cases hstep : s.step policy u.value with
    | ok next =>
      rw [readings_cons_ok hstep, unknowns_append, List.mem_append] at h
      exact h.elim hfirst fun h => List.mem_cons_of_mem _ (ih h)
    | error cause =>
      rw [readings_cons_error hstep] at h
      exact hfirst h

/-- **Without its unknown content, a text is read alike where such content is refused.** -/
theorem drive_filter {ts : List Token} (s : Stage) (hnodup : tokens.Nodup)
    (hts : ∀ t ∈ tokens, t ∈ ts ↔ t ∈ unknowns (readings .skip s tokens ending)) :
    drive .reject s (tokens.filter fun t => t ∉ ts) ending = drive .skip s tokens ending := by
  induction tokens generalizing s with
  | nil => cases ending <;> rfl
  | cons t tokens ih =>
    obtain ⟨hfresh, hnodup⟩ := List.nodup_cons.mp hnodup
    by_cases hrole : s.role t.value = .unknown
    · have hstep := Stage.step_of_unknown hrole
      rw [readings_cons_ok hstep, unknowns_append, unknowns_singleton, if_pos hrole] at hts
      have hmem : t ∈ ts := (hts t List.mem_cons_self).mpr List.mem_cons_self
      rw [List.filter_cons_of_neg (by simpa using hmem), drive_cons_ok hstep]
      refine ih s hnodup fun u hu => ?_
      rw [hts u (List.mem_cons_of_mem _ hu), List.singleton_append, List.mem_cons]
      exact or_iff_right fun heq => hfresh (heq ▸ hu)
    · have hsame := Stage.step_of_known hrole
      cases hstep : s.step .skip t.value with
      | ok next =>
        rw [readings_cons_ok hstep, unknowns_append, unknowns_singleton, if_neg hrole,
          List.nil_append] at hts
        have hmem : t ∉ ts := fun ht =>
          hfresh (mem_of_mem_unknowns ((hts t List.mem_cons_self).mp ht))
        rw [List.filter_cons_of_pos (by simpa using hmem), drive_cons_ok (hsame.trans hstep),
          drive_cons_ok hstep]
        exact ih next hnodup fun u hu => hts u (List.mem_cons_of_mem _ hu)
      | error cause =>
        rw [readings_cons_error hstep, unknowns_singleton, if_neg hrole] at hts
        have hmem : t ∉ ts := fun ht => List.not_mem_nil ((hts t List.mem_cons_self).mp ht)
        rw [List.filter_cons_of_pos (by simpa using hmem),
          drive_cons_error (hsame.trans hstep), drive_cons_error hstep]

end Declaration

/-! ## Texts -/

/-- No token is found twice in a text. -/
theorem nodup_readAll (source : String) : (ofSource source).readAll.tokens.Nodup := by
  refine (pairwise_offset_readAll source).imp ?_
  rintro t u hlt rfl
  exact absurd hlt (Nat.lt_irrefl _)

/-- **The unknown content that the reader meets is that of the machine.** -/
theorem unknownContent_ofSource (policy : UnknownContent) (name source : String) :
    unknownContent policy (.ofSource source)
      = unknowns (readings policy ⟨.named name, .declaration⟩ (ofSource source).readAll.tokens
          (ofSource source).readAll.ending) :=
  (accounts_declarations policy (.named name) (Cursor.ahead_ofSource source)).2.symm

/-- The text with the unknown content that is skipped in it overwritten by spaces. -/
def blanked (source : String) : String :=
  blank (unknownContent .skip (.ofSource source)) source

/-- **Skipping a token is blanking it out.** Whatever is read of a text with unknown content skipped,
the file or the error with its kind and place, is read of the blanked text with unknown content
refused. -/
theorem parse_skip_eq_parse_blanked (name source : String) :
    parse .skip name source = parse .reject name (blanked source) := by
  have hunknown := unknownContent_ofSource .skip name source
  have hmem : ∀ t ∈ unknownContent .skip (.ofSource source),
      t ∈ (ofSource source).readAll.tokens := by
    rw [hunknown]
    exact fun t => mem_of_mem_unknowns
  obtain ⟨htokens, hending⟩ := readAll_blank hmem
  have hdrive : drive .reject ⟨.named name, .declaration⟩
      ((ofSource source).readAll.tokens.filter fun t => t ∉ unknownContent .skip (.ofSource source))
      (ofSource source).readAll.ending
        = drive .skip ⟨.named name, .declaration⟩ (ofSource source).readAll.tokens
            (ofSource source).readAll.ending :=
    drive_filter _ (nodup_readAll source) fun t _ => by rw [hunknown]
  rw [parse_eq_drive, parse_eq_drive]
  simp only [blanked, htokens, hending, hdrive]

example :
    blanked "message M { enum E; optional int32 a = 1; reserved 2; }"
      = "message M {         optional int32 a = 1;             }" := by
  decide +kernel

end ProtoSchema
