import ProtoSchema.Declaration.File
import ProtoSchema.Proofs.Token.Lookahead

/-!
# Laws of readers

A reader is put together from three things that touch the cursor: a token is read, a token is pushed
back, or the reader stops with an error at the current token. So what these three do to any cursor,
and what carries over from one reader to the one behind it, all readers do. `Law` holds such a
statement together with what is to be shown of the three.

Main statements: `obeyed_message` for messages and `outcome_declarations` for files.
-/

namespace ProtoSchema.Declaration

open Cursor

variable {α β : Type} {policy : UnknownContent}

/-- A statement about what readers do to a cursor, from any place. -/
structure Law where
  /-- What holds of the cursors before and behind a reader that succeeds. -/
  Kept : Cursor → Cursor → Prop
  /-- What holds of the cursor before a reader that fails, of its error and of the cursor behind. -/
  Failed : Cursor → SyntaxError → Cursor → Prop
  kept_refl : ∀ c, Kept c c
  kept_trans : ∀ {c c₁ c₂}, Kept c c₁ → Kept c₁ c₂ → Kept c c₂
  failed_of_kept : ∀ {c c₁ c₂ e}, Kept c c₁ → Failed c₁ e c₂ → Failed c e c₂
  kept_advance : ∀ {c c' t}, advance c = .ok t c' → Kept c c'
  failed_advance : ∀ {c c' e}, advance c = .error e c' → Failed c e c'
  kept_pushback : ∀ {c c'}, pushback c = .ok () c' → Kept c c'
  failed_fail : ∀ {cause c c' e}, (fail cause : Reading Unit) c = .error e c' → Failed c e c'

namespace Law

/-- What the law says of one outcome. -/
def Outcome (L : Law) (c : Cursor) : EStateM.Result SyntaxError Cursor α → Prop
  | .ok _ c' => L.Kept c c'
  | .error e c' => L.Failed c e c'

/-- The law holds of a reader, from any place. -/
def Obeyed (L : Law) (x : Reading α) : Prop := ∀ c, L.Outcome c (x c)

variable {L : Law} {c c₁ : Cursor}

theorem Outcome.trans {a : α} {r : EStateM.Result SyntaxError Cursor β}
    (h : L.Outcome c (.ok a c₁)) (hr : L.Outcome c₁ r) : L.Outcome c r := by
  cases r with
  | ok b c₂ => exact L.kept_trans h hr
  | error e c₂ => exact L.failed_of_kept h hr

theorem Obeyed.kept {x : Reading α} {a : α} (hx : L.Obeyed x) (h : x c = .ok a c₁) :
    L.Kept c c₁ := by
  have houtcome := hx c
  rw [h] at houtcome
  exact houtcome

theorem Obeyed.failed {x : Reading α} {e : SyntaxError} (hx : L.Obeyed x)
    (h : x c = .error e c₁) : L.Failed c e c₁ := by
  have houtcome := hx c
  rw [h] at houtcome
  exact houtcome

/-- **The law carries over to two readers one after the other.** -/
theorem Obeyed.bind {x : Reading α} {f : α → Reading β} (hx : L.Obeyed x)
    (hf : ∀ a, L.Obeyed (f a)) : L.Obeyed (x >>= f) := by
  intro c
  cases hxc : x c with
  | ok a c₁ =>
    have hread : L.Outcome c (EStateM.Result.ok a c₁) := hx.kept hxc
    rw [Reading.bind_of_ok hxc]
    exact hread.trans (hf a c₁)
  | error e c₁ =>
    rw [Reading.bind_of_error hxc]
    exact hx.failed hxc

variable (L)

theorem obeyed_pure (a : α) : L.Obeyed (pure a) := L.kept_refl

theorem obeyed_fail (cause : SyntaxError.Cause) : L.Obeyed (fail cause : Reading α) := by
  intro c
  have hfail : (fail cause : Reading Unit) c = .error _ _ := rfl
  exact L.failed_fail hfail

theorem Obeyed.discard {L : Law} {x : Reading α} (hx : L.Obeyed x) : L.Obeyed (discard x) :=
  hx.bind fun _ => L.obeyed_pure _

/-! ## Single tokens -/

theorem obeyed_advance : L.Obeyed advance := by
  intro c
  cases hadv : advance c with
  | ok t c' => exact L.kept_advance hadv
  | error e c' => exact L.failed_advance hadv

theorem obeyed_pushback : L.Obeyed pushback := by
  intro c
  by_cases hback : c.pushedBack = true
  · rw [pushback, if_pos hback]
    exact L.obeyed_fail _ c
  · rw [pushback, if_neg hback]
    exact L.kept_pushback (by rw [pushback, if_neg hback])

theorem obeyed_peek : L.Obeyed peek :=
  L.obeyed_advance.bind fun _ => L.obeyed_pushback.bind fun _ => L.obeyed_pure _

theorem obeyed_expect (value : String) : L.Obeyed (expect value) := by
  refine L.obeyed_advance.bind fun t => ?_
  split
  · exact L.obeyed_pure ()
  · exact L.obeyed_fail _

theorem obeyed_label : L.Obeyed label := by
  refine L.obeyed_advance.bind fun t => ?_
  split
  · exact L.obeyed_pure _
  · exact L.obeyed_fail _

theorem obeyed_number : L.Obeyed number := by
  refine L.obeyed_advance.bind fun t => ?_
  split
  · exact L.obeyed_pure _
  · exact L.obeyed_fail _

/-! ## Parts of a file -/

theorem obeyed_header : L.Obeyed header := by
  refine (L.obeyed_expect _).bind fun _ => ?_
  refine L.obeyed_advance.bind fun name => ?_
  refine (L.obeyed_expect _).bind fun _ => ?_
  exact L.obeyed_pure _

theorem obeyed_field : L.Obeyed field := by
  refine L.obeyed_label.bind fun label => ?_
  refine L.obeyed_advance.bind fun type => ?_
  refine L.obeyed_advance.bind fun name => ?_
  refine (L.obeyed_expect _).bind fun _ => ?_
  refine L.obeyed_number.bind fun number => ?_
  refine (L.obeyed_expect _).bind fun _ => ?_
  exact L.obeyed_pure _

theorem obeyed_item (n : Nesting) : L.Obeyed (item policy n) := by
  refine L.obeyed_advance.bind fun t => ?_
  split
  · exact L.obeyed_pushback.bind fun _ => L.obeyed_field.bind fun f => L.obeyed_pure _
  split
  · exact L.obeyed_pushback.bind fun _ => L.obeyed_header.bind fun name => L.obeyed_pure _
  split
  · exact L.obeyed_pure _
  split
  · exact L.obeyed_fail _
  cases policy with
  | skip => exact L.obeyed_pure _
  | reject => exact L.obeyed_fail _

theorem obeyed_body (n : Nesting) : L.Obeyed (body policy n) := by
  intro c
  have hitem : L.Outcome c (item policy n c) := L.obeyed_item n c
  fun_induction body policy n c with
  | case1 n c n' c₁ hread ih =>
    rw [hread] at hitem
    exact hitem.trans (ih (L.obeyed_item n' c₁))
  | case2 n c m c₁ hread =>
    rw [hread] at hitem
    exact hitem
  | case3 n c e c₁ hread =>
    rw [hread] at hitem
    exact hitem

/-- **Every law holds of reading a message.** -/
theorem obeyed_message : L.Obeyed (message policy) :=
  L.obeyed_header.bind fun _ => L.obeyed_body _

theorem obeyed_declaration : L.Obeyed (declaration policy) := by
  refine L.obeyed_advance.bind fun t => ?_
  split
  · exact L.obeyed_advance.bind fun name => L.obeyed_pure _
  split
  · exact L.obeyed_pushback.bind fun _ => L.obeyed_message.bind fun m => L.obeyed_pure _
  split
  · exact L.obeyed_pure _
  · exact L.obeyed_fail _

/-- **Every law holds of reading the declarations of a file.** -/
theorem outcome_declarations (file : FileDraft) (c : Cursor) :
    L.Outcome c (declarations policy file c).2 := by
  have hdecl : L.Outcome c (declaration policy c) := L.obeyed_declaration c
  fun_induction declarations policy file c with
  | case1 file c name c₁ hread c₂ hexpect ih =>
    have hsemicolon := L.obeyed_expect ";" c₁
    rw [hread] at hdecl
    rw [hexpect] at hsemicolon
    exact (hdecl.trans hsemicolon).trans (ih (L.obeyed_declaration c₂))
  | case2 file c name c₁ hread e c₂ hexpect =>
    have hsemicolon := L.obeyed_expect ";" c₁
    rw [hread] at hdecl
    rw [hexpect] at hsemicolon
    exact hdecl.trans hsemicolon
  | case3 file c m c₁ hread ih =>
    rw [hread] at hdecl
    exact hdecl.trans (ih (L.obeyed_declaration c₁))
  | case4 file c c₁ hread =>
    rw [hread] at hdecl
    exact hdecl
  | case5 file c e c₁ hread =>
    rw [hread] at hdecl
    exact hdecl

end Law

end ProtoSchema.Declaration
