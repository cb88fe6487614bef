import ProtoSchema.Token.Scanner

/-!
# Reading tokens with one step back

A cursor delivers the tokens of a text one by one, and past the last one the end of the text for
ever. The token that was read last can be pushed back once, and is then delivered again. The first
error is kept: every later read answers with it.

Readers are computations in `Reading`. They keep the cursor on success and on failure alike.

## Progress

`weight` bounds the work ahead: two for each character not yet read, one for a token pushed back.
Delivering a token other than the end lowers it (`weight_lt_of_advance`), no delivery raises it
(`weight_le_of_advance`), and pushing back adds one (`weight_of_pushback`).
-/

namespace ProtoSchema

/-- A place in the token stream of a text. -/
structure Cursor where
  scanner : Scanner
  /-- The token that was delivered last. -/
  current : Token
  /-- Whether `current` is to be delivered again. -/
  pushedBack : Bool
  /-- The first error, once there is one. -/
  failure : Option SyntaxError
  /-- Every token delivered so far, repeats included. -/
  reads : Array Token

/-- A computation that reads tokens and stops at the first error. -/
abbrev Reading (α : Type) := EStateM SyntaxError Cursor α

namespace Cursor

/-- A cursor at the start of a text. -/
def ofSource (source : String) : Cursor :=
  { scanner := .ofSource source, current := .start, pushedBack := false, failure := none,
    reads := #[] }

/-- The text behind the last token that was scanned. -/
def remainder (c : Cursor) : String := c.scanner.remainder

/-! ## Operations -/

/-- Delivers the current token. -/
def deliver : Reading Token := fun c =>
  .ok c.current { c with reads := c.reads.push c.current }

/-- Moves to the next token and delivers it. -/
def advance : Reading Token := fun c =>
  match c.failure with
  | some e => .error e c
  | none =>
    if c.pushedBack then deliver { c with pushedBack := false }
    else
      match c.scanner.advance with
      | (.ok (some t), s) => deliver { c with scanner := s, current := t }
      | (.ok none, s) => deliver { c with scanner := s, current := s.endToken }
      | (.error e, s) => .error e { c with scanner := s, failure := some e }

/-- Stops with an error at the current token. -/
def fail {α : Type} (cause : SyntaxError.Cause) : Reading α := fun c =>
  let e : SyntaxError := { cause, line := c.current.line, span := c.current.span }
  .error e { c with failure := some e }

/-- Has the current token delivered again by the next read. -/
def pushback : Reading Unit := fun c =>
  if c.pushedBack then fail .repeatedPushback c
  else .ok () { c with pushedBack := true }

/-- Delivers the next token without moving past it. -/
def peek : Reading Token := do
  let token ← advance
  pushback
  return token

/-! ## Progress -/

/-- A bound on the work ahead. -/
def weight (c : Cursor) : Nat :=
  2 * c.scanner.rest.length + if c.pushedBack then 1 else 0

/-- A read leaves no token pushed back and never adds work. -/
theorem weight_le_of_advance {c c' : Cursor} {t : Token} (h : advance c = .ok t c') :
    c'.weight ≤ c.weight ∧ c'.pushedBack = false := by
  have hle := c.scanner.length_rest_advance_le
  unfold advance at h
  split at h
  · cases h
  · split at h
    · cases h
      simp [weight]
    · split at h <;> cases h
      all_goals
        next hadv =>
          simp only [hadv] at hle
          refine ⟨?_, by simp_all⟩
          simp only [weight]
          omega

/-- **A read of anything but the end of the text lessens the work ahead.** -/
theorem weight_lt_of_advance {c c' : Cursor} {t : Token} (h : advance c = .ok t c')
    (hne : t.value ≠ "") : c'.weight < c.weight := by
  unfold advance at h
  split at h
  · cases h
  · split at h
    · cases h
      simp_all [weight]
    · split at h
      · next hadv =>
        have hlt := Scanner.length_rest_advance hadv
        cases h
        simp_all [weight]
      · cases h
        exact absurd rfl hne
      · cases h

/-- Pushing back takes one read to undo. -/
theorem weight_of_pushback {c c' : Cursor} (h : pushback c = .ok () c') :
    c'.weight = c.weight + 1 := by
  unfold pushback at h
  split at h
  · cases h
  · cases h
    simp_all [weight]

end Cursor

/-- A sequence of two readers succeeds exactly if both do, one after the other. -/
theorem Reading.bind_eq_ok_iff {α β : Type} {x : Reading α} {f : α → Reading β} {c c' : Cursor}
    {b : β} :
    (x >>= f) c = .ok b c' ↔ ∃ a c₁, x c = .ok a c₁ ∧ f a c₁ = .ok b c' := by
  change EStateM.bind x f c = _ ↔ _
  unfold EStateM.bind
  cases x c with
  | ok a c₁ =>
    constructor
    · exact fun h => ⟨a, c₁, rfl, h⟩
    · rintro ⟨a, c₁, h, h'⟩
      cases h
      exact h'
  | error e c₁ => simp

end ProtoSchema
