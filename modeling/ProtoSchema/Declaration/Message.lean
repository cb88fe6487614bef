import ProtoSchema.Declaration.Field
import ProtoSchema.Descriptor.Draft

/-!
# Reading messages

The body of a message holds fields and further messages. What else stands there is skipped token by
token, or refused, as the caller chooses. Messages may be nested to any depth: the reader keeps the
open ones in a `Nesting` instead of calling itself, so the depth is not bounded by the call stack.

## Termination

Every item of a body takes work off the cursor (`weight_lt_of_item`), so `body` ends.
-/

namespace ProtoSchema

/-- What happens to a token in a message body that starts neither a field nor a message and does
not close the body. -/
inductive UnknownContent where
  | skip
  | reject
deriving DecidableEq, Repr

namespace Declaration

open Cursor

/-- Where the reader of a body stands after one item. -/
inductive BodyStep where
  /-- Some message is still open. -/
  | more (nesting : Nesting)
  /-- The outermost message was closed. -/
  | closed (message : MessageDescriptor)

/-- Closes the innermost message and adds it to the one around it, if any. -/
def close (n : Nesting) : BodyStep :=
  match n.enclosing with
  | [] => .closed n.innermost.finish
  | parent :: rest =>
    .more { innermost := parent.addNested n.innermost.finish, enclosing := rest }

/-- Reads one item of a body: a field, the header of a nested message, a closing brace, or one
token of other content. -/
def item (policy : UnknownContent) (nesting : Nesting) : Reading BodyStep := do
  let token ← advance
  if (Label.ofKeyword? token.value).isSome then
    pushback
    let f ← field
    return .more (nesting.addField f)
  else if token.value = "message" then
    pushback
    let name ← header
    return .more (nesting.enter name)
  else if token.value = "\x7d" then
    return close nesting
  else if token.value = "" then
    fail .unclosedMessage
  else
    match policy with
    | .skip => return .more nesting
    | .reject => fail (.unknownContent token.value)

/-- **Every item takes work off the cursor.** -/
theorem weight_lt_of_item {policy : UnknownContent} {n : Nesting} {step : BodyStep} {c c' : Cursor}
    (h : item policy n c = .ok step c') : c'.weight < c.weight := by
  obtain ⟨t, c₁, hadv, h⟩ := Reading.bind_eq_ok_iff.1 h
  have hread := weight_lt_of_advance hadv
  split at h
  · next hlabel =>
    obtain ⟨_, c₂, hback, h⟩ := Reading.bind_eq_ok_iff.1 h
    obtain ⟨f, c₃, hfield, h⟩ := Reading.bind_eq_ok_iff.1 h
    cases h
    have hne : t.value ≠ "" := by
      intro heq
      simp [heq, Label.ofKeyword?] at hlabel
    have hb := weight_of_pushback hback
    have hf := weight_lt_of_field hfield
    have := hread hne
    omega
  · split at h
    · next heq =>
      obtain ⟨_, c₂, hback, h⟩ := Reading.bind_eq_ok_iff.1 h
      obtain ⟨name, c₃, hheader, h⟩ := Reading.bind_eq_ok_iff.1 h
      cases h
      have hb := weight_of_pushback hback
      have hh := weight_lt_of_header hheader
      have := hread (by simp [heq])
      omega
    · split at h
      · next heq =>
        obtain ⟨-, rfl⟩ := EStateM.Result.ok.inj h
        exact hread (by simp [heq])
      · split at h
        · cases h
        · next hne =>
          cases policy <;> cases h
          exact hread hne

/-- Reads the items of a body until the outermost message is closed. -/
def body (policy : UnknownContent) (nesting : Nesting) (c : Cursor) :
    EStateM.Result SyntaxError Cursor MessageDescriptor :=
  match _ : item policy nesting c with
  | .ok (.more nesting') c' => body policy nesting' c'
  | .ok (.closed message) c' => .ok message c'
  | .error e c' => .error e c'
termination_by c.weight
decreasing_by exact weight_lt_of_item ‹_›

/-- A body takes work off the cursor. -/
theorem weight_lt_of_body {policy : UnknownContent} {n : Nesting} {c c' : Cursor}
    {m : MessageDescriptor} (h : body policy n c = .ok m c') : c'.weight < c.weight := by
  fun_induction body policy n c with
  | case1 n c n' c₁ hitem ih => exact Nat.lt_trans (ih h) (weight_lt_of_item hitem)
  | case2 n c m' c₁ hitem =>
    cases h
    exact weight_lt_of_item hitem
  | case3 n c e c₁ hitem => cases h

/-- Reads a whole message. -/
def message (policy : UnknownContent) : Reading MessageDescriptor := do
  let name ← header
  body policy (.outermost name)

/-- **A message takes work off the cursor.** -/
theorem weight_lt_of_message {policy : UnknownContent} {c c' : Cursor} {m : MessageDescriptor}
    (h : message policy c = .ok m c') : c'.weight < c.weight := by
  obtain ⟨name, c₁, hheader, h⟩ := Reading.bind_eq_ok_iff.1 h
  exact Nat.lt_trans (weight_lt_of_body h) (weight_lt_of_header hheader)

end Declaration

end ProtoSchema
