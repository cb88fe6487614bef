import ProtoSchema.Declaration.Message

/-!
# Reading files

A file is a sequence of package declarations and messages. `declarations` adds what it reads to a
given file, and keeps it also when reading stops at an error. `parse` turns a whole text into a file
descriptor, or into its first error.

## Termination

Every declaration takes work off the cursor (`weight_lt_of_declaration`), so `declarations` ends.
-/

namespace ProtoSchema.Declaration

open Cursor

/-- What was read of the next declaration before the file takes it up. -/
inductive Opening where
  /-- A package declaration up to its name; the semicolon is still ahead. -/
  | package (name : String)
  /-- A whole message. -/
  | message (m : MessageDescriptor)
  /-- The end of the text. -/
  | finished

/-- Reads the next declaration; of a package, only up to its name. -/
def declaration (policy : UnknownContent) : Reading Opening := do
  let token ← advance
  if token.value = "package" then
    let name ← advance
    return .package name.value
  else if token.value = "message" then
    pushback
    let m ← message policy
    return .message m
  else if token.value = "" then
    return .finished
  else
    fail (.unknownDeclaration token.value)

/-- **Every declaration takes work off the cursor.** -/
theorem weight_lt_of_declaration {policy : UnknownContent} {o : Opening} {c c' : Cursor}
    (h : declaration policy c = .ok o c') (hne : o ≠ .finished) : c'.weight < c.weight := by
  obtain ⟨t, c₁, hadv, h⟩ := Reading.bind_eq_ok_iff.1 h
  have hread := weight_lt_of_advance hadv
  split at h
  · next heq =>
    obtain ⟨name, c₂, hname, h⟩ := Reading.bind_eq_ok_iff.1 h
    cases h
    exact Nat.lt_of_le_of_lt (weight_le_of_advance hname).1 (hread (by simp [heq]))
  · split at h
    · next heq =>
      obtain ⟨_, c₂, hback, h⟩ := Reading.bind_eq_ok_iff.1 h
      obtain ⟨m, c₃, hmessage, h⟩ := Reading.bind_eq_ok_iff.1 h
      cases h
      have hb := weight_of_pushback hback
      have hm := weight_lt_of_message hmessage
      have := hread (by simp [heq])
      omega
    · split at h
      · cases h
        exact absurd rfl hne
      · cases h

/-- Reads declarations to the end of the text and adds them to a file. A package name counts as soon
as it is read, a message once it is closed. -/
def declarations (policy : UnknownContent) (file : FileDraft) (c : Cursor) :
    FileDraft × EStateM.Result SyntaxError Cursor Unit :=
  match _ : declaration policy c with
  | .ok (.package name) c' =>
    match _ : expect ";" c' with
    | .ok () c'' => declarations policy (file.setPackage name) c''
    | .error e c'' => (file.setPackage name, .error e c'')
  | .ok (.message m) c' => declarations policy (file.addMessage m) c'
  | .ok .finished c' => (file, .ok () c')
  | .error e c' => (file, .error e c')
termination_by c.weight
decreasing_by
  · exact Nat.lt_trans (weight_lt_of_expect ‹_› (by decide))
      (weight_lt_of_declaration ‹declaration _ _ = _› (by simp))
  · exact weight_lt_of_declaration ‹_› (by simp)

/-- Refuses text that is left after the last token that was scanned. -/
def finish : Reading Unit := fun c =>
  if c.scanner.rest.isEmpty then .ok () c else fail .unconsumedInput c

/-- Reads a whole text as the file of the given name. -/
def file (policy : UnknownContent) (name : String) : Reading FileDescriptor := fun c =>
  match declarations policy (.named name) c with
  | (draft, .ok () c') => (do finish; return draft.finish : Reading FileDescriptor) c'
  | (_, .error e c') => .error e c'

end ProtoSchema.Declaration

namespace ProtoSchema

/-- Reads a source text as the file of the given name. -/
def parse (policy : UnknownContent) (name source : String) : Except SyntaxError FileDescriptor :=
  match Declaration.file policy name (.ofSource source) with
  | .ok file _ => .ok file
  | .error e _ => .error e

end ProtoSchema
