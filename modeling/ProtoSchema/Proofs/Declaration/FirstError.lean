import ProtoSchema.Proofs.Declaration.Law

/-!
# The first error is final

A parser that has failed once is finished: whatever it is asked for then, it fails with the same
error and moves no further. Two properties of readers carry this. A reader that fails leaves its
error with the cursor (`Records`), wherever in it the error was made: this is a law of all readers
(`recording`). And a reader that is given a cursor with an error fails with that error at once
(`Refuses`), as it begins with a token to read.

Main statement: `runAll_of_failed`, for calls in any order and number.
-/

namespace ProtoSchema.Declaration

open Cursor

variable {α β : Type} {policy : UnknownContent}

/-! ## Readers and the first error -/

/-- A reader that fails leaves its error with the cursor. -/
def Records (x : Reading α) : Prop :=
  ∀ (c c' : Cursor) (e : SyntaxError), x c = .error e c' → c'.failure = some e

/-- A reader that is given a cursor with an error fails with it, and leaves the cursor as it is. -/
def Refuses (x : Reading α) : Prop :=
  ∀ (c : Cursor) (e : SyntaxError), c.failure = some e → x c = .error e c

/-! ## Readers that fail -/

theorem failure_of_advance {c c' : Cursor} {e : SyntaxError} (h : advance c = .error e c') :
    c'.failure = some e := by
  unfold advance at h
  split at h
  · next hfailure =>
    cases h
    exact hfailure
  · split at h
    · cases h
    · split at h
      · cases h
      · cases h
      · cases h
        rfl

/-- **The first error stays with the cursor**: a law of all readers. -/
def recording : Law where
  Kept _ _ := True
  Failed _ e c' := c'.failure = some e
  kept_refl _ := trivial
  kept_trans _ _ := trivial
  failed_of_kept _ h := h
  kept_advance _ := trivial
  failed_advance := failure_of_advance
  kept_pushback _ := trivial
  failed_fail h := by
    cases h
    rfl

theorem records_of_obeyed {x : Reading α} (h : recording.Obeyed x) : Records x :=
  fun _ _ _ hfailed => h.failed hfailed

/-! ## Readers behind an error -/

theorem Refuses.bind {x : Reading α} {f : α → Reading β} (hx : Refuses x) : Refuses (x >>= f) :=
  fun c e h => Reading.bind_of_error (hx c e h)

theorem refuses_advance : Refuses advance := by
  intro c e h
  rw [advance, h]

theorem refuses_expect (value : String) : Refuses (expect value) := refuses_advance.bind

theorem refuses_header : Refuses header := (refuses_expect _).bind

theorem refuses_field : Refuses field := refuses_advance.bind.bind

theorem refuses_message : Refuses (message policy) := refuses_header.bind

/-- **Behind an error nothing is added to a file.** -/
theorem declarations_of_failure {file : FileDraft} {c : Cursor} {e : SyntaxError}
    (h : c.failure = some e) : declarations policy file c = (file, .error e c) := by
  have hdecl : declaration policy c = .error e c := refuses_advance.bind c e h
  rw [declarations, hdecl]

/-! ## Calls -/

/-- What may be asked of a parser. -/
inductive Call where
  | declarations (file : FileDraft)
  | message
  | header
  | field
  | expect (value : String)
  | advance
  | peek

namespace Call

/-- The file that is passed with a call. -/
def file? : Call → Option FileDraft
  | .declarations file => some file
  | _ => none

/-- The file that is passed with a call, as the call leaves it. -/
def fileAfter? (policy : UnknownContent) (c : Cursor) : Call → Option FileDraft
  | .declarations file => some (Declaration.declarations policy file c).1
  | _ => none

/-- Carries out a call. -/
def run (policy : UnknownContent) : Call → Reading Unit
  | .declarations file => fun c => (Declaration.declarations policy file c).2
  | .message => discard (Declaration.message policy)
  | .header => discard Declaration.header
  | .field => discard Declaration.field
  | .expect value => Declaration.expect value
  | .advance => discard Cursor.advance
  | .peek => discard Cursor.peek

end Call

/-- Carries out calls one after the other, also behind one that fails. It tells the error of each,
if any, and the file that was passed, as it is left. -/
def runAll (policy : UnknownContent) :
    List Call → Cursor → List (Option SyntaxError × Option FileDraft) × Cursor
  | [], c => ([], c)
  | call :: later, c =>
    match call.run policy c with
    | .ok () c' =>
      ((none, call.fileAfter? policy c) :: (runAll policy later c').1, (runAll policy later c').2)
    | .error e c' =>
      ((some e, call.fileAfter? policy c) :: (runAll policy later c').1, (runAll policy later c').2)

theorem Refuses.discard {x : Reading α} (hx : Refuses x) : Refuses (discard x) := hx.bind

/-- **Every law of readers holds of every call.** -/
theorem Call.obeyed_run (L : Law) (call : Call) : L.Obeyed (call.run policy) := by
  cases call with
  | declarations file => exact L.outcome_declarations file
  | message => exact L.obeyed_message.discard
  | header => exact L.obeyed_header.discard
  | field => exact L.obeyed_field.discard
  | expect value => exact L.obeyed_expect value
  | advance => exact L.obeyed_advance.discard
  | peek => exact L.obeyed_peek.discard

theorem Call.records_run (call : Call) : Records (call.run policy) :=
  records_of_obeyed (call.obeyed_run recording)

theorem Call.refuses_run (call : Call) : Refuses (call.run policy) := by
  cases call with
  | declarations file => exact fun c e h => congrArg Prod.snd (declarations_of_failure h)
  | message => exact refuses_message.discard
  | header => exact refuses_header.discard
  | field => exact refuses_field.discard
  | expect value => exact refuses_expect value
  | advance => exact refuses_advance.discard
  | peek => exact refuses_advance.bind.discard

theorem Call.fileAfter?_of_failure {c : Cursor} {e : SyntaxError} (h : c.failure = some e)
    (call : Call) : call.fileAfter? policy c = call.file? := by
  cases call with
  | declarations file => exact congrArg (fun r => some r.1) (declarations_of_failure h)
  | _ => rfl

/-- **Calls behind an error change nothing.** -/
theorem runAll_of_failure {c : Cursor} {e : SyntaxError} (h : c.failure = some e)
    (calls : List Call) :
    runAll policy calls c = (calls.map fun call => (some e, call.file?), c) := by
  induction calls with
  | nil => rfl
  | cons call later ih =>
    rw [runAll, call.refuses_run c e h]
    simp only [ih, call.fileAfter?_of_failure h, List.map_cons]

/-- **The first error is final.** When a call has failed, from whatever state of the parser, every
call after it fails with the same error. Nothing is read any more: the cursor stays as it is, and so
does a file that is passed to be added to. -/
theorem runAll_of_failed {call : Call} {c c' : Cursor} {e : SyntaxError}
    (h : call.run policy c = .error e c') (later : List Call) :
    runAll policy later c' = (later.map fun call => (some e, call.file?), c') :=
  runAll_of_failure (call.records_run c c' e h) later

/-- A package without its semicolon, and three calls behind it. -/
theorem runAll_of_failed_package :
    ∃ e c', (Call.declarations (.named "f")).run .skip (.ofSource "package a b") = .error e c' ∧
      e.cause = .unexpectedToken ";" "b" ∧
        runAll .skip [.field, .declarations (.named "g"), .peek] c'
          = ([(some e, none), (some e, some (.named "g")), (some e, none)], c') := by
  let first := Call.declarations (.named "f")
  have herrors : (runAll .skip [first] (.ofSource "package a b")).1.map Prod.fst
      = [some { cause := .unexpectedToken ";" "b", line := 1,
                span := { start := 10, stop := 11 } }] := by
    decide +kernel
  rw [runAll] at herrors
  cases h : first.run .skip (.ofSource "package a b") with
  | ok _ c' =>
    rw [h] at herrors
    cases herrors
  | error e c' =>
    rw [h] at herrors
    have he := Option.some.inj (List.cons.inj herrors).1
    refine ⟨e, c', rfl, ?_, runAll_of_failed h [.field, .declarations (.named "g"), .peek]⟩
    rw [show e = _ from he]

end ProtoSchema.Declaration
