import ProtoSchema.Proofs.Token.Order

/-!
# A cursor under calls in any order

A cursor is asked for tokens, to look ahead, to push back and for the text that remains, in any
order. Whatever was asked before, a read either delivers the token that was returned last once more,
or the next token of the text. The log of the calls tells which (`redelivers`), and how many tokens
were taken off the text (`freshTokens`).

In a log the latest call stands first.

Main statement: `Cursor.run_of_log`, for the call that comes next.
-/

namespace ProtoSchema

/-- The token at a place in the order of a scan. Behind the last token stands the end of the text,
or the error that ended the scan, for ever. -/
def Scanner.Scan.nth (scan : Scan) (k : Nat) : Except SyntaxError Token :=
  match scan.tokens[k]? with
  | some t => .ok t
  | none => scan.ending

namespace Cursor

open Scanner

/-! ## Calls and their log -/

/-- What may be asked of a cursor. -/
inductive Call where
  | advance
  | peek
  | pushback
  | remainder

/-- What is answered. -/
inductive Answer where
  | token (t : Token)
  | pushedBack
  | text (remainder : String)

/-- The token that a read has returned. -/
def Answer.token? : Answer → Option Token
  | .token t => some t
  | .pushedBack => none
  | .text _ => none

/-- Carries out a call. -/
def Call.run : Call → Reading Answer
  | .advance => do return .token (← Cursor.advance)
  | .peek => do return .token (← Cursor.peek)
  | .pushback => do
    Cursor.pushback
    return .pushedBack
  | .remainder => fun c => .ok (.text c.remainder) c

/-- Carries out calls, the last one of the list first, up to the first error. -/
def runAll : List Call → Reading (List (Call × Answer))
  | [] => return []
  | call :: earlier => do
    let log ← runAll earlier
    let answer ← call.run
    return (call, answer) :: log

/-- Whether a read delivers the current token again: the latest call, questions for the remaining
text apart, has looked ahead or pushed back. -/
def redelivers : List (Call × Answer) → Bool
  | [] => false
  | (.advance, _) :: _ => false
  | (.peek, _) :: _ => true
  | (.pushback, _) :: _ => true
  | (.remainder, _) :: earlier => redelivers earlier

/-- The token that was returned last. -/
def lastToken (log : List (Call × Answer)) : Token :=
  (log.filterMap fun entry => entry.2.token?).head?.getD .start

/-- The tokens that reads have returned, those that were delivered again left out. -/
def freshTokens : List (Call × Answer) → List Token
  | [] => []
  | (_, answer) :: earlier =>
    if redelivers earlier then freshTokens earlier
    else answer.token?.toList ++ freshTokens earlier

theorem freshTokens_of_redelivers {log : List (Call × Answer)} (h : redelivers log = true)
    (entry : Call × Answer) : freshTokens (entry :: log) = freshTokens log := by
  rw [freshTokens, if_pos h]

theorem freshTokens_of_silent {answer : Answer} (h : answer.token? = none) (call : Call)
    (log : List (Call × Answer)) : freshTokens ((call, answer) :: log) = freshTokens log := by
  rw [freshTokens, h]
  split <;> rfl

/-! ## What a log says about the cursor -/

/-- The cursor that some calls have led to: apart from a token that is to be delivered again, what
lies ahead of it are the tokens that were not taken off the text yet. -/
structure Reached (source : String) (log : List (Call × Answer)) (c : Cursor) : Prop where
  current : c.current = lastToken log
  pushedBack : c.pushedBack = redelivers log
  ahead : ({ c with pushedBack := false } : Cursor).Ahead
    ((Scanner.ofSource source).readAll.tokens.drop (freshTokens log).length)
    (Scanner.ofSource source).readAll.ending
  fresh : (freshTokens log).reverse.map Except.ok
    = (List.range (freshTokens log).length).map (Scanner.ofSource source).readAll.nth

theorem reached_ofSource (source : String) : Reached source [] (ofSource source) where
  current := rfl
  pushedBack := rfl
  ahead := ahead_ofSource source
  fresh := rfl

variable {source : String} {log : List (Call × Answer)} {c : Cursor}

theorem Reached.eq_of_not_redelivers (h : Reached source log c) (hlog : redelivers log = false) :
    ({ c with pushedBack := false } : Cursor) = c := by
  have hback := h.pushedBack.trans hlog
  rw [← hback]

/-- A read that delivers a token again takes nothing off the text. -/
theorem Reached.advance_again (h : Reached source log c) (hlog : redelivers log = true) :
    ∃ c', advance c = .ok (lastToken log) c' ∧ c'.scanner = c.scanner ∧
      Reached source ((.advance, .token (lastToken log)) :: log) c' := by
  have hfailure : c.failure = none := h.ahead.failure
  have hadv := advance_of_pushedBack hfailure (h.pushedBack.trans hlog)
  rw [h.current] at hadv
  have hfresh := freshTokens_of_redelivers hlog (.advance, .token (lastToken log))
  refine ⟨_, hadv, rfl, rfl, rfl, ?_, ?_⟩
  · rw [hfresh]
    exact ⟨h.ahead.failure, h.ahead.delivered, h.ahead.value_ne, h.ahead.ending, h.ahead.exhausted⟩
  · rw [hfresh]
    exact h.fresh

/-- A read that has delivered the next token of the text has taken it off. -/
theorem Reached.of_fresh (h : Reached source log c) (hlog : redelivers log = false) {t : Token}
    {c' : Cursor} (hcurrent : c'.current = t) (hback : c'.pushedBack = false)
    (hnth : (Scanner.ofSource source).readAll.nth (freshTokens log).length = .ok t)
    (hahead : c'.Ahead
      ((Scanner.ofSource source).readAll.tokens.drop ((freshTokens log).length + 1))
      (Scanner.ofSource source).readAll.ending) :
    Reached source ((.advance, .token t) :: log) c' := by
  have hfresh : freshTokens ((.advance, .token t) :: log) = t :: freshTokens log := by
    rw [freshTokens, if_neg (by simp [hlog])]
    rfl
  refine ⟨hcurrent, hback, ?_, ?_⟩
  · have hsame : ({ c' with pushedBack := false } : Cursor) = c' := by rw [← hback]
    rw [hfresh, hsame]
    exact hahead
  · rw [hfresh, List.reverse_cons, List.map_append, h.fresh, List.length_cons, List.range_succ,
      List.map_append, List.map_singleton, List.map_singleton, hnth]

/-- **A read that does not deliver a token again takes the next one off the text.** -/
theorem Reached.advance_fresh (h : Reached source log c) (hlog : redelivers log = false) :
    match (Scanner.ofSource source).readAll.nth (freshTokens log).length with
    | .ok t => ∃ c', advance c = .ok t c' ∧ Reached source ((.advance, .token t) :: log) c'
    | .error e => ∃ c', advance c = .error e c' := by
  have hahead := h.ahead
  rw [h.eq_of_not_redelivers hlog] at hahead
  cases hrest : (Scanner.ofSource source).readAll.tokens.drop (freshTokens log).length with
  | cons t rest =>
    have hnth : (Scanner.ofSource source).readAll.nth (freshTokens log).length = .ok t := by
      rw [Scan.nth, ← List.head?_drop, hrest]
      rfl
    rw [hrest] at hahead
    obtain ⟨c', hadv, hahead', hcurrent, hback⟩ := advance_of_cons hahead
    rw [hnth]
    refine ⟨c', hadv, h.of_fresh hlog hcurrent hback hnth ?_⟩
    rwa [← List.tail_drop, hrest]
  | nil =>
    have hnth : (Scanner.ofSource source).readAll.nth (freshTokens log).length
        = (Scanner.ofSource source).readAll.ending := by
      rw [Scan.nth, ← List.head?_drop, hrest]
      rfl
    rw [hrest] at hahead
    cases hending : (Scanner.ofSource source).readAll.ending with
    | ok t =>
      rw [hending] at hahead
      obtain ⟨c', hadv, hahead', hcurrent, -⟩ := advance_of_end hahead
      rw [hnth, hending]
      refine ⟨c', hadv, h.of_fresh hlog hcurrent hahead'.pushedBack_of_nil (hnth.trans hending) ?_⟩
      rw [← List.tail_drop, hrest, hending]
      exact hahead'
    | error e =>
      rw [hending] at hahead
      rw [hnth, hending]
      exact advance_of_error hahead

/-! ## The latest call -/

/-- Looking ahead is a read that is pushed back. -/
theorem Reached.peek {t : Token} (h : Reached source ((.advance, .token t) :: log) c) :
    ∃ c', pushback c = .ok () c' ∧ c'.scanner = c.scanner ∧
      Reached source ((.peek, .token t) :: log) c' := by
  have hback : c.pushedBack = false := h.pushedBack
  refine ⟨{ c with pushedBack := true }, ?_, rfl, h.current, rfl, h.ahead, h.fresh⟩
  rw [pushback, if_neg (by simp [hback])]

theorem Reached.pushback (h : Reached source log c) (hlog : redelivers log = false) :
    ∃ c', Cursor.pushback c = .ok () c' ∧ c'.scanner = c.scanner ∧
      Reached source ((.pushback, .pushedBack) :: log) c' := by
  have hback : c.pushedBack = false := h.pushedBack.trans hlog
  have hfresh : freshTokens ((.pushback, .pushedBack) :: log) = freshTokens log :=
    freshTokens_of_silent rfl ..
  refine ⟨{ c with pushedBack := true }, ?_, rfl, h.current, rfl, ?_, ?_⟩
  · rw [Cursor.pushback, if_neg (by simp [hback])]
  · rw [hfresh]
    exact h.ahead
  · rw [hfresh]
    exact h.fresh

theorem Reached.remainder (h : Reached source log c) :
    Reached source ((.remainder, .text c.remainder) :: log) c := by
  have hfresh : freshTokens ((.remainder, .text c.remainder) :: log) = freshTokens log :=
    freshTokens_of_silent rfl ..
  refine ⟨h.current, h.pushedBack, ?_, ?_⟩
  · rw [hfresh]
    exact h.ahead
  · rw [hfresh]
    exact h.fresh

/-! ## All calls -/

theorem Reached.of_advance {t : Token} {c' : Cursor} (h : Reached source log c)
    (hadv : advance c = .ok t c') : Reached source ((.advance, .token t) :: log) c' := by
  cases hlog : redelivers log with
  | true =>
    obtain ⟨c₁, hread, -, hreached⟩ := h.advance_again hlog
    rw [hadv] at hread
    cases hread
    exact hreached
  | false =>
    have hfresh := h.advance_fresh hlog
    split at hfresh
    · obtain ⟨c₁, hread, hreached⟩ := hfresh
      rw [hadv] at hread
      cases hread
      exact hreached
    · obtain ⟨c₁, hread⟩ := hfresh
      rw [hadv] at hread
      cases hread

/-- A second token is not pushed back. -/
theorem Reached.pushback_again (h : Reached source log c) (hlog : redelivers log = true) :
    ∃ e c', Cursor.pushback c = .error e c' ∧ e.cause = .repeatedPushback := by
  rw [Cursor.pushback, if_pos (h.pushedBack.trans hlog)]
  exact ⟨_, _, rfl, rfl⟩

/-- **What a call that succeeds adds to the log.** -/
theorem Reached.of_run {call : Call} {answer : Answer} {c' : Cursor} (h : Reached source log c)
    (hrun : call.run c = .ok answer c') : Reached source ((call, answer) :: log) c' := by
  cases call with
  | advance =>
    obtain ⟨t, c₁, hadv, hreturn⟩ := Reading.bind_eq_ok_iff.1 hrun
    cases hreturn
    exact h.of_advance hadv
  | peek =>
    obtain ⟨t, c₁, hpeek, hreturn⟩ := Reading.bind_eq_ok_iff.1 hrun
    cases hreturn
    obtain ⟨t', c₂, hadv, hpeek⟩ := Reading.bind_eq_ok_iff.1 hpeek
    obtain ⟨_, c₃, hback, hreturn⟩ := Reading.bind_eq_ok_iff.1 hpeek
    cases hreturn
    obtain ⟨c₄, hback', -, hreached⟩ := (h.of_advance hadv).peek
    rw [hback] at hback'
    cases hback'
    exact hreached
  | pushback =>
    obtain ⟨_, c₁, hback, hreturn⟩ := Reading.bind_eq_ok_iff.1 hrun
    cases hreturn
    cases hlog : redelivers log with
    | true =>
      obtain ⟨e, c₂, hback', -⟩ := h.pushback_again hlog
      rw [hback] at hback'
      cases hback'
    | false =>
      obtain ⟨c₂, hback', -, hreached⟩ := h.pushback hlog
      rw [hback] at hback'
      cases hback'
      exact hreached
  | remainder =>
    cases hrun
    exact h.remainder

/-- **Every log of calls that succeeded says where the cursor stands.** -/
theorem reached_of_runAll {calls : List Call} (h : runAll calls (ofSource source) = .ok log c) :
    Reached source log c := by
  induction calls generalizing log c with
  | nil =>
    cases h
    exact reached_ofSource source
  | cons call earlier ih =>
    obtain ⟨log', c₁, hearlier, h⟩ := Reading.bind_eq_ok_iff.1 h
    obtain ⟨answer, c₂, hrun, hreturn⟩ := Reading.bind_eq_ok_iff.1 h
    cases hreturn
    exact (ih hearlier).of_run hrun

/-! ## The next call -/

/-- Behind the last token of a text stands its end, or the error at a stray character. -/
theorem nth_of_length_le {k : Nat} (h : (Scanner.ofSource source).readAll.tokens.length ≤ k) :
    (Scanner.ofSource source).readAll.nth k =
      match (Scanner.ofSource source).readAll.failure with
      | none => .ok (.endOf source)
      | some e => .error e := by
  rw [Scan.nth, List.getElem?_eq_none h]
  cases hfailure : (Scanner.ofSource source).readAll.failure with
  | none => exact ending_eq_endOf hfailure
  | some e => simp only [Scan.ending, hfailure]

/-- An error in place of a token is one of the scanner. -/
theorem cause_of_nth {k : Nat} {e : SyntaxError}
    (h : (Scanner.ofSource source).readAll.nth k = .error e) :
    ∃ byte, e.cause = .strayByte byte := by
  unfold Scan.nth at h
  split at h
  · cases h
  · exact Scan.cause_of_ending h

/-- A call for a token answers as a read does, and leaves the text where the read leaves it. -/
theorem Reached.run_of_advance {call : Call} {t : Token} {c₁ : Cursor}
    (h : Reached source ((.advance, .token t) :: log) c₁) (hadv : advance c = .ok t c₁)
    (hcall : call = .advance ∨ call = .peek) :
    ∃ c', call.run c = .ok (.token t) c' ∧ c'.scanner = c₁.scanner := by
  rcases hcall with rfl | rfl
  · refine ⟨c₁, ?_, rfl⟩
    rw [Call.run, Reading.bind_of_ok hadv]
    rfl
  · obtain ⟨c₂, hback, hscanner, -⟩ := h.peek
    have hpeek : Cursor.peek c = .ok t c₂ := by
      rw [Cursor.peek, Reading.bind_of_ok hadv, Reading.bind_of_ok hback]
      rfl
    refine ⟨c₂, ?_, hscanner⟩
    rw [Call.run, Reading.bind_of_ok hpeek]
    rfl

theorem run_of_advance_error {call : Call} {e : SyntaxError} {c₁ : Cursor}
    (hadv : advance c = .error e c₁) (hcall : call = .advance ∨ call = .peek) :
    call.run c = .error e c₁ := by
  rcases hcall with rfl | rfl
  · exact Reading.bind_of_error hadv
  · exact Reading.bind_of_error (Reading.bind_of_error hadv)

theorem Reached.run_again {call : Call} (h : Reached source log c) (hlog : redelivers log = true)
    (hcall : call = .advance ∨ call = .peek) :
    ∃ c', call.run c = .ok (.token (lastToken log)) c' ∧ c'.remainder = c.remainder := by
  obtain ⟨c₁, hadv, hscanner, hreached⟩ := h.advance_again hlog
  obtain ⟨c₂, hrun, hscanner'⟩ := hreached.run_of_advance hadv hcall
  exact ⟨c₂, hrun, congrArg Scanner.remainder (hscanner'.trans hscanner)⟩

theorem Reached.run_fresh {call : Call} (h : Reached source log c) (hlog : redelivers log = false)
    (hcall : call = .advance ∨ call = .peek) :
    match (Scanner.ofSource source).readAll.nth (freshTokens log).length with
    | .ok t => ∃ c', call.run c = .ok (.token t) c'
    | .error e => ∃ c', call.run c = .error e c' := by
  have hfresh := h.advance_fresh hlog
  split
  case h_1 t hnth =>
    rw [hnth] at hfresh
    obtain ⟨c₁, hadv, hreached⟩ := hfresh
    obtain ⟨c₂, hrun, -⟩ := hreached.run_of_advance hadv hcall
    exact ⟨c₂, hrun⟩
  case h_2 e hnth =>
    rw [hnth] at hfresh
    obtain ⟨c₁, hadv⟩ := hfresh
    exact ⟨c₁, run_of_advance_error hadv hcall⟩

/-- Looking ahead never finds a token that is pushed back already. -/
theorem Reached.cause_of_peek {e : SyntaxError} {c' : Cursor} (h : Reached source log c)
    (hpeek : Call.peek.run c = .error e c') : e.cause ≠ .repeatedPushback := by
  have hcall : Call.peek = .advance ∨ Call.peek = .peek := Or.inr rfl
  cases hlog : redelivers log with
  | true =>
    obtain ⟨c₁, hrun, -⟩ := h.run_again hlog hcall
    rw [hpeek] at hrun
    cases hrun
  | false =>
    have hrun := h.run_fresh hlog hcall
    split at hrun
    · obtain ⟨c₁, hrun⟩ := hrun
      rw [hpeek] at hrun
      cases hrun
    case h_2 e' hnth =>
      obtain ⟨c₁, hrun⟩ := hrun
      rw [hpeek] at hrun
      cases hrun
      obtain ⟨byte, hcause⟩ := cause_of_nth hnth
      rw [hcause]
      nofun

/-- A token is pushed back unless the next read delivers one again anyway. -/
theorem Reached.run_pushback (h : Reached source log c) :
    match Call.pushback.run c with
    | .ok _ _ => redelivers log = false
    | .error e _ => redelivers log = true ∧ e.cause = .repeatedPushback := by
  cases hlog : redelivers log with
  | true =>
    obtain ⟨e, c₁, hback, hcause⟩ := h.pushback_again hlog
    rw [Call.run, Reading.bind_of_error hback]
    exact ⟨rfl, hcause⟩
  | false =>
    obtain ⟨c₁, hback, -⟩ := h.pushback hlog
    rw [Call.run, Reading.bind_of_ok hback]
    rfl

/-- **No token is lost and none is read twice.** Whatever was asked of a fresh cursor, the reads
before have returned the first tokens of the text in their order, those that were delivered again
left out, and the next read delivers the last one again or returns the token that follows. Behind
the last token of the text its end is returned for ever. Looking ahead always works like a read, and
a token is pushed back unless it is to be delivered again anyway. -/
theorem run_of_log {calls : List Call} (h : runAll calls (ofSource source) = .ok log c) :
    (freshTokens log).reverse.map Except.ok
        = (List.range (freshTokens log).length).map (Scanner.ofSource source).readAll.nth ∧
      (∀ k, (Scanner.ofSource source).readAll.tokens.length ≤ k →
        (Scanner.ofSource source).readAll.nth k =
          match (Scanner.ofSource source).readAll.failure with
          | none => .ok (.endOf source)
          | some e => .error e) ∧
      (∀ call : Call, call = .advance ∨ call = .peek →
        if redelivers log then
          ∃ c', call.run c = .ok (.token (lastToken log)) c' ∧ c'.remainder = c.remainder
        else
          match (Scanner.ofSource source).readAll.nth (freshTokens log).length with
          | .ok t => ∃ c', call.run c = .ok (.token t) c'
          | .error e => ∃ c', call.run c = .error e c') ∧
      (∀ e c', Call.peek.run c = .error e c' → e.cause ≠ .repeatedPushback) ∧
      (match Call.pushback.run c with
        | .ok _ _ => redelivers log = false
        | .error e _ => redelivers log = true ∧ e.cause = .repeatedPushback) := by
  have hreached := reached_of_runAll h
  refine ⟨hreached.fresh, fun k => nth_of_length_le, ?_, fun e c' => hreached.cause_of_peek,
    hreached.run_pushback⟩
  intro call hcall
  split
  case isTrue hlog => exact hreached.run_again hlog hcall
  case isFalse hlog => exact hreached.run_fresh (by simpa using hlog) hcall

theorem run_of_log_lookahead :
    ∃ log c, runAll [.pushback, .advance, .peek] (ofSource "a b") = .ok log c ∧
      ∃ c', Call.advance.run c = .ok (.token { value := "a", line := 1, offset := 0 }) c' ∧
        c'.remainder = c.remainder := by
  obtain ⟨log, c, h, hlog, hlast⟩ : ∃ log c, runAll [.pushback, .advance, .peek] (ofSource "a b")
      = .ok log c ∧ redelivers log = true ∧
        lastToken log = { value := "a", line := 1, offset := 0 } := by
    refine ⟨_, _, rfl, ?_⟩
    decide +kernel
  have hread := (run_of_log h).2.2.1 .advance (.inl rfl)
  rw [if_pos hlog, hlast] at hread
  exact ⟨log, c, h, hread⟩

end Cursor

end ProtoSchema
