import ProtoSchema.Token.Cursor
import ProtoSchema.Proofs.Token.ScanExact

/-!
# What lies ahead of a cursor

A reader sees the text only through `Cursor.advance`. So all it can learn from a cursor without an
error is the list of tokens that are still to be delivered, and what comes behind the last of them:
the end of the text, or the error of a stray character (`Ahead`).

Main statements: reading takes the first token off the list (`advance_of_cons`), delivers the end
for ever (`advance_of_end`) or fails (`advance_of_error`); pushing back puts the token on again
(`pushback_of_ahead`).
-/

namespace ProtoSchema

namespace Scanner

/-- What comes behind the last token of a scan. -/
def Scan.ending (r : Scan) : Except SyntaxError Token :=
  match r.failure with
  | none => .ok r.final.endToken
  | some e => .error e

theorem ending_of_token {s s' : Scanner} {t : Token} (h : s.advance = (.ok (some t), s')) :
    s.readAll.ending = s'.readAll.ending := by
  rw [readAll_of_token h]
  rfl

theorem Scan.failure_of_ending {r : Scan} {e : SyntaxError} (h : r.ending = .error e) :
    r.failure = some e := by
  unfold Scan.ending at h
  split at h
  · cases h
  · next heq =>
    cases h
    exact heq

theorem Scan.failure_of_ending_ok {r : Scan} {t : Token} (h : r.ending = .ok t) :
    r.failure = none ∧ t = r.final.endToken := by
  unfold Scan.ending at h
  split at h
  · next heq =>
    cases h
    exact ⟨heq, rfl⟩
  · cases h

/-- Where a text does not end behind its last token, a stray character stands. -/
theorem Scan.cause_of_ending {source : String} {e : SyntaxError}
    (h : (ofSource source).readAll.ending = .error e) : ∃ byte, e.cause = .strayByte byte := by
  obtain ⟨_, _, _, -, -, -, rfl⟩ := exists_stray_readAll (failure_of_ending h)
  exact ⟨_, rfl⟩

/-- The end of a text has no value. -/
theorem Scan.value_of_ending {r : Scan} {t : Token} (h : r.ending = .ok t) : t.value = "" := by
  rw [(failure_of_ending_ok h).2]
  rfl

/-- A scanner that met the end, and not an error, has nothing left. -/
def Exhausted (s : Scanner) : Prop := s.done = true → s.rest = []

theorem done_skipLayoutFrom (inComment : Bool) (cs : List Char) (line offset : Nat) :
    (skipLayoutFrom inComment cs line offset).done = false := by
  induction cs generalizing inComment line offset with
  | nil => rfl
  | cons c cs ih =>
    unfold skipLayoutFrom
    repeat' split
    all_goals first
      | rfl
      | exact ih ..

theorem exhausted_of_token {s s' : Scanner} {t : Token} (h : s.advance = (.ok (some t), s')) :
    Exhausted s' := by
  have hdone : s.skipLayout.done = false := done_skipLayoutFrom ..
  intro hs'
  unfold advance at h
  split at h
  · simp at h
  · dsimp only at h
    split at h
    · simp at h
    · split at h
      · simp only [Prod.mk.injEq] at h
        rw [← h.2] at hs'
        rw [hdone] at hs'
        exact absurd hs' (by decide)
      · simp at h

/-- **At the end the scanner is done, and stays so.** -/
theorem advance_of_end {s s' : Scanner} (hs : Exhausted s) (h : s.advance = (.ok none, s')) :
    s'.advance = (.ok none, s') ∧ s'.rest = [] := by
  have hstay : ∀ s : Scanner, s.done = true → s.advance = (.ok none, s) := by
    intro s hdone
    rw [advance, if_pos hdone]
  unfold advance at h
  split at h
  · next hdone =>
    cases h
    exact ⟨hstay s hdone, hs hdone⟩
  · dsimp only at h
    split at h
    · next hrest =>
      cases h
      exact ⟨hstay _ rfl, hrest⟩
    · split at h <;> simp at h

end Scanner

namespace Cursor

open Scanner

/-! ## One read -/

section

variable {c : Cursor} {s : Scanner} {t : Token} {e : SyntaxError}

theorem advance_of_pushedBack (hc : c.failure = none) (hback : c.pushedBack = true) :
    advance c = .ok c.current { c with pushedBack := false, reads := c.reads.push c.current } := by
  rw [advance, hc]
  simp only [hback, if_true]
  rfl

theorem advance_of_token (hc : c.failure = none) (hback : c.pushedBack = false)
    (h : c.scanner.advance = (.ok (some t), s)) :
    advance c = .ok t { c with scanner := s, current := t, reads := c.reads.push t } := by
  rw [advance, hc]
  simp only [hback, h]
  rfl

theorem advance_of_none (hc : c.failure = none) (hback : c.pushedBack = false)
    (h : c.scanner.advance = (.ok none, s)) :
    advance c = .ok s.endToken
      { c with scanner := s, current := s.endToken, reads := c.reads.push s.endToken } := by
  rw [advance, hc]
  simp only [hback, h]
  rfl

theorem advance_of_scanError (hc : c.failure = none) (hback : c.pushedBack = false)
    (h : c.scanner.advance = (.error e, s)) :
    advance c = .error e { c with scanner := s, failure := some e } := by
  rw [advance, hc]
  simp only [hback, h]
  rfl

/-- The token that was delivered is the current one. -/
theorem current_of_advance {c' : Cursor} (h : advance c = .ok t c') : c'.current = t := by
  unfold advance deliver at h
  repeat' split at h
  all_goals
    cases h
    try rfl

end

/-! ## Tokens ahead -/

/-- The tokens that a cursor without an error will deliver, and what comes behind them. -/
structure Ahead (c : Cursor) (tokens : List Token) (ending : Except SyntaxError Token) : Prop where
  failure : c.failure = none
  delivered : (if c.pushedBack then [c.current] else []) ++ c.scanner.readAll.tokens = tokens
  value_ne : ∀ t ∈ tokens, t.value ≠ ""
  ending : c.scanner.readAll.ending = ending
  exhausted : c.scanner.Exhausted

theorem ahead_ofSource (source : String) :
    (ofSource source).Ahead (Scanner.ofSource source).readAll.tokens
      (Scanner.ofSource source).readAll.ending where
  failure := rfl
  delivered := rfl
  value_ne := fun _ ht => (Scanner.standsIn_of_mem_readAll ht).value_ne
  ending := rfl
  exhausted := fun h => Bool.noConfusion h

theorem Ahead.pushedBack_of_nil {c : Cursor} {ending : Except SyntaxError Token}
    (h : c.Ahead [] ending) : c.pushedBack = false := by
  by_contra hback
  have htokens := h.delivered
  rw [if_pos (by simpa using hback)] at htokens
  cases htokens

theorem Ahead.advance_ne_token {c : Cursor} {s : Scanner} {t : Token}
    {ending : Except SyntaxError Token} (h : c.Ahead [] ending) :
    c.scanner.advance ≠ (.ok (some t), s) := by
  intro hadv
  have htokens := (List.append_eq_nil_iff.mp h.delivered).2
  rw [readAll_of_token hadv] at htokens
  cases htokens

/-- **A read delivers the first token ahead.** -/
theorem advance_of_cons {c : Cursor} {t : Token} {tokens : List Token}
    {ending : Except SyntaxError Token} (h : c.Ahead (t :: tokens) ending) :
    ∃ c', advance c = .ok t c' ∧ c'.Ahead tokens ending ∧ c'.current = t ∧
      c'.pushedBack = false := by
  obtain ⟨hfailure, htokens, hne, hending, hex⟩ := h
  have hvalues : ∀ t ∈ tokens, t.value ≠ "" := fun t ht => hne t (List.mem_cons_of_mem _ ht)
  by_cases hback : c.pushedBack = true
  · rw [if_pos hback, List.singleton_append, List.cons.injEq] at htokens
    obtain ⟨rfl, rfl⟩ := htokens
    exact ⟨_, advance_of_pushedBack hfailure hback, ⟨hfailure, rfl, hvalues, hending, hex⟩, rfl,
      rfl⟩
  · rw [if_neg hback, List.nil_append] at htokens
    rw [Bool.not_eq_true] at hback
    -- the scanner has a token to read, so it reads that one
    obtain ⟨result, s, hadv⟩ : ∃ result s, c.scanner.advance = (result, s) := ⟨_, _, rfl⟩
    rcases result with e | _ | t'
    · rw [readAll_of_error hadv] at htokens
      cases htokens
    · rw [readAll_of_end hadv] at htokens
      cases htokens
    · rw [readAll_of_token hadv, List.cons.injEq] at htokens
      obtain ⟨rfl, htokens⟩ := htokens
      refine ⟨_, advance_of_token hfailure hback hadv,
        ⟨hfailure, ?_, hvalues, ?_, exhausted_of_token hadv⟩, rfl, hback⟩
      · simpa [hback] using htokens
      · exact (ending_of_token hadv).symm.trans hending

/-- **With no token ahead, a read delivers the end of the text.** -/
theorem advance_of_end {c : Cursor} {t : Token} (h : c.Ahead [] (.ok t)) :
    ∃ c', advance c = .ok t c' ∧ c'.Ahead [] (.ok t) ∧ c'.current = t ∧
      c'.scanner.rest = [] := by
  have hback := h.pushedBack_of_nil
  obtain ⟨result, s, hadv⟩ : ∃ result s, c.scanner.advance = (result, s) := ⟨_, _, rfl⟩
  have hending := h.ending
  rcases result with e | _ | t'
  · rw [readAll_of_error hadv] at hending
    cases hending
  · rw [readAll_of_end hadv] at hending
    cases hending
    obtain ⟨hstay, hrest⟩ := Scanner.advance_of_end h.exhausted hadv
    refine ⟨_, advance_of_none h.failure hback hadv,
      ⟨h.failure, ?_, h.value_ne, ?_, fun _ => hrest⟩, rfl, hrest⟩
    · simp [hback, readAll_of_end hstay]
    · rw [readAll_of_end hstay]
      rfl
  · exact absurd hadv (h.advance_ne_token)

/-- **With no token ahead, a read fails at a stray character.** -/
theorem advance_of_error {c : Cursor} {e : SyntaxError} (h : c.Ahead [] (.error e)) :
    ∃ c', advance c = .error e c' := by
  have hback := h.pushedBack_of_nil
  obtain ⟨result, s, hadv⟩ : ∃ result s, c.scanner.advance = (result, s) := ⟨_, _, rfl⟩
  have hending := h.ending
  rcases result with e' | _ | t'
  · rw [readAll_of_error hadv] at hending
    cases hending
    exact ⟨_, advance_of_scanError h.failure hback hadv⟩
  · rw [readAll_of_end hadv] at hending
    cases hending
  · exact absurd hadv (h.advance_ne_token)

/-- **What a read has delivered was next: a token, or the end of the text.** -/
theorem Ahead.of_advance {c c' : Cursor} {t : Token} {tokens : List Token}
    {ending : Except SyntaxError Token} (h : c.Ahead tokens ending) (hadv : advance c = .ok t c') :
    (∃ rest, tokens = t :: rest ∧ c'.Ahead rest ending) ∨
      tokens = [] ∧ ending = .ok t ∧ c'.Ahead [] ending := by
  cases tokens with
  | cons u rest =>
    obtain ⟨c₁, hread, hahead, -, -⟩ := advance_of_cons h
    rw [hread] at hadv
    cases hadv
    exact Or.inl ⟨rest, rfl, hahead⟩
  | nil =>
    cases ending with
    | ok last =>
      obtain ⟨c₁, hread, hahead, -, -⟩ := advance_of_end h
      rw [hread] at hadv
      cases hadv
      exact Or.inr ⟨rfl, rfl, hahead⟩
    | error e =>
      obtain ⟨c₁, hread⟩ := advance_of_error h
      rw [hread] at hadv
      cases hadv

/-- A read that has delivered a value has delivered a token. -/
theorem Ahead.cons_of_advance {c c' : Cursor} {t : Token} {tokens : List Token}
    {ending : Except SyntaxError Token} (h : c.Ahead tokens ending) (hadv : advance c = .ok t c')
    (hne : t.value ≠ "") : ∃ rest, tokens = t :: rest ∧ c'.Ahead rest ending := by
  rcases h.of_advance hadv with hcons | ⟨-, rfl, -⟩
  · exact hcons
  · exact absurd (Scan.value_of_ending h.ending) hne

/-- **A token that is pushed back is ahead again.** -/
theorem pushback_of_ahead {c : Cursor} {tokens : List Token} {ending : Except SyntaxError Token}
    (h : c.Ahead tokens ending) (hc : c.pushedBack = false) (hne : c.current.value ≠ "") :
    ∃ c', pushback c = .ok () c' ∧ c'.Ahead (c.current :: tokens) ending := by
  have htokens : c.scanner.readAll.tokens = tokens := by simpa [hc] using h.delivered
  refine ⟨{ c with pushedBack := true }, ?_, ⟨h.failure, ?_, ?_, h.ending, h.exhausted⟩⟩
  · rw [pushback, if_neg (by simp [hc])]
  · rw [if_pos rfl, htokens, List.singleton_append]
  · intro t ht
    rcases List.mem_cons.mp ht with rfl | ht
    · exact hne
    · exact h.value_ne t ht

end Cursor

/-! ## Sequences of readers -/

namespace Reading

variable {α β : Type} {x : Reading α} {f : α → Reading β} {c c₁ : Cursor}

theorem bind_of_ok {a : α} (h : x c = .ok a c₁) : (x >>= f) c = f a c₁ := by
  change EStateM.bind x f c = _
  rw [EStateM.bind, h]

theorem bind_of_error {e : SyntaxError} (h : x c = .error e c₁) : (x >>= f) c = .error e c₁ := by
  change EStateM.bind x f c = _
  rw [EStateM.bind, h]

end Reading

end ProtoSchema
