import ProtoSchema.Proofs.Declaration.FirstError
import ProtoSchema.Proofs.Declaration.Safeguards
import ProtoSchema.Proofs.Token.Order

/-!
# What is left where a parser finishes

A parser may be asked for its parts in any order, and tokens may be pushed back in between. Where it
then finishes, no text is left behind the last token that was scanned. That says nothing of a token
that was pushed back: `finish` looks at the scanner alone. So behind `finish` the next read delivers
the end of the text, unless the step before has looked ahead or pushed back; then the last token of
the text may still come, and the end only behind it.

Main statement: `advance_of_finish`. That a token may still come is `not_forall_end_of_finish`.
-/

namespace ProtoSchema

/-- Where no text is left, there is no token. -/
theorem Scanner.advance_of_rest_nil {s : Scanner} (h : s.rest = []) :
    ∃ s', s.advance = (.ok none, s') := by
  unfold advance skipLayout
  rw [h]
  split
  · exact ⟨_, rfl⟩
  · exact ⟨_, rfl⟩

namespace Declaration

open Cursor

variable {policy : UnknownContent} {source : String} {c c' : Cursor}

/-! ## Steps -/

/-- What may be done with a parser: a call, or pushing back the token that was delivered last. -/
inductive Step where
  | call (asked : Call)
  | pushback

/-- Carries out a step. -/
def Step.run (policy : UnknownContent) : Step → Reading Unit
  | .call asked => asked.run policy
  | .pushback => Cursor.pushback

/-- Whether a step that succeeds leaves a token pushed back. -/
def Step.pushesBack : Step → Bool
  | .call .peek => true
  | .call _ => false
  | .pushback => true

/-- Carries out steps one after the other, up to the first error. -/
def runSteps (policy : UnknownContent) : List Step → Reading Unit
  | [] => return ()
  | step :: later => do
    step.run policy
    runSteps policy later

/-- Whether the last of some steps leaves a token pushed back. -/
def endsPushedBack (steps : List Step) : Bool :=
  (steps.getLast?.map Step.pushesBack).getD false

theorem Step.obeyed_run (L : Law) (step : Step) : L.Obeyed (step.run policy) := by
  cases step with
  | call asked => exact asked.obeyed_run L
  | pushback => exact L.obeyed_pushback

/-- **Every law of readers holds of all steps.** -/
theorem obeyed_runSteps (L : Law) (steps : List Step) : L.Obeyed (runSteps policy steps) := by
  induction steps with
  | nil => exact L.obeyed_pure ()
  | cons step later ih => exact (step.obeyed_run L).bind fun _ => ih

/-! ## Where steps lead -/

/-- The tokens that a cursor without an error has still to take off the text. One that was pushed
back is not among them. -/
def Untaken (source : String) (c : Cursor) (tokens : List Token) : Prop :=
  ({ c with pushedBack := false } : Cursor).Ahead tokens (Scanner.ofSource source).readAll.ending

/-- Where a cursor without an error stands: at the start of the text, behind one of its tokens, or
behind its end. -/
inductive Stands (source : String) (c : Cursor) : Prop where
  | atStart (untaken : Untaken source c (Scanner.ofSource source).readAll.tokens)
      (scanner : c.scanner = .ofSource source) (current : c.current = .start)
  | behind {read tokens : List Token} (untaken : Untaken source c tokens)
      (split : (Scanner.ofSource source).readAll.tokens = read ++ c.current :: tokens)
  | atEnd (untaken : Untaken source c [])
      (ending : (Scanner.ofSource source).readAll.ending = .ok c.current)

theorem stands_ofSource (source : String) : Stands source (.ofSource source) :=
  .atStart (ahead_ofSource source) rfl rfl

theorem Stands.exists_untaken (h : Stands source c) :
    ∃ read tokens, (Scanner.ofSource source).readAll.tokens = read ++ tokens ∧
      Untaken source c tokens := by
  cases h with
  | atStart untaken => exact ⟨[], _, rfl, untaken⟩
  | @behind read tokens untaken split =>
    exact ⟨read ++ [c.current], tokens, by rw [split, List.append_assoc]; rfl, untaken⟩
  | atEnd untaken => exact ⟨_, [], (List.append_nil _).symm, untaken⟩

theorem Stands.failure (h : Stands source c) : c.failure = none := by
  obtain ⟨_, _, -, huntaken⟩ := h.exists_untaken
  exact huntaken.failure

/-- What is still to be taken depends on the scanner and the error alone. -/
theorem Untaken.congr {tokens : List Token} (h : Untaken source c tokens)
    (hscanner : c'.scanner = c.scanner) (hfailure : c'.failure = c.failure) :
    Untaken source c' tokens where
  failure := hfailure.trans h.failure
  delivered := by
    show [] ++ c'.scanner.readAll.tokens = tokens
    rw [hscanner]
    exact h.delivered
  value_ne := h.value_ne
  ending := by
    show c'.scanner.readAll.ending = _
    rw [hscanner]
    exact h.ending
  exhausted := by
    show c'.scanner.Exhausted
    rw [hscanner]
    exact h.exhausted

theorem Stands.congr (h : Stands source c) (hscanner : c'.scanner = c.scanner)
    (hcurrent : c'.current = c.current) (hfailure : c'.failure = c.failure) :
    Stands source c' := by
  cases h with
  | atStart untaken scanner current =>
    exact .atStart (untaken.congr hscanner hfailure) (hscanner.trans scanner)
      (hcurrent.trans current)
  | behind untaken split => exact .behind (untaken.congr hscanner hfailure) (hcurrent ▸ split)
  | atEnd untaken ending => exact .atEnd (untaken.congr hscanner hfailure) (hcurrent ▸ ending)

theorem untaken_iff_ahead {tokens : List Token} (h : c.pushedBack = false) :
    Untaken source c tokens ↔ c.Ahead tokens (Scanner.ofSource source).readAll.ending := by
  have hsame : ({ c with pushedBack := false } : Cursor) = c := by rw [← h]
  rw [Untaken, hsame]

/-- **A read leads on to the next token, or to the end of the text.** -/
theorem Stands.of_advance {t : Token} (h : Stands source c) (hadv : advance c = .ok t c') :
    Stands source c' := by
  cases hback : c.pushedBack with
  | true =>
    rw [advance_of_pushedBack h.failure hback] at hadv
    cases hadv
    exact h.congr rfl rfl rfl
  | false =>
    obtain ⟨read, tokens, hsplit, huntaken⟩ := h.exists_untaken
    have hahead := (untaken_iff_ahead hback).mp huntaken
    have hback' : c'.pushedBack = false := (weight_le_of_advance hadv).2
    have hcurrent : c'.current = t := current_of_advance hadv
    rcases hahead.of_advance hadv with ⟨rest, rfl, hahead'⟩ | ⟨-, hending, hahead'⟩
    · exact .behind ((untaken_iff_ahead hback').mpr hahead') (hcurrent ▸ hsplit)
    · exact .atEnd ((untaken_iff_ahead hback').mpr hahead') (hcurrent ▸ hending)

theorem Stands.of_pushback (h : Stands source c) (hback : pushback c = .ok () c') :
    Stands source c' := by
  unfold pushback at hback
  split at hback
  · cases hback
  · cases hback
    exact h.congr rfl rfl rfl

/-- **Readers that succeed keep to the tokens of the text**: a law of all readers. -/
def standing (source : String) : Law where
  Kept c c' := Stands source c → Stands source c'
  Failed _ _ _ := True
  kept_refl _ h := h
  kept_trans h h' hc := h' (h hc)
  failed_of_kept _ _ := trivial
  kept_advance hadv h := h.of_advance hadv
  failed_advance _ := trivial
  kept_pushback hback h := h.of_pushback hback
  failed_fail _ := trivial

theorem Step.stands_of_run {step : Step} (h : Stands source c)
    (hrun : step.run policy c = .ok () c') : Stands source c' :=
  (step.obeyed_run (standing source)).kept hrun h

theorem stands_of_runSteps {steps : List Step}
    (h : runSteps policy steps (.ofSource source) = .ok () c) : Stands source c :=
  (obeyed_runSteps (standing source) steps).kept h (stands_ofSource source)

/-! ## Tokens that are pushed back -/

theorem Call.settles_run {call : Call} (h : call ≠ .peek) : Settles (call.run policy) := by
  cases call with
  | declarations file => exact fun c hfailure => settled_declarations hfailure
  | message => exact settles_message.bind fun _ => keeps_pure _
  | header => exact settles_header.bind fun _ => keeps_pure _
  | field => exact settles_field.bind fun _ => keeps_pure _
  | expect value => exact settles_expect value
  | advance => exact settles_advance.bind fun _ => keeps_pure _
  | peek => exact absurd rfl h

theorem pushedBack_of_pushback (h : pushback c = .ok () c') : c'.pushedBack = true := by
  unfold pushback at h
  split at h
  · cases h
  · cases h
    rfl

theorem pushedBack_of_peek {t : Token} (h : peek c = .ok t c') : c'.pushedBack = true := by
  obtain ⟨u, c₁, -, h⟩ := Reading.bind_eq_ok_iff.1 h
  obtain ⟨_, c₂, hback, h⟩ := Reading.bind_eq_ok_iff.1 h
  cases h
  exact pushedBack_of_pushback hback

theorem Step.pushesBack_call {asked : Call} (h : asked ≠ .peek) :
    (Step.call asked).pushesBack = false := by
  cases asked with
  | peek => exact absurd rfl h
  | _ => rfl

/-- A step that succeeds leaves a token pushed back only if it looks ahead or pushes back. -/
theorem Step.pushedBack_of_run {step : Step} (hfailure : c.failure = none)
    (h : step.run policy c = .ok () c') : c'.pushedBack = step.pushesBack := by
  cases step with
  | pushback => exact pushedBack_of_pushback h
  | call asked =>
    have hrun : asked.run policy c = .ok () c' := h
    by_cases hpeek : asked = .peek
    · subst hpeek
      obtain ⟨t, c₁, hread, hreturn⟩ := Reading.bind_eq_ok_iff.1 hrun
      cases hreturn
      exact pushedBack_of_peek hread
    · have hsettled : Settled (asked.run policy c) := Call.settles_run hpeek c hfailure
      rw [hrun] at hsettled
      rw [hsettled.2, pushesBack_call hpeek]

theorem pushedBack_of_runSteps {steps : List Step} (h : Stands source c)
    (hrun : runSteps policy steps c = .ok () c') :
    c'.pushedBack = (steps.getLast?.map Step.pushesBack).getD c.pushedBack := by
  induction steps generalizing c with
  | nil =>
    cases hrun
    rfl
  | cons step later ih =>
    obtain ⟨_, c₁, hstep, hlater⟩ := Reading.bind_eq_ok_iff.1 hrun
    rw [ih (step.stands_of_run h hstep) hlater, step.pushedBack_of_run h.failure hstep,
      List.getLast?_cons]
    cases later.getLast? <;> rfl

/-! ## Behind the last token -/

theorem finish_eq_ok_iff : finish c = .ok () c' ↔ c' = c ∧ c.scanner.rest = [] := by
  unfold finish
  split
  · next hrest =>
    rw [List.isEmpty_iff] at hrest
    constructor
    · intro h
      cases h
      exact ⟨rfl, hrest⟩
    · rintro ⟨rfl, -⟩
      rfl
  · next hrest =>
    rw [List.isEmpty_iff] at hrest
    constructor
    · intro h
      cases h
    · rintro ⟨-, h⟩
      exact absurd h hrest

/-- Where no text is left, no token is to be taken any more, and no character was stray. -/
theorem Untaken.of_rest_nil {tokens : List Token} (h : Untaken source c tokens)
    (hrest : c.scanner.rest = []) :
    tokens = [] ∧ (Scanner.ofSource source).readAll.ending = .ok (.endOf source) := by
  obtain ⟨s, hadv⟩ := Scanner.advance_of_rest_nil hrest
  have hread := Scanner.readAll_of_end hadv
  have htokens : c.scanner.readAll.tokens = tokens := h.delivered
  have hending : c.scanner.readAll.ending = (Scanner.ofSource source).readAll.ending := h.ending
  rw [hread] at htokens hending
  exact ⟨htokens.symm,
    Scanner.ending_eq_endOf (Scanner.Scan.failure_of_ending_ok hending.symm).1⟩

/-- Where no text is left, the token that was delivered last is the last one of the text, or its
end. -/
theorem Stands.current_of_rest_nil (h : Stands source c) (hrest : c.scanner.rest = []) :
    c.current = .endOf source ∨
      (Scanner.ofSource source).readAll.tokens.getLast? = some c.current := by
  cases h with
  | atStart _ scanner current =>
    rw [scanner] at hrest
    have hempty : source = "" := String.toList_eq_nil_iff.mp hrest
    subst hempty
    exact Or.inl current
  | behind untaken split =>
    obtain ⟨rfl, -⟩ := untaken.of_rest_nil hrest
    exact Or.inr (by rw [split, List.getLast?_concat])
  | atEnd untaken ending =>
    rw [(untaken.of_rest_nil hrest).2] at ending
    exact Or.inl (Except.ok.inj ending).symm

/-- With nothing to be taken and nothing pushed back, a read delivers the end of the text. -/
theorem Untaken.advance_end (h : Untaken source c []) (hback : c.pushedBack = false)
    (hending : (Scanner.ofSource source).readAll.ending = .ok (.endOf source)) :
    ∃ c', advance c = .ok (.endOf source) c' ∧ c'.pushedBack = false ∧ Untaken source c' [] := by
  have hahead := (untaken_iff_ahead hback).mp h
  rw [hending] at hahead
  obtain ⟨c', hadv, hahead', -, -⟩ := advance_of_end hahead
  have hback' : c'.pushedBack = false := hahead'.pushedBack_of_nil
  exact ⟨c', hadv, hback', (untaken_iff_ahead hback').mpr (hending ▸ hahead')⟩

/-- **Behind `finish` at most one token is left to be delivered.** After any steps without an error,
where `finish` succeeds, the next read delivers the end of the text, unless the last step has looked
ahead or pushed back. Then it delivers the token once more that was delivered last, which is the
last one of the text or its end; and the read behind it delivers the end. -/
theorem advance_of_finish {steps : List Step}
    (hsteps : runSteps policy steps (.ofSource source) = .ok () c)
    (hfinish : finish c = .ok () c') :
    (c.current = .endOf source ∨
        (Scanner.ofSource source).readAll.tokens.getLast? = some c.current) ∧
      ∃ c₁ c₂,
        advance c' = .ok (if endsPushedBack steps then c.current else .endOf source) c₁ ∧
          advance c₁ = .ok (.endOf source) c₂ := by
  obtain ⟨rfl, hrest⟩ := finish_eq_ok_iff.mp hfinish
  have hstands : Stands source c' := stands_of_runSteps hsteps
  have hback : c'.pushedBack = endsPushedBack steps :=
    pushedBack_of_runSteps (stands_ofSource source) hsteps
  obtain ⟨_, tokens, -, huntaken⟩ := hstands.exists_untaken
  obtain ⟨rfl, hending⟩ := huntaken.of_rest_nil hrest
  refine ⟨hstands.current_of_rest_nil hrest, ?_⟩
  rw [← hback]
  cases hpushed : c'.pushedBack with
  | true =>
    -- the scanner has nothing to add to the token that is held back
    have huntaken' : Untaken source
        { c' with pushedBack := false, reads := c'.reads.push c'.current } [] :=
      huntaken.congr rfl rfl
    obtain ⟨c₂, hadv, -, -⟩ := huntaken'.advance_end rfl hending
    exact ⟨_, c₂, advance_of_pushedBack hstands.failure hpushed, hadv⟩
  | false =>
    obtain ⟨c₁, hadv, hback₁, huntaken₁⟩ := huntaken.advance_end hpushed hending
    obtain ⟨c₂, hadv₂, -, -⟩ := huntaken₁.advance_end hback₁ hending
    exact ⟨c₁, c₂, hadv, hadv₂⟩

theorem exists_of_run' {α : Type} {x : Reading α} {a : α} (h : x.run' c = some a) :
    ∃ c', x c = .ok a c' := by
  unfold EStateM.run' EStateM.run at h
  split at h
  · next b c' hread =>
    cases h
    exact ⟨c', hread⟩
  · cases h

/-- A message is read up to its brace, and the brace is pushed back. -/
theorem advance_of_finish_brace :
    ∃ c c₁ c₂, runSteps .skip [.call .message, .pushback] (.ofSource "message M {}") = .ok () c ∧
      finish c = .ok () c ∧ c.current.value = "\x7d" ∧
        advance c = .ok c.current c₁ ∧ advance c₁ = .ok (.endOf "message M {}") c₂ := by
  let reading : Reading String := do
    runSteps .skip [.call .message, .pushback]
    finish
    return (← get).current.value
  have hrun : reading.run' (.ofSource "message M {}") = some "\x7d" := by decide +kernel
  obtain ⟨c', hread⟩ := exists_of_run' hrun
  obtain ⟨⟨⟩, c, hsteps, hrest⟩ := Reading.bind_eq_ok_iff.mp hread
  obtain ⟨⟨⟩, c₀, hfinish, hget⟩ := Reading.bind_eq_ok_iff.mp hrest
  obtain ⟨rfl, -⟩ := finish_eq_ok_iff.mp hfinish
  have hvalue : c₀.current.value = "\x7d" := (EStateM.Result.ok.inj hget).1
  obtain ⟨-, c₁, c₂, hadv, hend⟩ := advance_of_finish hsteps hfinish
  exact ⟨c₀, c₁, c₂, hsteps, hfinish, hvalue, hadv, hend⟩

/-- **A token may be left where `finish` succeeds.** Behind the message below a word is left, and to
look at that word is enough for `finish` to succeed. -/
theorem not_forall_end_of_finish :
    ¬∀ (policy : UnknownContent) (source : String) (steps : List Step) (c c' : Cursor),
      runSteps policy steps (.ofSource source) = .ok () c → finish c = .ok () c' →
        ∃ t c₁, advance c' = .ok t c₁ ∧ t.value = "" ∧ t.offset = source.utf8ByteSize := by
  intro h
  let reading : Reading Token := do
    runSteps .skip [.call .message, .call .peek]
    finish
    advance
  have hrun : reading.run' (.ofSource "message M {} x")
      = some { value := "x", line := 1, offset := 13 } := by
    decide +kernel
  obtain ⟨c₁, hread⟩ := exists_of_run' hrun
  obtain ⟨⟨⟩, c, hsteps, hrest⟩ := Reading.bind_eq_ok_iff.mp hread
  obtain ⟨⟨⟩, c', hfinish, hadv⟩ := Reading.bind_eq_ok_iff.mp hrest
  obtain ⟨t, c₂, hend, hvalue, -⟩ := h .skip _ _ c c' hsteps hfinish
  rw [hadv] at hend
  cases hend
  exact absurd hvalue (by decide)

end Declaration

end ProtoSchema
