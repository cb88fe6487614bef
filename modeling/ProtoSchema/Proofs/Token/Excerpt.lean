import ProtoSchema.Proofs.Token.Insertion

/-!
# Parts of a text

What stands in a text from the beginning of one token to the end of another is a text of its own
(`Excerpt`). Scanned alone it has the same tokens, only at other places: in front of a token a
tiling begins anew, whatever stands before (`Tiling.exists_split`, `Tiling.forget`), and behind a
token the text is closed.

Main statement: `exists_excerpt`.
-/

namespace ProtoSchema

open Scanner Text

/-- **In front of each of its tokens a tiling begins anew.** -/
theorem Tiling.exists_split {before text rest : List Char} {earlier later : List Token} {t : Token}
    (h : Tiling before text (earlier ++ t :: later) rest) :
    ∃ front ahead, text = front ++ ahead ∧ t.offset = byteLength (before ++ front) ∧
      Tiling (before ++ front) ahead (t :: later) rest := by
  generalize hall : earlier ++ t :: later = tokens at h
  induction h generalizing earlier with
  | stop _ => simp at hall
  | @token before gap lexeme ahead rest tokens hgap hlex htiling ih =>
    cases earlier with
    | nil =>
      obtain ⟨rfl, rfl⟩ := List.cons.inj hall
      have hnil : before ++ gap ++ [] = before ++ gap := List.append_nil _
      have hfirst : Tiling (before ++ gap) ([] ++ lexeme ++ ahead)
          (tokenAt (before ++ gap ++ []) lexeme :: later) rest :=
        .token .nil (hnil.symm ▸ hlex) (hnil.symm ▸ htiling)
      rw [hnil] at hfirst
      exact ⟨gap, lexeme ++ ahead, List.append_assoc .., rfl, hfirst⟩
    | cons first earlier =>
      obtain ⟨-, htail⟩ := List.cons.inj hall
      obtain ⟨front, ahead', rfl, hoffset, hfront⟩ := ih htail
      refine ⟨gap ++ lexeme ++ front, ahead', (List.append_assoc ..).symm, ?_, ?_⟩
      · simpa only [List.append_assoc] using hoffset
      · simpa only [List.append_assoc] using hfront

/-- A lexeme stays one without what stands further in front. -/
theorem Lexeme.forget {before front after text : List Char}
    (h : Lexeme (before ++ front) after text) : Lexeme front after text := by
  cases h with
  | symbol hc => exact .symbol hc
  | word hne hall hbefore hafter =>
    refine .word hne hall ?_ hafter
    intro c hc
    refine hbefore c ?_
    rw [List.getLast?_append, hc]
    rfl

/-- **What stands in front of a tiled text makes no difference to the values of its tokens.** -/
theorem Tiling.forget {before front text rest : List Char} {tokens : List Token}
    (h : Tiling (before ++ front) text tokens rest) :
    ∃ tokens', tokens'.map Token.value = tokens.map Token.value ∧
      Tiling front text tokens' rest := by
  generalize hall : before ++ front = whole at h
  induction h generalizing front with
  | stop hgap => exact ⟨[], rfl, .stop hgap⟩
  | @token whole gap lexeme ahead rest tokens hgap hlex _ ih =>
    subst hall
    obtain ⟨tokens', hvalues, htiling⟩ := @ih (front ++ gap ++ lexeme) (by simp)
    rw [List.append_assoc] at hlex
    refine ⟨tokenAt (front ++ gap) lexeme :: tokens', ?_, .token hgap hlex.forget htiling⟩
    rw [List.map_cons, List.map_cons, hvalues]
    rfl

/-- `part` is what stands in the text from the beginning of the first of `tokens` to the end of the
last. -/
def Excerpt (source part : String) (tokens : List Token) : Prop :=
  ∃ front back : String, source = front ++ part ++ back ∧
    (∃ first ∈ tokens.head?, first.offset = front.utf8ByteSize) ∧
      ∃ last ∈ tokens.getLast?, last.span.stop = (front ++ part).utf8ByteSize

/-- **A part of a text is scanned alone to the tokens that it has in the text.** -/
theorem exists_excerpt {source : String} {earlier tokens later : List Token}
    (h : (ofSource source).readAll.tokens = earlier ++ tokens ++ later) (hne : tokens ≠ []) :
    ∃ part, Excerpt source part tokens ∧ (ofSource part).readAll.failure = none ∧
      (ofSource part).readAll.tokens.map Token.value = tokens.map Token.value := by
  obtain ⟨_, _, -, htiling, -⟩ := exists_tiling_ending source
  obtain ⟨first, tail, rfl⟩ := List.exists_cons_of_ne_nil hne
  rw [h, List.append_assoc, List.cons_append] at htiling
  obtain ⟨front, ahead, hsource, hfirst, hahead⟩ := htiling.exists_split
  obtain ⟨init, last, hlast⟩ : ∃ init last, first :: tail = init ++ [last] :=
    ⟨_, _, (List.dropLast_concat_getLast hne).symm⟩
  rw [← List.cons_append, hlast, List.append_assoc, List.singleton_append] at hahead
  obtain ⟨part, back, rfl, -, hstop, -, hclosed⟩ := hahead.exists_closed
  -- nothing stands behind the part, and what stands in front of it is forgotten
  have hpart : Tiling ([] ++ front) part (init ++ [last]) [] := by
    have hnil : Tiling ([] ++ front ++ part) ([] ++ []) [] [] := .stop .nil
    have hwhole := hclosed [] [] [] (by simp [Boundary]) hnil
    rwa [List.append_nil, List.append_nil] at hwhole
  rw [← List.append_nil ([] ++ front)] at hpart
  obtain ⟨tokens', hvalues, halone⟩ := hpart.forget
  have hscan := readAll_of_tokenization (.whole halone)
  rw [← String.toList_ofList (l := part), ← ofSource_eq] at hscan
  refine ⟨String.ofList part, ⟨String.ofList front, String.ofList back, ?_, ⟨first, rfl, ?_⟩,
    last, ?_, ?_⟩, ?_, ?_⟩
  · rw [← String.ofList_append, ← String.ofList_append, List.append_assoc, ← hsource,
      String.ofList_toList]
  · rw [hfirst, utf8ByteSize_ofList]
    rfl
  · rw [hlast, List.getLast?_append]
    rfl
  · rw [hstop, ← String.ofList_append, utf8ByteSize_ofList]
    rfl
  · rw [hscan]
  · rw [hscan, hlast, ← hvalues]

end ProtoSchema
