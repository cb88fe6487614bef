import ProtoSchema.Proofs.Token.Joining
import ProtoSchema.Proofs.Token.Writing

/-!
# Inserting words in a text

A text may be opened between two of its tokens (`Seam`), and words put in there with spaces around
them. The words become tokens, and those before and behind stay what they were.

Main statement: `Scanner.values_insert`.
-/

namespace ProtoSchema

open Scanner Text

/-! ## Closed texts -/

/-- A lexeme stays one in front of any text that does not continue it. -/
theorem Lexeme.of_boundary {before after after' text : List Char} (h : Lexeme before after text)
    (hb : Boundary (before ++ text) after') : Lexeme before after' text := by
  cases h with
  | symbol hc => exact .symbol hc
  | word hne hall hbefore _ =>
    refine .word hne hall hbefore ?_
    intro d hd hword
    have hlast : text.getLast hne ∈ (before ++ text).getLast? := by
      rw [List.getLast?_append, List.getLast?_eq_some_getLast hne]
      rfl
    exact hb _ hlast d hd hword (hall _ (List.getLast_mem hne))

/-- **A text is closed behind each of its tokens.** -/
theorem Tiling.exists_closed {before text rest : List Char} {earlier later : List Token} {t : Token}
    (h : Tiling before text (earlier ++ t :: later) rest) :
    ∃ front ahead, text = front ++ ahead ∧ front ≠ [] ∧
      t.span.stop = byteLength (before ++ front) ∧ Boundary (before ++ front) ahead ∧
        ClosedTiling before front (earlier ++ [t]) := by
  generalize hall : earlier ++ t :: later = tokens at h
  induction h generalizing earlier with
  | stop _ => simp at hall
  | @token before gap lexeme ahead rest tokens hgap hlex _ ih =>
    cases earlier with
    | nil =>
      obtain ⟨rfl, rfl⟩ := List.cons.inj hall
      refine ⟨gap ++ lexeme, ahead, rfl, ?_, ?_, ?_, ?_⟩
      · exact fun hnil => hlex.ne_nil (List.append_eq_nil_iff.mp hnil).2
      · simp only [Token.span, tokenAt, utf8ByteSize_ofList, byteLength_append]
        omega
      · rw [← List.append_assoc]
        exact hlex.boundary
      · intro more rest' tokens' hb hmore
        rw [← List.append_assoc] at hb hmore
        refine .token (hgap.of_head ?_) (hlex.of_boundary hb) hmore
        obtain ⟨d, cs, rfl⟩ := List.exists_cons_of_ne_nil hlex.ne_nil
        exact fun c hc => Or.inr hc
    | cons first earlier =>
      obtain ⟨rfl, htail⟩ := List.cons.inj hall
      obtain ⟨front, ahead', rfl, hne, hstop, hb, hclosed⟩ := ih htail
      refine ⟨gap ++ lexeme ++ front, ahead', ?_, ?_, ?_, ?_, ?_⟩
      · simp only [List.append_assoc]
      · exact fun hnil => hne (List.append_eq_nil_iff.mp hnil).2
      · rw [hstop]
        simp only [List.append_assoc]
      · simpa only [List.append_assoc] using hb
      · intro more rest' tokens' hb' hmore
        have htail := hclosed more rest' tokens' (by simpa only [List.append_assoc] using hb')
          (by simpa only [List.append_assoc] using hmore)
        -- the first token is followed by the same character as before
        obtain ⟨d, front, rfl⟩ := List.exists_cons_of_ne_nil hne
        obtain ⟨e, lexeme, rfl⟩ := List.exists_cons_of_ne_nil hlex.ne_nil
        have hgap' : Gap (e :: lexeme ++ (d :: front ++ more)) gap :=
          hgap.of_head fun c hc => Or.inr hc
        have hlex' : Lexeme (before ++ gap) (d :: front ++ more) (e :: lexeme) :=
          hlex.of_head fun c hc => Or.inr hc
        simpa only [List.append_assoc, List.cons_append] using Tiling.token hgap' hlex' htail

/-- Closed layout behind a closed text. -/
theorem ClosedTiling.layout {before text gap : List Char} {tokens : List Token}
    (h : ClosedTiling before text tokens) (hgap : Layout gap) :
    ClosedTiling before (text ++ gap) tokens := by
  intro more rest tokens' hb hmore
  rw [← List.append_assoc] at hb hmore
  rw [List.append_assoc]
  refine h _ _ _ ?_ (hmore.prepend_gap (hgap.gap more) fun c hc => Or.inr hc)
  intro c hc d hd hword
  cases gap with
  | nil =>
    rw [List.append_nil] at hb
    exact hb c hc d hd hword
  | cons e gap => exact absurd hword (not_isWordChar_of_head_layout hgap hd)

/-- Layout behind a closed text ends where the text goes on. -/
theorem Layout.boundary {before gap after : List Char} (h : Layout gap)
    (hb : Boundary before (gap ++ after)) : Boundary (before ++ gap) after := by
  intro c hc d hd hword
  have hlayout : NoLayout after := by
    obtain ⟨cs, rfl⟩ := List.head?_eq_some_iff.mp hd
    exact noLayout_of_isWordChar hword
  exact (h.gap after).boundary hlayout hb c hc d hd hword

/-! ## Words with spaces around them -/

/-- The characters of words, each behind a space. -/
def spaced (words : List String) : List Char :=
  words.flatMap fun w => ' ' :: w.toList

theorem spaced_cons (w : String) (words : List String) :
    spaced (w :: words) = ' ' :: (w.toList ++ spaced words) :=
  List.flatMap_cons

/-- A word behind a space becomes a token. -/
theorem ClosedTiling.word {before text : List Char} {tokens : List Token} {w : String}
    (h : ClosedTiling before text tokens) (hw : IsTokenText w) :
    ∃ t : Token, t.value = w ∧ ClosedTiling before (text ++ ' ' :: w.toList) (tokens ++ [t]) := by
  refine ⟨tokenAt (before ++ text ++ [' ']) w.toList, String.ofList_toList, ?_⟩
  intro more rest tokens' hb hmore
  have hsplit : before ++ (text ++ ' ' :: w.toList) = before ++ text ++ [' '] ++ w.toList := by
    simp only [List.append_assoc, List.cons_append, List.nil_append]
  rw [hsplit] at hb hmore
  have hlex : Lexeme (before ++ text ++ [' ']) [] w.toList := by
    rcases hw with ⟨c, hc, rfl⟩ | ⟨hne, hall⟩
    · rw [String.toList_singleton]
      exact .symbol hc
    · refine .word (fun hnil => hne (String.toList_eq_nil_iff.mp hnil)) hall ?_ ?_
      · intro c hc
        rw [List.getLast?_append] at hc
        cases hc
        decide
      · intro c hc
        cases hc
  have hgap : Gap (w.toList ++ more) [' '] := .space (by decide) .nil
  have htoken := Tiling.token hgap (hlex.of_boundary hb) hmore
  have htail := h _ _ _ ?_ htoken
  · simpa only [List.append_assoc, List.cons_append, List.nil_append] using htail
  · intro c _ d hd hword
    cases hd
    exact absurd hword (by decide)

/-- **Words behind spaces become tokens.** -/
theorem ClosedTiling.words {before text : List Char} {tokens : List Token} {words : List String}
    (h : ClosedTiling before text tokens) (hwords : ∀ w ∈ words, IsTokenText w) :
    ∃ inner : List Token, inner.map Token.value = words ∧
      ClosedTiling before (text ++ spaced words) (tokens ++ inner) := by
  induction words generalizing text tokens with
  | nil =>
    refine ⟨[], rfl, ?_⟩
    show ClosedTiling before (text ++ []) (tokens ++ [])
    rwa [List.append_nil, List.append_nil]
  | cons w words ih =>
    rw [List.forall_mem_cons] at hwords
    obtain ⟨t, ht, hword⟩ := h.word hwords.1
    obtain ⟨inner, hinner, hclosed⟩ := ih hword hwords.2
    refine ⟨t :: inner, ?_, ?_⟩
    · rw [List.map_cons, ht, hinner]
    · rw [spaced_cons]
      simpa only [List.append_assoc, List.cons_append, List.nil_append] using hclosed

/-- Texts with spaces in between. -/
theorem toList_intercalate_space (front back : String) (words : List String) :
    (" ".intercalate (front :: words ++ [back])).toList
      = front.toList ++ spaced words ++ [' '] ++ back.toList := by
  induction words generalizing front with
  | nil =>
    rw [List.cons_append, List.nil_append, String.intercalate_cons_cons,
      String.intercalate_singleton, String.toList_append, String.toList_append, spaced,
      List.flatMap_nil, List.append_nil]
    rfl
  | cons w words ih =>
    rw [List.cons_append, List.cons_append, String.intercalate_cons_cons, ← List.cons_append,
      String.toList_append, String.toList_append, ih, spaced_cons]
    simp only [List.append_assoc, List.cons_append, List.nil_append]
    rfl

/-! ## Texts -/

/-- A place between two tokens of a text: `front` ends behind a token and closed layout, and the
tokens of the whole text up to there are `words`. -/
def Seam (front back : String) (words : List String) : Prop :=
  ∃ (earlier : List Token) (t : Token) (later : List Token) (before gap : List Char),
    (ofSource (front ++ back)).readAll.tokens = earlier ++ t :: later ∧
      (earlier ++ [t]).map Token.value = words ∧
        front.toList = before ++ gap ∧ byteLength before = t.span.stop ∧ Layout gap

/-- **At a seam, the front part is closed.** -/
theorem Seam.exists_closed {front back : String} {words : List String} (h : Seam front back words) :
    ∃ tokens, tokens.map Token.value = words ∧ ClosedTiling [] front.toList tokens ∧
      Boundary front.toList back.toList := by
  obtain ⟨earlier, t, later, before, gap, htokens, hwords, hfront, hstop, hgap⟩ := h
  obtain ⟨_, _, -, htiling, -⟩ := exists_tiling_ending (front ++ back)
  rw [htokens] at htiling
  obtain ⟨front', ahead, htext, -, hstop', hb, hclosed⟩ := htiling.exists_closed
  rw [String.toList_append, hfront, List.append_assoc] at htext
  obtain rfl : before = front' := eq_of_append_eq_of_byteLength htext (hstop.trans hstop')
  rw [← List.append_cancel_left htext] at hb
  rw [hfront]
  exact ⟨earlier ++ [t], hwords, hclosed.layout hgap, hgap.boundary hb⟩

/-- Behind a closed text, a text has the same values and ends alike. -/
theorem Scanner.values_append {front back : String} {tokens : List Token}
    (h : ClosedTiling [] front.toList tokens) (hb : Boundary front.toList back.toList) :
    (ofSource (front ++ back)).readAll.tokens.map Token.value
        = tokens.map Token.value ++ (ofSource back).readAll.tokens.map Token.value ∧
      ((∃ last, (ofSource (front ++ back)).readAll.ending = .ok last) ↔
        ∃ last, (ofSource back).readAll.ending = .ok last) := by
  obtain ⟨htokens, hending⟩ := readAll_append h hb
  have hvalues : ∀ lines bytes, Token.value ∘ Token.moved lines bytes = Token.value :=
    fun _ _ => rfl
  rw [htokens, hending, List.map_append, List.map_map, hvalues]
  refine ⟨rfl, ?_⟩
  cases (ofSource back).readAll.ending with
  | error e => simp [movedEnding]
  | ok last => simp [movedEnding]

/-- **Words that are put in at a seam become tokens between those before and behind.** The text ends
as it did. -/
theorem Scanner.values_insert {front back : String} {words inner : List String}
    (h : Seam front back words) (hinner : ∀ w ∈ inner, IsTokenText w) :
    ∃ rest, (ofSource (front ++ back)).readAll.tokens.map Token.value = words ++ rest ∧
      (ofSource (" ".intercalate (front :: inner ++ [back]))).readAll.tokens.map Token.value
        = words ++ inner ++ rest ∧
      ((∃ last, (ofSource (" ".intercalate (front :: inner ++ [back]))).readAll.ending
          = .ok last) ↔ ∃ last, (ofSource (front ++ back)).readAll.ending = .ok last) := by
  obtain ⟨tokens, rfl, hclosed, hb⟩ := h.exists_closed
  obtain ⟨tokens', rfl, hclosed'⟩ := hclosed.words hinner
  obtain ⟨middle, hmiddle⟩ : ∃ middle : String,
      middle.toList = front.toList ++ spaced (tokens'.map Token.value) ++ [' '] :=
    ⟨String.ofList _, String.toList_ofList⟩
  have hwhole : " ".intercalate (front :: tokens'.map Token.value ++ [back]) = middle ++ back := by
    refine String.toList_inj.mp ?_
    rw [toList_intercalate_space, String.toList_append, hmiddle]
  have hspace : Layout [' '] := .space (by decide) .nil
  have hclosed'' : ClosedTiling [] middle.toList (tokens ++ tokens') :=
    hmiddle ▸ hclosed'.layout hspace
  have hb' : Boundary middle.toList back.toList := by
    intro c hc d _ _
    rw [hmiddle, List.getLast?_append] at hc
    cases hc
    decide
  obtain ⟨hvalues, hends⟩ := values_append hclosed hb
  obtain ⟨hvalues', hends'⟩ := values_append hclosed'' hb'
  rw [hwhole]
  refine ⟨_, hvalues, ?_, hends'.trans hends.symm⟩
  rw [hvalues', List.map_append]

end ProtoSchema
