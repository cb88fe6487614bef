import ProtoSchema.Proofs.Token.Order

/-!
# Cutting and joining texts

What a text is tiled into depends on what comes behind it only through the character that comes
next: a comment must end there, and a word must not go on. So a tiling can be cut at any of its
tokens (`Tiling.exists_cut`), and a text can be tiled behind another that leaves no comment open and
whose last word it does not continue (`ClosedTiling`); a newline closes every text.

Main statement: behind a closed text, a text is scanned as it is alone, with its places moved on
(`readAll_append`).
-/

namespace ProtoSchema

open Scanner Text

/-! ## What comes behind -/

/-- Layout goes on with further layout, if comments may end where the second begins. -/
theorem Gap.append {after after' gap more : List Char} (h : Gap after gap) (hmore : Gap after' more)
    (hhead : ∀ c ∈ (more ++ after').head?, c = '\n' ∨ c ∈ after.head?) :
    Gap after' (gap ++ more) := by
  induction h with
  | nil => exact hmore
  | space hc _ ih => exact .space hc ih
  | @comment text gap htext hend _ ih =>
    rw [List.cons_append, List.cons_append, List.append_assoc]
    refine .comment htext ?_ ih
    intro c hc
    cases gap with
    | nil => exact (hhead c hc).elim id (hend c)
    | cons d gap => exact hend c hc

/-- Layout in front of a text stays layout in front of another that begins alike, or with a
newline. -/
theorem Gap.of_head {after after' gap : List Char} (h : Gap after gap)
    (hhead : ∀ c ∈ after'.head?, c = '\n' ∨ c ∈ after.head?) : Gap after' gap := by
  have happend := h.append (.nil : Gap after' []) hhead
  rwa [List.append_nil] at happend

/-- A lexeme stays one if what comes behind begins alike, or with a newline. -/
theorem Lexeme.of_head {before after after' text : List Char} (h : Lexeme before after text)
    (hhead : ∀ c ∈ after'.head?, c = '\n' ∨ c ∈ after.head?) : Lexeme before after' text := by
  cases h with
  | symbol hc => exact .symbol hc
  | word hne hall hbefore hafter =>
    refine .word hne hall hbefore ?_
    intro c hc
    rcases hhead c hc with rfl | hc
    · decide
    · exact hafter c hc

/-- A front part begins as the whole does. -/
theorem head?_of_append {front rest : List Char} {c : Char} (hc : c ∈ front.head?) :
    c ∈ (front ++ rest).head? := by
  cases front with
  | nil => cases hc
  | cons d front => exact hc

/-! ## Cutting -/

/-- **A tiling can be cut before and behind each of its tokens.** -/
theorem Tiling.exists_cut {before text rest : List Char} {tokens : List Token} {t : Token}
    (h : Tiling before text tokens rest) (ht : t ∈ tokens) :
    ∃ front lexeme ahead earlier later, text = front ++ lexeme ++ ahead ∧
      tokens = earlier ++ t :: later ∧ t = tokenAt (before ++ front) lexeme ∧
      Tiling before front earlier [] ∧ Tiling before (front ++ lexeme) (earlier ++ [t]) [] := by
  induction h with
  | stop _ => cases ht
  | @token before gap lexeme ahead rest tokens hgap hlex _ ih =>
    rcases List.mem_cons.mp ht with rfl | ht
    · refine ⟨gap, lexeme, ahead, [], tokens, rfl, rfl, rfl, ?_, ?_⟩
      · have hfront : Tiling before (gap ++ []) [] [] :=
          .stop (hgap.of_head fun c hc => by cases hc)
        rwa [List.append_nil] at hfront
      · have hfront : Tiling before (gap ++ lexeme ++ []) _ [] :=
          .token (hgap.of_head fun c hc => Or.inr (head?_of_append (by simpa using hc)))
            (hlex.of_head fun c hc => by cases hc) (.stop .nil)
        rwa [List.append_nil] at hfront
    · obtain ⟨front, lexeme', ahead', earlier, later, rfl, rfl, rfl, hbefore, hbehind⟩ := ih ht
      -- the first token is followed by the same character, or by nothing, wherever the cut is
      have hcut : ∀ {part more : List Char} {ts : List Token}, front ++ lexeme' ++ ahead'
          = part ++ more → Tiling (before ++ gap ++ lexeme) part ts [] →
          Tiling before (gap ++ lexeme ++ part) (tokenAt (before ++ gap) lexeme :: ts) [] := by
        intro part more ts hpart htiling
        rw [hpart] at hgap hlex
        refine .token (hgap.of_head fun c hc => Or.inr ?_)
          (hlex.of_head fun c hc => Or.inr (head?_of_append hc)) htiling
        rw [← List.append_assoc]
        exact head?_of_append hc
      refine ⟨gap ++ lexeme ++ front, lexeme', ahead', _ :: earlier, later, ?_, rfl, ?_, ?_, ?_⟩
      · simp only [List.append_assoc]
      · simp only [List.append_assoc]
      · exact hcut (List.append_assoc ..) hbefore
      · rw [List.append_assoc]
        exact hcut rfl hbehind

/-! ## Moving -/

/-- The same token, further on in a text. -/
def Token.moved (lines bytes : Nat) (t : Token) : Token :=
  { t with line := t.line + lines, offset := t.offset + bytes }

/-- The same error, further on in a text. -/
def SyntaxError.moved (lines bytes : Nat) (e : SyntaxError) : SyntaxError :=
  { cause := e.cause, line := e.line + lines,
    span := { start := e.span.start + bytes, stop := e.span.stop + bytes },
    offset := e.offset + bytes }

theorem moved_tokenAt (before front text : List Char) :
    (tokenAt front text).moved (before.count '\n') (byteLength before)
      = tokenAt (before ++ front) text := by
  simp only [Token.moved, tokenAt, List.count_append, byteLength_append, Token.mk.injEq, true_and]
  omega

theorem moved_strayAt (before front : List Char) (c : Char) :
    (strayAt front c).moved (before.count '\n') (byteLength before)
      = strayAt (before ++ front) c := by
  simp only [SyntaxError.moved, strayAt, List.count_append, byteLength_append,
    SyntaxError.mk.injEq, Span.mk.injEq, true_and]
  omega

/-- **A tiling may stand behind any text whose last word it does not continue.** -/
theorem Tiling.moved {front before text rest : List Char} {tokens : List Token}
    (h : Tiling front text tokens rest) (hbefore : front = [] → Boundary before text) :
    Tiling (before ++ front) text
      (tokens.map (Token.moved (before.count '\n') (byteLength before))) rest := by
  induction h with
  | stop hgap => exact .stop hgap
  | @token front gap lexeme ahead rest tokens hgap hlex _ ih =>
    have hlex' : Lexeme (before ++ front ++ gap) ahead lexeme := by
      rw [List.append_assoc]
      cases hlex with
      | symbol hc => exact .symbol hc
      | word hne hall hfront hafter =>
        refine .word hne hall ?_ hafter
        intro c hc
        rw [List.getLast?_append] at hc
        cases hlast : (front ++ gap).getLast? with
        | none =>
          -- the word begins the text
          obtain ⟨rfl, rfl⟩ := List.append_eq_nil_iff.mp (List.getLast?_eq_none_iff.mp hlast)
          obtain ⟨d, cs, rfl⟩ := List.exists_cons_of_ne_nil hne
          exact hbefore rfl c hc d rfl (hall d List.mem_cons_self)
        | some d =>
          rw [hlast, Option.some_or] at hc
          exact hfront c (hlast.trans hc)
    rw [List.map_cons, moved_tokenAt, ← List.append_assoc]
    refine .token hgap hlex' ?_
    have hne : front ++ gap ++ lexeme = [] → Boundary before ahead := by
      intro hnil
      exact absurd (List.append_eq_nil_iff.mp hnil).2 hlex.ne_nil
    simpa only [List.append_assoc] using ih hne

/-! ## Joining -/

/-- Layout may be put in front of a tiled text, if comments may end where the text begins. -/
theorem Tiling.prepend_gap {before gap after text rest : List Char} {tokens : List Token}
    (h : Tiling (before ++ gap) text tokens rest) (hgap : Gap after gap)
    (hhead : ∀ c ∈ text.head?, c = '\n' ∨ c ∈ after.head?) :
    Tiling before (gap ++ text) tokens rest := by
  cases h with
  | stop hmore =>
    rw [← List.append_assoc]
    exact .stop (hgap.append hmore hhead)
  | @token _ more lexeme ahead _ _ hmore hlex htiling =>
    rw [List.append_assoc] at hlex hhead
    rw [List.append_assoc before] at htiling
    have hall := Tiling.token (hgap.append hmore hhead) hlex htiling
    simpa only [List.append_assoc] using hall

/-- **Two tilings are joined by a newline.** It ends a comment that the first text leaves open, and
keeps its last word from going on. -/
theorem Tiling.append_newline {before text more rest : List Char} {tokens tokens' : List Token}
    (h : Tiling before text tokens []) (h' : Tiling (before ++ text) ('\n' :: more) tokens' rest) :
    Tiling before (text ++ '\n' :: more) (tokens ++ tokens') rest := by
  generalize hnil : ([] : List Char) = last at h
  induction h with
  | @stop before gap last hgap =>
    subst hnil
    rw [List.append_nil] at h' ⊢
    exact h'.prepend_gap hgap fun c hc => Or.inl (Option.some.inj hc).symm
  | @token before gap lexeme ahead last tokens hgap hlex _ ih =>
    have hnext : ∀ c ∈ (ahead ++ '\n' :: more).head?, c = '\n' ∨ c ∈ ahead.head? := by
      intro c hc
      cases ahead with
      | nil => exact Or.inl (Option.some.inj hc).symm
      | cons d ahead => exact Or.inr hc
    have hfirst : ∀ c ∈ (lexeme ++ (ahead ++ '\n' :: more)).head?,
        c = '\n' ∨ c ∈ (lexeme ++ ahead).head? := by
      intro c hc
      obtain ⟨d, lexeme, rfl⟩ := List.exists_cons_of_ne_nil hlex.ne_nil
      exact Or.inr hc
    rw [List.append_assoc (gap ++ lexeme), List.cons_append]
    refine .token (hgap.of_head hfirst) (hlex.of_head hnext) (ih ?_ hnil)
    simpa only [List.append_assoc] using h'

/-- A text is tiled up to its end, and whatever does not continue its last word can be tiled behind
it. -/
def ClosedTiling (before text : List Char) (tokens : List Token) : Prop :=
  ∀ (more rest : List Char) (tokens' : List Token), Boundary (before ++ text) more →
    Tiling (before ++ text) more tokens' rest →
      Tiling before (text ++ more) (tokens ++ tokens') rest

/-- A newline closes every text. -/
theorem Tiling.closed_newline {before text : List Char} {tokens : List Token}
    (h : Tiling before text tokens []) : ClosedTiling before (text ++ ['\n']) tokens := by
  intro more rest tokens' _ hmore
  rw [← List.append_assoc] at hmore
  rw [List.append_assoc]
  have hgap : Gap more ['\n'] := .space (by decide) .nil
  exact h.append_newline (hmore.prepend_gap hgap fun c hc => Or.inr hc)

/-! ## Scans -/

namespace Scanner

/-- The same ending, further on in a text. -/
def movedEnding (lines bytes : Nat) : Except SyntaxError Token → Except SyntaxError Token
  | .ok last => .ok (last.moved lines bytes)
  | .error e => .error (e.moved lines bytes)

/-- **A text that is cut before or behind a token is scanned to the tokens before the cut.** -/
theorem exists_readAll_of_cut {front rest : String} {t : Token}
    (ht : t ∈ (ofSource (front ++ rest)).readAll.tokens)
    (hcut : front.utf8ByteSize = t.offset ∨ front.utf8ByteSize = t.span.stop) :
    (ofSource front).readAll.failure = none ∧
      ∃ later, (ofSource (front ++ rest)).readAll.tokens
        = (ofSource front).readAll.tokens ++ later := by
  obtain ⟨_, _, -, htiling, -⟩ := exists_tiling_ending (front ++ rest)
  obtain ⟨before, lexeme, ahead, earlier, later, htext, htokens, rfl, hbefore, hbehind⟩ :=
    htiling.exists_cut ht
  rw [String.toList_append] at htext
  rw [htokens, ofSource_eq]
  have hsize : front.utf8ByteSize = byteLength front.toList := by
    rw [← utf8ByteSize_ofList, String.ofList_toList]
  rw [hsize] at hcut
  rcases hcut with hcut | hcut
  · rw [List.append_assoc before] at htext
    have hfront : front.toList = before := eq_of_append_eq_of_byteLength htext hcut
    rw [hfront, readAll_of_tokenization (.whole hbefore)]
    exact ⟨rfl, _, rfl⟩
  · have hstop : (tokenAt ([] ++ before) lexeme).span.stop = byteLength (before ++ lexeme) := by
      simp only [Token.span, tokenAt, List.nil_append, utf8ByteSize_ofList, byteLength_append]
    have hfront : front.toList = before ++ lexeme :=
      eq_of_append_eq_of_byteLength htext (hcut.trans hstop)
    rw [hfront, readAll_of_tokenization (.whole hbehind)]
    exact ⟨rfl, later, by rw [List.append_assoc]; rfl⟩

/-- **Behind a closed text, a text is scanned as it is alone, with its places moved on.** -/
theorem readAll_append {front more : String} {tokens : List Token}
    (h : ClosedTiling [] front.toList tokens) (hb : Boundary front.toList more.toList) :
    (ofSource (front ++ more)).readAll.tokens
        = tokens ++ (ofSource more).readAll.tokens.map
            (Token.moved (front.toList.count '\n') front.utf8ByteSize) ∧
      (ofSource (front ++ more)).readAll.ending
        = movedEnding (front.toList.count '\n') front.utf8ByteSize
            (ofSource more).readAll.ending := by
  have hbytes : front.utf8ByteSize = byteLength front.toList := by
    rw [← utf8ByteSize_ofList, String.ofList_toList]
  have hjoin : ∀ {ts : List Token} {rest : List Char}, Tiling [] more.toList ts rest →
      Tiling [] (front.toList ++ more.toList) (tokens ++ ts.map
        (Token.moved (front.toList.count '\n') (byteLength front.toList))) rest := by
    intro ts rest htiling
    have hmoved := htiling.moved fun _ => hb
    rw [List.append_nil] at hmoved
    exact h _ _ _ hb hmoved
  have hmore := tokenization_readAll more
  rw [hbytes, ofSource_eq, String.toList_append]
  generalize (ofSource more).readAll = scan at hmore ⊢
  cases hmore with
  | whole htiling =>
    rw [readAll_of_tokenization (.whole (hjoin htiling))]
    refine ⟨rfl, ?_⟩
    -- the end of a text is an empty token behind it
    exact congrArg Except.ok (moved_tokenAt front.toList more.toList []).symm
  | @stray ts before rest c hsource htiling hstray =>
    have hwhole : front.toList ++ more.toList = (front.toList ++ before) ++ c :: rest := by
      rw [hsource, List.append_assoc]
    rw [readAll_of_tokenization (.stray hwhole (hjoin htiling) hstray)]
    refine ⟨rfl, ?_⟩
    simp only [Scan.ending, movedEnding, moved_strayAt]

/-- **Behind an accepted text and a newline, a text is scanned as it is alone, with its places
moved on.** -/
theorem readAll_append_newline {source : String}
    (h : (ofSource source).readAll.failure = none) (more : String) :
    (ofSource (source ++ "\n" ++ more)).readAll.tokens
        = (ofSource source).readAll.tokens ++ (ofSource more).readAll.tokens.map
            (Token.moved (source.toList.count '\n' + 1) (source.utf8ByteSize + 1)) ∧
      (ofSource (source ++ "\n" ++ more)).readAll.ending
        = movedEnding (source.toList.count '\n' + 1) (source.utf8ByteSize + 1)
            (ofSource more).readAll.ending := by
  have htext : (source ++ "\n").toList = source.toList ++ ['\n'] := String.toList_append
  have hlines : (source ++ "\n").toList.count '\n' = source.toList.count '\n' + 1 := by
    rw [htext, List.count_append]
    rfl
  have hbytes : (source ++ "\n").utf8ByteSize = source.utf8ByteSize + 1 :=
    String.utf8ByteSize_append
  rw [← hlines, ← hbytes]
  refine readAll_append ?_ ?_
  · rw [htext]
    exact (tiling_readAll h).1.closed_newline
  · rw [htext]
    intro c hc d _ _
    rw [List.getLast?_append] at hc
    cases hc
    decide

end Scanner

end ProtoSchema
