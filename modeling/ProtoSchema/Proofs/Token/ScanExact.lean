import ProtoSchema.Proofs.Text.Bytes
import ProtoSchema.Proofs.Token.Tiling

/-!
# The scanner follows the tiling

Reading a text with the scanner gives the tokens of its tiling, no others, and stops where the
tiling stops (`readAll_eq_iff`).

The scanner is put into the form "it has read `before` and stands in front of `ahead`" (`between`).
In that form each step says what it takes off the front: layout (`skipLayout_between`), a lexeme
(`advance_lexeme`), the end (`advance_nil`) or a stray character (`advance_stray`).
-/

namespace ProtoSchema.Scanner

open Text

/-- The scanner that has read `before` and stands in front of `ahead`. -/
def between (before ahead : List Char) : Scanner :=
  { rest := ahead, line := 1 + before.count '\n', offset := byteLength before, done := false }

theorem ofSource_eq (source : String) : ofSource source = between [] source.toList := rfl

/-! ## Layout -/

/-- An open comment is left where it ends. -/
theorem skipLayoutFrom_comment {text after : List Char} (htext : '\n' ∉ text)
    (hafter : EndsComment after) (line offset : Nat) :
    skipLayoutFrom true (text ++ after) line offset
      = skipLayoutFrom false after line (offset + byteLength text) := by
  induction text generalizing offset with
  | nil =>
    cases after with
    | nil => rfl
    | cons c after =>
      have hc : c = '\n' := hafter c rfl
      subst hc
      simp [skipLayoutFrom]
  | cons c text ih =>
    have hc : c ≠ '\n' := fun heq => htext (heq ▸ List.mem_cons_self)
    rw [List.cons_append, skipLayoutFrom, if_neg hc, if_pos rfl,
      ih (fun hmem => htext (List.mem_cons_of_mem _ hmem)), byteLength_cons, Nat.add_assoc]

theorem skipLayoutFrom_noLayout {rest : List Char} (h : NoLayout rest) (line offset : Nat) :
    skipLayoutFrom false rest line offset = { rest, line, offset, done := false } := by
  cases rest with
  | nil => rfl
  | cons c rest =>
    obtain ⟨hspace, hslash⟩ := h
    rw [isSpace_iff, not_or] at hspace
    rw [skipLayoutFrom, if_neg hspace.1, if_neg (by decide), if_neg hspace.2, if_neg hslash]

/-- **Layout is skipped up to text that is no layout.** -/
theorem skipLayoutFrom_gap {gap rest : List Char} (h : Gap rest gap) (hrest : NoLayout rest)
    (line offset : Nat) :
    skipLayoutFrom false (gap ++ rest) line offset
      = { rest, line := line + gap.count '\n', offset := offset + byteLength gap,
          done := false } := by
  induction h generalizing line offset with
  | nil => exact skipLayoutFrom_noLayout hrest line offset
  | @space c gap hc _ ih =>
    rw [List.cons_append, skipLayoutFrom]
    by_cases hnewline : c = '\n'
    · subst hnewline
      rw [if_pos rfl, ih, List.count_cons_self, byteLength_cons]
      simp only [Nat.add_assoc, Nat.add_comm 1]
    · have hblank : isBlank c = true := (isSpace_iff.mp hc).resolve_left hnewline
      rw [if_neg hnewline, if_neg (by decide), if_pos hblank, ih,
        List.count_cons_of_ne hnewline, byteLength_cons, Nat.add_assoc]
  | @comment text gap htext hend _ ih =>
    have hopen : '\n' ∉ '/' :: text := by simpa using htext
    rw [List.cons_append, List.cons_append, List.append_assoc, skipLayoutFrom, if_neg (by decide),
      if_neg (by decide), if_neg (by decide), if_pos ⟨rfl, rfl⟩, ← List.cons_append,
      skipLayoutFrom_comment hopen hend, ih]
    simp only [byteLength_cons, byteLength_append, List.count_cons, List.count_append,
      List.count_eq_zero.mpr htext, Nat.add_assoc, Nat.zero_add]
    rfl

theorem skipLayout_between (before : List Char) {gap rest : List Char} (h : Gap rest gap)
    (hrest : NoLayout rest) :
    (between before (gap ++ rest)).skipLayout = between (before ++ gap) rest := by
  rw [skipLayout, between, skipLayoutFrom_gap h hrest, between, List.count_append,
    byteLength_append, Nat.add_assoc]

/-! ## One step -/

/-- Layout in front makes no difference to the next step. -/
theorem advance_gap {before gap rest : List Char} (h : Gap rest gap) (hrest : NoLayout rest) :
    (between before (gap ++ rest)).advance = (between (before ++ gap) rest).advance := by
  have hskip := skipLayout_between before h hrest
  have hstay := skipLayout_between (before ++ gap) .nil hrest
  rw [List.nil_append, List.append_nil] at hstay
  unfold advance
  rw [hskip, hstay]
  rfl

theorem splitToken?_lexeme {before after text : List Char} (h : Lexeme before after text) :
    splitToken? (text ++ after) = some (text, after) := by
  cases h with
  | symbol hc => simp [splitToken?, isSymbol_iff.mpr hc]
  | word hne hall _ hafter =>
    obtain ⟨c, w, rfl⟩ := List.exists_cons_of_ne_nil hne
    have hword : isWordChar c = true := isWordChar_iff.mpr (hall c List.mem_cons_self)
    have hw : ∀ d ∈ w, isWordChar d = true := by
      intro d hd
      exact isWordChar_iff.mpr (hall d (List.mem_cons_of_mem _ hd))
    have hsym : ¬isSymbol c = true := by
      intro hs
      exact not_isWordChar_of_isSymbol (isSymbol_iff.mp hs) (isWordChar_iff.mp hword)
    have hstop : after.takeWhile isWordChar = [] ∧ after.dropWhile isWordChar = after := by
      cases after with
      | nil => exact ⟨rfl, rfl⟩
      | cons d after =>
        have hd : ¬isWordChar d = true := fun h => hafter d rfl (isWordChar_iff.mp h)
        simp [hd]
    rw [List.cons_append, splitToken?, if_neg hsym, if_pos hword,
      List.takeWhile_append_of_pos hw, List.dropWhile_append_of_pos hw, hstop.1, hstop.2,
      List.append_nil]

/-- **A lexeme in front is the next token.** -/
theorem advance_lexeme {before after text : List Char} (h : Lexeme before after text) :
    (between before (text ++ after)).advance
      = (.ok (some (tokenAt before text)), between (before ++ text) after) := by
  have hskip := skipLayout_between before .nil h.noLayout
  have hsplit := splitToken?_lexeme h
  have hcount : text.count '\n' = 0 := List.count_eq_zero.mpr h.newline_notMem
  obtain ⟨c, w, rfl⟩ := List.exists_cons_of_ne_nil h.ne_nil
  rw [List.nil_append, List.append_nil] at hskip
  rw [advance, if_neg (by simp [between]), hskip]
  simp only [between, List.cons_append] at hsplit ⊢
  simp only [hsplit, tokenAt, List.count_append, hcount, Nat.add_zero, byteLength_append]

theorem advance_nil (before : List Char) :
    (between before []).advance
      = (.ok none, { between before [] with done := true }) := rfl

/-- **A stray character in front stops the scanner.** -/
theorem advance_stray {before rest : List Char} {c : Char} (h : IsStray c rest) :
    (between before (c :: rest)).advance
      = (.error (strayAt before c),
          { rest, line := 1 + before.count '\n', offset := byteLength (before ++ [c]),
            done := true }) := by
  obtain ⟨hlayout, hsym, hword⟩ := h
  have hskip := skipLayout_between before .nil hlayout
  have hsplit : splitToken? (c :: rest) = none := by
    rw [splitToken?, if_neg (fun h => hsym (isSymbol_iff.mp h)),
      if_neg (fun h => hword (isWordChar_iff.mp h))]
  rw [List.nil_append, List.append_nil] at hskip
  rw [advance, if_neg (by simp [between]), hskip]
  simp only [between, hsplit, strayAt, byteLength_append, byteLength_cons, byteLength_nil,
    Nat.add_zero]

/-! ## Reading everything -/

/-- Tokens that were read before only stand in front of those that are read. -/
theorem readOnto_append (xs ys : Array Token) (s : Scanner) :
    readOnto (xs ++ ys) s
      = { readOnto ys s with tokens := xs.toList ++ (readOnto ys s).tokens } := by
  fun_induction readOnto ys s with
  | case1 ys s t s' hadv ih =>
    rw [readOnto, hadv]
    simpa only [Array.append_push] using ih
  | case2 ys s s' hadv =>
    rw [readOnto, hadv]
    simp only [Array.toList_append]
  | case3 ys s e s' hadv =>
    rw [readOnto, hadv]
    simp only [Array.toList_append]

/-- **A token that is read comes before all that are read after it.** -/
theorem readAll_of_token {s s' : Scanner} {t : Token} (h : s.advance = (.ok (some t), s')) :
    s.readAll = { s'.readAll with tokens := t :: s'.readAll.tokens } := by
  rw [readAll, readOnto, h]
  exact readOnto_append #[t] #[] s'

theorem readAll_of_end {s s' : Scanner} (h : s.advance = (.ok none, s')) :
    s.readAll = { tokens := [], failure := none, final := s' } := by
  rw [readAll, readOnto, h]

theorem readAll_of_error {s s' : Scanner} {e : SyntaxError} (h : s.advance = (.error e, s')) :
    s.readAll = { tokens := [], failure := some e, final := s' } := by
  rw [readAll, readOnto, h]

/-- Layout in front makes no difference to what is read. -/
theorem readAll_gap {before gap rest : List Char} (h : Gap rest gap) (hrest : NoLayout rest) :
    (between before (gap ++ rest)).readAll = (between (before ++ gap) rest).readAll := by
  rw [readAll, readOnto, advance_gap h hrest, readAll, readOnto]

/-- **The tokens of a tiling are read, and then what the tiling leaves.** -/
theorem readAll_of_tiling {before text rest : List Char} {tokens : List Token}
    (h : Tiling before text tokens rest) (hrest : NoLayout rest) :
    ∃ front, text = front ++ rest ∧ (between before text).readAll
      = { (between (before ++ front) rest).readAll with
          tokens := tokens ++ (between (before ++ front) rest).readAll.tokens } := by
  induction h with
  | @stop before gap rest hgap => exact ⟨gap, rfl, readAll_gap hgap hrest⟩
  | @token before gap lexeme ahead rest tokens hgap hlex _ ih =>
    obtain ⟨front, rfl, hread⟩ := ih hrest
    refine ⟨gap ++ lexeme ++ front, by simp only [List.append_assoc], ?_⟩
    rw [List.append_assoc gap, readAll_gap hgap hlex.noLayout,
      readAll_of_token (advance_lexeme hlex), hread]
    simp only [List.append_assoc, List.cons_append]

/-- **The scanner finds the tokenization of a text.** -/
theorem readAll_of_tokenization {source : List Char} {scan : Scan}
    (h : Tokenization source scan) : (between [] source).readAll = scan := by
  cases h with
  | whole htiling =>
    obtain ⟨front, rfl, hread⟩ := readAll_of_tiling htiling trivial
    rw [hread, readAll_of_end (advance_nil _)]
    simp only [List.append_nil, List.nil_append]
    rfl
  | @stray tokens before rest c hsource htiling hstray =>
    obtain ⟨front, hfront, hread⟩ := readAll_of_tiling htiling hstray.1
    have hbefore : front = before := List.append_cancel_right (hfront.symm.trans hsource)
    subst hbefore
    rw [hread, List.nil_append, readAll_of_error (advance_stray hstray)]
    simp only [List.append_nil]

/-- Every text has a tokenization. -/
theorem exists_tokenization (source : List Char) : ∃ scan, Tokenization source scan := by
  obtain ⟨tokens, rest, htiling, hend⟩ := exists_tiling [] source (boundary_nil source)
  rcases hend with rfl | ⟨c, cs, rfl, hstray⟩
  · exact ⟨_, .whole htiling⟩
  · obtain ⟨before, hsource⟩ := htiling.exists_front
    exact ⟨_, .stray hsource htiling hstray⟩

/-- **What the scanner finds is the tokenization of the text.** -/
theorem tokenization_readAll (source : String) :
    Tokenization source.toList (ofSource source).readAll := by
  obtain ⟨scan, h⟩ := exists_tokenization source.toList
  rw [ofSource_eq, readAll_of_tokenization h]
  exact h

/-! ## How a scan ends -/

theorem lineAt_size (source : String) :
    lineAt source source.utf8ByteSize = 1 + source.toList.count '\n' := by
  have h := lineAt_ofList source.toList []
  rwa [List.append_nil, ← utf8ByteSize_ofList, String.ofList_toList] at h

/-- **A scan without an error tiles the whole text, and ends on the line behind its last
newline.** -/
theorem tiling_readAll {source : String} (h : (ofSource source).readAll.failure = none) :
    Tiling [] source.toList (ofSource source).readAll.tokens [] ∧
      (ofSource source).readAll.final
        = { rest := [], line := lineAt source source.utf8ByteSize, offset := source.utf8ByteSize,
            done := true } := by
  have hscan := tokenization_readAll source
  -- the scan is the index of the relation, so it is made a variable before the cases
  generalize (ofSource source).readAll = scan at h hscan ⊢
  cases hscan with
  | whole htiling =>
    refine ⟨htiling, ?_⟩
    rw [lineAt_size, ← utf8ByteSize_ofList, String.ofList_toList]
  | stray _ _ _ => cases h

/-- **A scan with an error tiles the text up to a stray character, and the error points there.** -/
theorem exists_stray_readAll {source : String} {e : SyntaxError}
    (h : (ofSource source).readAll.failure = some e) :
    ∃ before c rest, source.toList = before ++ c :: rest ∧
      Tiling [] source.toList (ofSource source).readAll.tokens (c :: rest) ∧ IsStray c rest ∧
      e = { cause := .strayByte (leadByte c), line := lineAt source (byteLength before),
            span := { start := byteLength before, stop := byteLength (before ++ [c]) } } := by
  have hscan := tokenization_readAll source
  generalize (ofSource source).readAll = scan at h hscan ⊢
  cases hscan with
  | whole _ => cases h
  | @stray tokens before rest c hsource htiling hstray =>
    cases h
    refine ⟨before, c, rest, hsource, htiling, hstray, ?_⟩
    have hline := lineAt_ofList before (c :: rest)
    rw [← hsource, String.ofList_toList] at hline
    rw [hline]
    rfl

/-! ## Places in the bytes of the text -/

/-- A token is a piece of the text, and stands there at the offset and line that it carries. -/
structure StandsIn (source : String) (t : Token) : Prop where
  value_ne : t.value ≠ ""
  fits : Fits source t.span
  slice_eq : slice source t.span = t.value.toByteArray
  line_eq : t.line = lineAt source t.offset

/-- **Every token that is read stands in the text.** -/
theorem standsIn_of_mem_readAll {source : String} {t : Token}
    (ht : t ∈ (ofSource source).readAll.tokens) : StandsIn source t := by
  obtain ⟨rest, htiling⟩ :
      ∃ rest, Tiling [] source.toList (ofSource source).readAll.tokens rest := by
    cases hfailure : (ofSource source).readAll.failure with
    | none => exact ⟨[], (tiling_readAll hfailure).1⟩
    | some e =>
      obtain ⟨_, c, rest, -, htiling, -⟩ := exists_stray_readAll hfailure
      exact ⟨c :: rest, htiling⟩
  obtain ⟨before, lexeme, after, hsource, hlex, rfl⟩ := htiling.exists_tokenAt t ht
  have hsource : source = String.ofList (before ++ lexeme ++ after) := by
    rw [← hsource, String.ofList_toList]
  have hspan : (tokenAt ([] ++ before) lexeme).span
      = { start := byteLength before, stop := byteLength (before ++ lexeme) } := by
    simp only [Token.span, tokenAt, List.nil_append, utf8ByteSize_ofList, byteLength_append]
  refine ⟨fun h => hlex.ne_nil (String.ofList_eq_empty_iff.mp h), ?_, ?_, ?_⟩
  · rw [hspan, hsource]
    exact fits_ofList before lexeme after
  · rw [hspan, hsource]
    exact slice_ofList before lexeme after
  · rw [hsource, List.append_assoc]
    exact (lineAt_ofList before (lexeme ++ after)).symm

/-! ## The scanner and the tokenization -/

/-- **Scanning is cutting the text into tokens.** What is read is the one tokenization of the text,
and every token is the piece of the text at its offset, on its line. The end is met exactly if the
text is tiled as a whole, and is then the place behind its last byte. Otherwise the text is tiled up
to the first character that is neither layout nor part of a lexeme, and the error points there. -/
theorem readAll_eq_iff (source : String) :
    (∀ scan, (ofSource source).readAll = scan ↔ Tokenization source.toList scan) ∧
      (∀ t ∈ (ofSource source).readAll.tokens, StandsIn source t) ∧
      ((ofSource source).readAll.failure = none ↔
        ∃ tokens, Tiling [] source.toList tokens []) ∧
      ((ofSource source).readAll.failure = none →
        (ofSource source).readAll.final.remainder = "" ∧
          (ofSource source).readAll.final.endToken
            = { value := "", line := lineAt source source.utf8ByteSize,
                offset := source.utf8ByteSize }) ∧
      (∀ e, (ofSource source).readAll.failure = some e →
        ∃ before c rest, source.toList = before ++ c :: rest ∧
          Tiling [] source.toList (ofSource source).readAll.tokens (c :: rest) ∧
          IsStray c rest ∧
          e = { cause := .strayByte (leadByte c), line := lineAt source (byteLength before),
                span := { start := byteLength before, stop := byteLength (before ++ [c]) } }) := by
  refine ⟨fun scan => ⟨?_, ?_⟩, fun t => standsIn_of_mem_readAll, ⟨?_, ?_⟩, ?_, fun e =>
    exists_stray_readAll⟩
  · rintro rfl
    exact tokenization_readAll source
  · intro h
    rw [ofSource_eq, readAll_of_tokenization h]
  · exact fun h => ⟨_, (tiling_readAll h).1⟩
  · rintro ⟨tokens, htiling⟩
    rw [ofSource_eq, readAll_of_tokenization (.whole htiling)]
  · intro h
    rw [(tiling_readAll h).2]
    exact ⟨rfl, rfl⟩

example :
    ((ofSource "a//;\n/").readAll.tokens, (ofSource "a//;\n/").readAll.failure)
      = ([{ value := "a", line := 1, offset := 0 }],
          some { cause := .strayByte 0x2f, line := 2, span := { start := 5, stop := 6 } }) := by
  decide +kernel

end ProtoSchema.Scanner
