import ProtoSchema.Proofs.Token.Insertion

/-!
# Blanking out tokens

Tokens of a text may be overwritten by spaces (`blank`). A token is as many characters as bytes, so
nothing behind it is moved: the other tokens are found where they were, and the text ends as it did.

What stands in front of a place matters to the scanner only by its size, its newlines and its last
character (`InPlaceOf`). Layout in front of a token leaves no comment open (`Gap.layout`), so it may
go on with spaces.

Main statement: `readAll_blank`.
-/

namespace ProtoSchema

open Scanner Text

/-! ## Overwriting characters -/

/-- The byte at an offset is one of the token. -/
def Token.Covers (t : Token) (offset : Nat) : Prop :=
  t.span.start ≤ offset ∧ offset < t.span.stop

instance (t : Token) (offset : Nat) : Decidable (t.Covers offset) :=
  inferInstanceAs (Decidable (_ ∧ _))

/-- The characters that stand from an offset on, with spaces where one of the tokens stands. -/
def blankFrom (ts : List Token) (offset : Nat) : List Char → List Char
  | [] => []
  | c :: cs =>
    (if ∃ t ∈ ts, t.Covers offset then ' ' else c) :: blankFrom ts (offset + c.utf8Size) cs

/-- The text with each of the tokens overwritten by spaces. -/
def blank (ts : List Token) (source : String) : String :=
  String.ofList (blankFrom ts 0 source.toList)

theorem blankFrom_append (ts : List Token) (offset : Nat) (xs ys : List Char) :
    blankFrom ts offset (xs ++ ys)
      = blankFrom ts offset xs ++ blankFrom ts (offset + byteLength xs) ys := by
  induction xs generalizing offset with
  | nil => rfl
  | cons c xs ih =>
    rw [List.cons_append, blankFrom, ih, byteLength_cons, ← Nat.add_assoc]
    rfl

/-- Text in which none of the tokens stands is kept. -/
theorem blankFrom_eq_self {ts : List Token} {offset : Nat} {cs : List Char}
    (h : ∀ t ∈ ts, t.span.stop ≤ offset ∨ offset + byteLength cs ≤ t.span.start) :
    blankFrom ts offset cs = cs := by
  induction cs generalizing offset with
  | nil => rfl
  | cons c cs ih =>
    have hpos := c.utf8Size_pos
    have hnone : ¬∃ t ∈ ts, t.Covers offset := by
      rintro ⟨t, ht, hstart, hstop⟩
      have := h t ht
      rw [byteLength_cons] at this
      omega
    rw [blankFrom, if_neg hnone, ih]
    intro t ht
    have := h t ht
    rw [byteLength_cons] at this
    omega

/-- Text of one of the tokens is overwritten. -/
theorem blankFrom_eq_replicate {ts : List Token} {offset : Nat} {cs : List Char} {t : Token}
    (ht : t ∈ ts) (hstart : t.span.start ≤ offset)
    (hstop : offset + byteLength cs ≤ t.span.stop) :
    blankFrom ts offset cs = List.replicate cs.length ' ' := by
  induction cs generalizing offset with
  | nil => rfl
  | cons c cs ih =>
    have hpos := c.utf8Size_pos
    rw [byteLength_cons] at hstop
    have hcovers : ∃ t ∈ ts, t.Covers offset := ⟨t, ht, hstart, by omega⟩
    rw [blankFrom, if_pos hcovers, ih (by omega) (by omega)]
    rfl

theorem head?_blankFrom {ts : List Token} {offset : Nat} {cs : List Char} {c : Char}
    (hc : c ∈ (blankFrom ts offset cs).head?) : c = ' ' ∨ c ∈ cs.head? := by
  cases cs with
  | nil => cases hc
  | cons d cs =>
    rw [blankFrom, List.head?_cons, Option.mem_def, Option.some.injEq] at hc
    subst hc
    split
    · exact Or.inl rfl
    · exact Or.inr rfl

/-! ## Characters of tokens -/

theorem utf8Size_of_isWordChar {c : Char} (h : IsWordChar c) : c.utf8Size = 1 := by
  rw [Char.utf8Size_eq_one_iff]
  rcases h with ⟨-, h⟩ | ⟨-, h⟩ | ⟨-, h⟩ | h
  · exact UInt32.le_trans h (by decide)
  · exact UInt32.le_trans h (by decide)
  · exact UInt32.le_trans h (by decide)
  · simp only [List.mem_cons, List.not_mem_nil, or_false] at h
    rcases h with rfl | rfl | rfl | rfl <;> decide

theorem utf8Size_of_isSymbol {c : Char} (h : IsSymbol c) : c.utf8Size = 1 := by
  simp only [IsSymbol, List.mem_cons, List.not_mem_nil, or_false] at h
  rcases h with rfl | rfl | rfl | rfl <;> rfl

/-- **A lexeme is as many characters as bytes.** -/
theorem Lexeme.byteLength_eq {before after text : List Char} (h : Lexeme before after text) :
    byteLength text = text.length := by
  have hsize : ∀ c ∈ text, c.utf8Size = 1 := by
    cases h with
    | symbol hc => simpa using utf8Size_of_isSymbol hc
    | word _ hall _ _ => exact fun c hc => utf8Size_of_isWordChar (hall c hc)
  clear h
  induction text with
  | nil => rfl
  | cons c text ih =>
    rw [List.forall_mem_cons] at hsize
    rw [byteLength_cons, hsize.1, ih hsize.2, List.length_cons, Nat.add_comm]

/-! ## What stands in front -/

/-- A text that may stand in place of another in front of a token: it has the same size and as many
newlines, and ends with a word character only where the other ends with the same. -/
structure InPlaceOf (front' front : List Char) : Prop where
  byteLength_eq : byteLength front' = byteLength front
  count_eq : front'.count '\n' = front.count '\n'
  getLast_eq : ∀ c ∈ front'.getLast?, IsWordChar c → c ∈ front.getLast?

theorem InPlaceOf.refl (front : List Char) : InPlaceOf front front :=
  ⟨rfl, rfl, fun _ hc _ => hc⟩

theorem InPlaceOf.append {front front' : List Char} (h : InPlaceOf front' front)
    (text : List Char) : InPlaceOf (front' ++ text) (front ++ text) := by
  refine ⟨?_, ?_, ?_⟩
  · rw [byteLength_append, byteLength_append, h.byteLength_eq]
  · rw [List.count_append, List.count_append, h.count_eq]
  · intro c hc hword
    rw [List.getLast?_append] at hc ⊢
    cases hlast : text.getLast? with
    | none =>
      rw [hlast] at hc
      exact h.getLast_eq c hc hword
    | some d =>
      rw [hlast] at hc
      exact hc

/-- Spaces may stand in place of a token. -/
theorem InPlaceOf.spaces {front front' before after lexeme : List Char}
    (h : InPlaceOf front' front) (hlex : Lexeme before after lexeme) :
    InPlaceOf (front' ++ List.replicate lexeme.length ' ') (front ++ lexeme) := by
  have hspaces : ∀ n, byteLength (List.replicate n ' ') = n := by
    intro n
    induction n with
    | zero => rfl
    | succ n ih =>
      rw [List.replicate_succ, byteLength_cons, ih]
      exact Nat.add_comm ..
  refine ⟨?_, ?_, ?_⟩
  · rw [byteLength_append, byteLength_append, h.byteLength_eq, hspaces, hlex.byteLength_eq]
  · rw [List.count_append, List.count_append, h.count_eq,
      List.count_eq_zero.mpr hlex.newline_notMem, List.count_replicate]
    rfl
  · intro c hc hword
    obtain ⟨n, hn⟩ := Nat.exists_eq_succ_of_ne_zero
      (fun hzero => hlex.ne_nil (List.length_eq_zero_iff.mp hzero))
    rw [hn, List.replicate_succ', ← List.append_assoc, List.getLast?_concat] at hc
    cases hc
    exact absurd hword (by decide)

theorem InPlaceOf.tokenAt_eq {front front' : List Char} (h : InPlaceOf front' front)
    (text : List Char) : tokenAt front' text = tokenAt front text := by
  rw [tokenAt, tokenAt, h.byteLength_eq, h.count_eq]

theorem InPlaceOf.strayAt_eq {front front' : List Char} (h : InPlaceOf front' front) (c : Char) :
    strayAt front' c = strayAt front c := by
  rw [strayAt, strayAt, byteLength_append, byteLength_append, h.byteLength_eq, h.count_eq]

/-- A lexeme stays one behind a text that may stand in place of the one before it. -/
theorem Lexeme.of_inPlaceOf {before before' after text : List Char}
    (h : Lexeme before after text) (hbefore : InPlaceOf before' before) :
    Lexeme before' after text := by
  cases h with
  | symbol hc => exact .symbol hc
  | word hne hall hlast hafter =>
    refine .word hne hall ?_ hafter
    exact fun c hc hword => hlast c (hbefore.getLast_eq c hc hword) hword

/-! ## Tilings -/

/-- **Layout in front of a token leaves no comment open.** -/
theorem Gap.layout {gap after : List Char} (h : Gap after gap) (hne : after ≠ [])
    (hafter : NoLayout after) : Layout gap := by
  induction h with
  | nil => exact .nil
  | space hc _ ih => exact .space hc ih
  | @comment text gap htext hend _ ih =>
    cases gap with
    | nil =>
      obtain ⟨d, after, rfl⟩ := List.exists_cons_of_ne_nil hne
      exact absurd (hend d rfl ▸ by decide) hafter.1
    | cons d gap =>
      obtain rfl : d = '\n' := hend d rfl
      cases ih with
      | space _ hgap => exact .comment htext hgap

theorem layout_spaces (n : Nat) : Layout (List.replicate n ' ') := by
  induction n with
  | zero => exact .nil
  | succ n ih => exact .space (by decide) ih

/-- A token that is kept. -/
theorem Tiling.token_of_inPlaceOf {before before' gap lexeme ahead ahead' rest : List Char}
    {tokens : List Token} (hgap : Gap (lexeme ++ ahead) gap)
    (hlex : Lexeme (before ++ gap) ahead lexeme) (hbefore : InPlaceOf before' before)
    (hhead : ∀ c ∈ ahead'.head?, c = ' ' ∨ c ∈ ahead.head?)
    (h : Tiling (before' ++ gap ++ lexeme) ahead' tokens rest) :
    Tiling before' (gap ++ lexeme ++ ahead') (tokenAt (before ++ gap) lexeme :: tokens) rest := by
  have hb : Boundary (before ++ gap ++ lexeme) ahead' := by
    intro c hc d hd hword
    rcases hhead d hd with rfl | hd
    · exact absurd hword (by decide)
    · exact hlex.boundary c hc d hd hword
  rw [← (hbefore.append gap).tokenAt_eq lexeme]
  refine .token (hgap.of_head ?_) ((hlex.of_boundary hb).of_inPlaceOf (hbefore.append gap)) h
  obtain ⟨d, cs, rfl⟩ := List.exists_cons_of_ne_nil hlex.ne_nil
  exact fun c hc => Or.inr hc

/-- A token that is blanked out becomes layout. -/
theorem Tiling.prepend_spaces {before before' gap lexeme ahead ahead' rest : List Char} {n : Nat}
    {tokens : List Token} (hgap : Gap (lexeme ++ ahead) gap) (hlex : Lexeme before ahead lexeme)
    (h : Tiling (before' ++ gap ++ List.replicate n ' ') ahead' tokens rest) :
    Tiling before' (gap ++ List.replicate n ' ' ++ ahead') tokens rest := by
  have hlayout : Layout gap :=
    hgap.layout (fun hnil => hlex.ne_nil (List.append_eq_nil_iff.mp hnil).1) hlex.noLayout
  have hspaces : Gap ahead' (List.replicate n ' ') := (layout_spaces n).gap ahead'
  rw [List.append_assoc] at h
  exact h.prepend_gap (hlayout.append_gap hspaces) fun c hc => Or.inr hc

/-- Blanking out a gap and a token: the gap is kept, and the token unless it is blanked out. -/
theorem blankFrom_token {before gap lexeme : List Char} {ts : List Token} (ahead : List Char)
    (hts : ∀ t ∈ ts, t = tokenAt (before ++ gap) lexeme ∨
      byteLength (before ++ gap ++ lexeme) ≤ t.span.start ∨ t.span.stop ≤ byteLength before) :
    blankFrom ts (byteLength before) (gap ++ lexeme ++ ahead)
      = gap ++ (if tokenAt (before ++ gap) lexeme ∈ ts then List.replicate lexeme.length ' '
          else lexeme) ++ blankFrom ts (byteLength (before ++ gap ++ lexeme)) ahead := by
  have hstart : (tokenAt (before ++ gap) lexeme).span.start = byteLength before + byteLength gap :=
    byteLength_append ..
  have hstop : (tokenAt (before ++ gap) lexeme).span.stop
      = byteLength before + byteLength gap + byteLength lexeme := by
    simp only [Token.span, tokenAt, utf8ByteSize_ofList, byteLength_append]
  have hbehind : byteLength (before ++ gap ++ lexeme)
      = byteLength before + byteLength gap + byteLength lexeme := by
    rw [byteLength_append, byteLength_append]
  have hgap : blankFrom ts (byteLength before) gap = gap := by
    refine blankFrom_eq_self fun t ht => ?_
    rcases hts t ht with rfl | hle | hle <;> omega
  have hlexeme : blankFrom ts (byteLength before + byteLength gap) lexeme
      = if tokenAt (before ++ gap) lexeme ∈ ts then List.replicate lexeme.length ' '
        else lexeme := by
    split
    · next hmem =>
      exact blankFrom_eq_replicate hmem (Nat.le_of_eq hstart) (Nat.le_of_eq hstop.symm)
    · next hmem =>
      refine blankFrom_eq_self fun t ht => ?_
      rcases hts t ht with rfl | hle | hle
      · exact absurd ht hmem
      · omega
      · omega
  rw [blankFrom_append, blankFrom_append, hgap, hlexeme, hbehind, byteLength_append, Nat.add_assoc]

/-- **A text is tiled by the tokens that are not blanked out**, up to where it was tiled before. -/
theorem Tiling.exists_blank {before before' text rest : List Char} {tokens ts : List Token}
    (h : Tiling before text tokens rest) (hbefore : InPlaceOf before' before)
    (hts : ∀ t ∈ ts, t ∈ tokens ∨ t.span.stop ≤ byteLength before) :
    ∃ front front', text = front ++ rest ∧
      blankFrom ts (byteLength before) text = front' ++ rest ∧
      InPlaceOf (before' ++ front') (before ++ front) ∧
      Tiling before' (front' ++ rest) (tokens.filter fun t => t ∉ ts) rest := by
  induction h generalizing before' with
  | @stop before gap rest hgap =>
    refine ⟨gap, gap, rfl, blankFrom_eq_self ?_, hbefore.append gap, .stop hgap⟩
    intro t ht
    exact Or.inl ((hts t ht).resolve_left List.not_mem_nil)
  | @token before gap lexeme ahead rest tokens hgap hlex htiling ih =>
    obtain ⟨_, -, hbehind⟩ := htiling.exists_front_le
    have hts' : ∀ t ∈ ts, t ∈ tokens ∨ t.span.stop ≤ byteLength (before ++ gap ++ lexeme) := by
      intro t ht
      rcases hts t ht with hmem | hle
      · refine (List.mem_cons.mp hmem).symm.imp id ?_
        rintro rfl
        simp only [Token.span, tokenAt, utf8ByteSize_ofList, byteLength_append, Nat.le_refl]
      · refine Or.inr (Nat.le_trans hle ?_)
        rw [List.append_assoc, byteLength_append]
        exact Nat.le_add_right ..
    have hcases : ∀ t ∈ ts, t = tokenAt (before ++ gap) lexeme ∨
        byteLength (before ++ gap ++ lexeme) ≤ t.span.start ∨ t.span.stop ≤ byteLength before := by
      intro t ht
      rcases hts t ht with hmem | hle
      · exact (List.mem_cons.mp hmem).imp id fun hmem => Or.inl (hbehind t hmem).1
      · exact Or.inr (Or.inr hle)
    rw [blankFrom_token ahead hcases]
    by_cases hmem : tokenAt (before ++ gap) lexeme ∈ ts
    · obtain ⟨front, front', rfl, hahead, hplace, htiling'⟩ :=
        ih ((hbefore.append gap).spaces hlex) hts'
      refine ⟨gap ++ lexeme ++ front, gap ++ List.replicate lexeme.length ' ' ++ front',
        (List.append_assoc ..).symm, ?_, ?_, ?_⟩
      · rw [if_pos hmem, hahead, List.append_assoc (gap ++ _)]
      · simpa only [List.append_assoc] using hplace
      · rw [List.filter_cons_of_neg (by simpa using hmem), List.append_assoc (gap ++ _)]
        exact htiling'.prepend_spaces hgap hlex
    · obtain ⟨front, front', rfl, hahead, hplace, htiling'⟩ :=
        ih ((hbefore.append gap).append lexeme) hts'
      refine ⟨gap ++ lexeme ++ front, gap ++ lexeme ++ front', (List.append_assoc ..).symm,
        ?_, ?_, ?_⟩
      · rw [if_neg hmem, hahead, List.append_assoc (gap ++ _)]
      · simpa only [List.append_assoc] using hplace
      · rw [List.filter_cons_of_pos (by simpa using hmem), List.append_assoc (gap ++ _)]
        refine htiling'.token_of_inPlaceOf hgap hlex hbefore ?_
        intro c hc
        rw [← hahead] at hc
        exact head?_blankFrom hc

/-! ## Scans -/

/-- **What is left of a text when tokens are blanked out is scanned as before.** The other tokens
are found at their places, and the text ends as it did. -/
theorem readAll_blank {source : String} {ts : List Token}
    (hts : ∀ t ∈ ts, t ∈ (ofSource source).readAll.tokens) :
    (ofSource (blank ts source)).readAll.tokens
        = (ofSource source).readAll.tokens.filter (fun t => t ∉ ts) ∧
      (ofSource (blank ts source)).readAll.ending = (ofSource source).readAll.ending := by
  have hscan := tokenization_readAll source
  have htext : (blank ts source).toList = blankFrom ts 0 source.toList := String.toList_ofList
  rw [ofSource_eq, htext]
  generalize (ofSource source).readAll = scan at hscan hts ⊢
  cases hscan with
  | @whole tokens htiling =>
    obtain ⟨front, front', hfront, hblank, hplace, htiling'⟩ :=
      htiling.exists_blank (.refl []) fun t ht => Or.inl (hts t ht)
    rw [List.append_nil] at hfront htiling'
    rw [byteLength_nil, List.append_nil] at hblank
    rw [hblank, readAll_of_tokenization (.whole htiling')]
    refine ⟨rfl, ?_⟩
    -- the end of a text is an empty token behind it
    subst hfront
    exact congrArg Except.ok (hplace.tokenAt_eq [])
  | @stray tokens before rest c hsource htiling hstray =>
    obtain ⟨front, front', hfront, hblank, hplace, htiling'⟩ :=
      htiling.exists_blank (.refl []) fun t ht => Or.inl (hts t ht)
    obtain rfl : front = before := List.append_cancel_right (hfront.symm.trans hsource)
    rw [byteLength_nil] at hblank
    rw [hblank, readAll_of_tokenization (.stray rfl htiling' hstray)]
    refine ⟨rfl, ?_⟩
    exact congrArg Except.error (hplace.strayAt_eq c)

end ProtoSchema
