import ProtoSchema.Proofs.Token.Lookahead

/-!
# The order of tokens

The tokens of a text stand one behind the other, and what comes behind the last of them, the end of
the text or a stray character, stands behind them all.

Main statements: `pairwise_readAll` and `stop_le_endingOffset`. So a token is known by its span
(`split_eq_of_span_eq`).
-/

namespace ProtoSchema

open Scanner Text

/-! ## Tilings -/

/-- **The tokens of a tiling stand in the part of the text that is tiled.** -/
theorem Tiling.exists_front_le {before text rest : List Char} {tokens : List Token}
    (h : Tiling before text tokens rest) :
    ∃ front, text = front ++ rest ∧ ∀ t ∈ tokens,
      byteLength before ≤ t.offset ∧ t.span.stop ≤ byteLength (before ++ front) := by
  induction h with
  | @stop before gap rest _ => exact ⟨gap, rfl, by simp⟩
  | @token before gap lexeme ahead rest tokens _ _ _ ih =>
    obtain ⟨front, rfl, hle⟩ := ih
    refine ⟨gap ++ lexeme ++ front, by rw [List.append_assoc (gap ++ lexeme)], ?_⟩
    rw [List.forall_mem_cons]
    constructor
    · simp only [Token.span, tokenAt, utf8ByteSize_ofList, byteLength_append]
      omega
    · intro t ht
      have := hle t ht
      simp only [byteLength_append] at this ⊢
      omega

/-- **The tokens of a tiling stand one behind the other.** -/
theorem Tiling.pairwise {before text rest : List Char} {tokens : List Token}
    (h : Tiling before text tokens rest) :
    tokens.Pairwise fun t u => t.span.stop ≤ u.offset := by
  induction h with
  | stop _ => exact .nil
  | @token before gap lexeme ahead rest tokens _ _ htiling ih =>
    obtain ⟨front, -, hle⟩ := htiling.exists_front_le
    refine List.pairwise_cons.mpr ⟨?_, ih⟩
    intro u hu
    calc (tokenAt (before ++ gap) lexeme).span.stop
        = byteLength (before ++ gap ++ lexeme) := by
          simp only [Token.span, tokenAt, utf8ByteSize_ofList, byteLength_append]
      _ ≤ u.offset := (hle u hu).1

/-! ## Scans -/

/-- The end of a text as a token. -/
def Token.endOf (source : String) : Token :=
  { value := "", line := lineAt source source.utf8ByteSize, offset := source.utf8ByteSize }

namespace Scanner

/-- Without a stray character, the end of the text comes behind the last token. -/
theorem ending_eq_endOf {source : String} (h : (ofSource source).readAll.failure = none) :
    (ofSource source).readAll.ending = .ok (.endOf source) := by
  rw [Scan.ending, h]
  show Except.ok (ofSource source).readAll.final.endToken = _
  rw [(tiling_readAll h).2]
  rfl

/-- The offset of what comes behind the last token. -/
def endingOffset : Except SyntaxError Token → Nat
  | .ok last => last.offset
  | .error e => e.span.start

/-- The tokens of a scan tile the text up to what ends it. -/
theorem exists_tiling_ending (source : String) :
    ∃ front rest, source.toList = front ++ rest ∧
      Tiling [] source.toList (ofSource source).readAll.tokens rest ∧
        endingOffset (ofSource source).readAll.ending = byteLength front := by
  cases hfailure : (ofSource source).readAll.failure with
  | none =>
    have htiling := (tiling_readAll hfailure).1
    refine ⟨source.toList, [], by rw [List.append_nil], htiling, ?_⟩
    rw [ending_eq_endOf hfailure, ← utf8ByteSize_ofList, String.ofList_toList]
    rfl
  | some e =>
    obtain ⟨before, c, rest, hsource, htiling, -, rfl⟩ := exists_stray_readAll hfailure
    refine ⟨before, c :: rest, hsource, htiling, ?_⟩
    rw [Scan.ending, hfailure]
    rfl

/-- **The tokens of a text stand one behind the other.** -/
theorem pairwise_readAll (source : String) :
    (ofSource source).readAll.tokens.Pairwise fun t u => t.span.stop ≤ u.offset := by
  obtain ⟨_, _, -, htiling, -⟩ := exists_tiling_ending source
  exact htiling.pairwise

/-- **What ends a text stands behind all its tokens.** -/
theorem stop_le_endingOffset {source : String} {t : Token}
    (ht : t ∈ (ofSource source).readAll.tokens) :
    t.span.stop ≤ endingOffset (ofSource source).readAll.ending := by
  obtain ⟨front, rest, hsource, htiling, hending⟩ := exists_tiling_ending source
  obtain ⟨front', hsource', hle⟩ := htiling.exists_front_le
  have hfront : front' = front := List.append_cancel_right (hsource'.symm.trans hsource)
  rw [hending, ← hfront]
  exact (hle t ht).2

theorem StandsIn.offset_lt_stop {source : String} {t : Token} (h : StandsIn source t) :
    t.offset < t.span.stop := by
  have hpos : 0 < t.value.utf8ByteSize := by
    rw [Nat.pos_iff_ne_zero]
    intro hzero
    exact h.value_ne (String.utf8ByteSize_eq_zero_iff.mp hzero)
  exact Nat.lt_add_of_pos_right hpos

/-- The offsets of the tokens of a text increase. -/
theorem pairwise_offset_readAll (source : String) :
    (ofSource source).readAll.tokens.Pairwise fun t u => t.offset < u.offset := by
  refine (pairwise_readAll source).imp_of_mem ?_
  intro t u ht _ hle
  exact Nat.lt_of_lt_of_le (standsIn_of_mem_readAll ht).offset_lt_stop hle

/-- **A place in a text is that of one token only.** -/
theorem split_eq_of_span_eq {source : String} {earlier earlier' later later' : List Token}
    {t t' : Token} (h : (ofSource source).readAll.tokens = earlier ++ t :: later)
    (h' : (ofSource source).readAll.tokens = earlier' ++ t' :: later') (hspan : t.span = t'.span) :
    earlier = earlier' ∧ t = t' := by
  -- a token behind another one begins where the other one has ended
  have hbehind : ∀ {front mid back : List Token} {u u' : Token},
      (ofSource source).readAll.tokens = front ++ u :: (mid ++ u' :: back) →
        u.offset < u'.offset := by
    intro front mid back u u' hsplit
    have hu : u ∈ (ofSource source).readAll.tokens := by
      rw [hsplit]
      simp
    have horder := pairwise_readAll source
    rw [hsplit, List.pairwise_append, List.pairwise_cons] at horder
    exact Nat.lt_of_lt_of_le (standsIn_of_mem_readAll hu).offset_lt_stop
      (horder.2.1.1 u' (by simp))
  have hoffset : t.offset = t'.offset := congrArg Span.start hspan
  rcases List.append_eq_append_iff.mp (h.symm.trans h') with ⟨mid, rfl, hmid⟩ | ⟨mid, rfl, hmid⟩
  · cases mid with
    | nil => exact ⟨(List.append_nil _).symm, (List.cons.inj hmid).1⟩
    | cons u mid =>
      obtain ⟨rfl, rfl⟩ := List.cons.inj hmid
      exact absurd hoffset (Nat.ne_of_lt (hbehind h))
  · cases mid with
    | nil => exact ⟨List.append_nil _, (List.cons.inj hmid).1.symm⟩
    | cons u mid =>
      obtain ⟨rfl, rfl⟩ := List.cons.inj hmid
      exact absurd hoffset (Nat.ne_of_gt (hbehind h'))

end Scanner

end ProtoSchema
