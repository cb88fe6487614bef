import ProtoSchema.Compilation
import ProtoSchema.Proofs.Declaration.Drive

/-!
# Where errors point

Every error of a text points into that text: at the character or token at fault, or at the end
(`PointsInto`). Three kinds of error have to be looked at, as they are told apart by
`eq_error_of_drive`: a stray character, a token that is not taken, and an end that comes too early.

Main statement: `parse_pointsInto`, for parsing, for the scanner alone, and for files that are added
to a compilation.
-/

namespace ProtoSchema

open Text

/-! ## Errors that point into a text -/

namespace SyntaxError

/-- The token that a cause names. -/
def Cause.found? : Cause → Option String
  | .unexpectedToken _ found => some found
  | .unknownDeclaration found => some found
  | .missingLabel found => some found
  | .badFieldNumber value _ => some value
  | .unknownContent found => some found
  | .strayByte _ => none
  | .unclosedMessage => none
  | .unconsumedInput => none
  | .repeatedPushback => none

/-- The empty span behind the last byte of a text. -/
def endSpan (source : String) : Span :=
  { start := source.utf8ByteSize, stop := source.utf8ByteSize }

/-- The place of an error is in the text, and what the cause says stands there. -/
structure PointsInto (source : String) (e : SyntaxError) : Prop where
  offset_eq : e.offset = e.span.start
  fits : Fits source e.span
  line_eq : e.line = lineAt source e.span.start
  /-- A stray byte is there, and begins the one character of the span. -/
  strayByte : ∀ byte, e.cause = .strayByte byte →
    (∃ h : e.span.start < source.toByteArray.size, source.toByteArray[e.span.start] = byte) ∧
      ∃ c, slice source e.span = (String.singleton c).toByteArray
  /-- A token that is named is there; it is empty only at the end. -/
  found : ∀ text, e.cause.found? = some text →
    slice source e.span = text.toByteArray ∧ (text = "" → e.span = endSpan source)
  unclosedMessage : e.cause = .unclosedMessage → e.span = endSpan source

end SyntaxError

open SyntaxError

/-! ## Stray characters -/

/-- **A scan with an error points at the stray character.** -/
theorem Scanner.pointsInto_readAll {source : String} {e : SyntaxError}
    (h : (ofSource source).readAll.failure = some e) : PointsInto source e := by
  obtain ⟨before, c, rest, hsource, -, -, rfl⟩ := exists_stray_readAll h
  have hsource : source = String.ofList (before ++ c :: rest) := by
    rw [← hsource, String.ofList_toList]
  refine ⟨rfl, ?_, rfl, ?_, ?_, ?_⟩
  · rw [hsource, ← List.singleton_append, ← List.append_assoc]
    exact fits_ofList before [c] rest
  · rintro byte hbyte
    cases hbyte
    refine ⟨?_, c, ?_⟩
    · have hlead := getElem?_ofList before rest c
      rw [← hsource, Array.getElem?_eq_some_iff] at hlead
      exact hlead
    · rw [hsource, ← List.singleton_append, ← List.append_assoc]
      exact slice_ofList before [c] rest
  · intro text htext
    cases htext
  · intro hcause
    cases hcause

/-! ## Tokens -/

/-- A token that stands in the text, or its end. -/
structure Token.PlacedIn (source : String) (t : Token) : Prop where
  fits : Fits source t.span
  line_eq : t.line = lineAt source t.offset
  slice_eq : slice source t.span = t.value.toByteArray
  span_eq : t.value = "" → t.span = endSpan source

theorem Scanner.StandsIn.placedIn {source : String} {t : Token} (h : StandsIn source t) :
    t.PlacedIn source where
  fits := h.fits
  line_eq := h.line_eq
  slice_eq := h.slice_eq
  span_eq := fun heq => absurd heq h.value_ne

/-- The end of a text is placed behind its last byte. -/
theorem placedIn_end (source : String) :
    Token.PlacedIn source
      { value := "", line := lineAt source source.utf8ByteSize,
        offset := source.utf8ByteSize } := by
  have hfits := fits_ofList source.toList [] []
  have hslice := slice_ofList source.toList [] []
  simp only [List.append_nil, ← utf8ByteSize_ofList, String.ofList_toList] at hfits hslice
  exact ⟨hfits, rfl, hslice, fun _ => rfl⟩

/-- **An error at a placed token that it names, or at the end of the text, points into the
text.** -/
theorem pointsInto_errorAt {source : String} {t : Token} {cause : Cause} (ht : t.PlacedIn source)
    (hcause : cause.found? = some t.value ∨ cause = .unclosedMessage ∧ t.value = "") :
    PointsInto source (Declaration.errorAt t cause) where
  offset_eq := rfl
  fits := ht.fits
  line_eq := ht.line_eq
  strayByte := by
    rintro byte (rfl : cause = _)
    rcases hcause with hfound | ⟨hcause, -⟩
    · cases hfound
    · cases hcause
  found := by
    intro text (htext : cause.found? = _)
    rcases hcause with hfound | ⟨rfl, -⟩
    · rw [hfound] at htext
      cases htext
      exact ⟨ht.slice_eq, ht.span_eq⟩
    · cases htext
  unclosedMessage := by
    rintro (rfl : cause = _)
    rcases hcause with hfound | ⟨-, hvalue⟩
    · cases hfound
    · exact ht.span_eq hvalue

/-! ## Parsing -/

namespace Declaration.Stage

/-- A token that is not taken is named by the error. -/
theorem found?_of_step {policy : UnknownContent} {s : Stage} {word : String} {cause : Cause}
    (h : s.step policy word = .error cause) : cause.found? = some word := by
  unfold step take at h
  repeat' split at h
  all_goals
    cases h
    try rfl

/-- An end that comes too early is named by the error, or a message is open. -/
theorem found?_of_atEnd {s : Stage} {cause : Cause} (h : s.atEnd.2 = some cause) :
    cause.found? = some "" ∨ cause = .unclosedMessage := by
  obtain ⟨file, expecting⟩ := s
  cases expecting <;> cases h <;> simp [Cause.found?]

end Declaration.Stage

/-- **What the machine refuses points into the text.** -/
theorem pointsInto_of_drive {policy : UnknownContent} {s : Declaration.Stage} {source : String}
    {file : FileDraft} {e : SyntaxError}
    (h : Declaration.drive policy s (Scanner.ofSource source).readAll.tokens
      (Scanner.ofSource source).readAll.ending = (file, .error e)) : PointsInto source e := by
  rcases Declaration.eq_error_of_drive h with hending | ⟨t, ht, s', cause, hstep, rfl⟩ |
    ⟨last, s', cause, hending, hend, rfl⟩
  · exact Scanner.pointsInto_readAll (Scanner.Scan.failure_of_ending hending)
  · exact pointsInto_errorAt (Scanner.standsIn_of_mem_readAll ht).placedIn
      (Or.inl (Declaration.Stage.found?_of_step hstep))
  · obtain ⟨hfailure, rfl⟩ := Scanner.Scan.failure_of_ending_ok hending
    rw [(Scanner.tiling_readAll hfailure).2]
    refine pointsInto_errorAt (placedIn_end source) ?_
    exact (Declaration.Stage.found?_of_atEnd hend).imp id fun h => ⟨h, rfl⟩

theorem pointsInto_of_parse {policy : UnknownContent} {name source : String} {e : SyntaxError}
    (h : parse policy name source = .error e) : PointsInto source e := by
  obtain ⟨file, hdrive⟩ := Declaration.parse_eq_error_iff_drive.mp h
  exact pointsInto_of_drive hdrive

/-- The byte that the scanner looks up for a stray character is inside the text. -/
theorem Scanner.lookup_readAll {source : String} {e : SyntaxError}
    (h : (ofSource source).readAll.failure = some e) :
    ∃ h : e.span.start < source.toByteArray.size,
      e.cause = .strayByte source.toByteArray[e.span.start] := by
  have hplace := pointsInto_readAll h
  obtain ⟨before, c, rest, -, -, -, rfl⟩ := exists_stray_readAll h
  obtain ⟨⟨hlt, hbyte⟩, -⟩ := hplace.strayByte _ rfl
  exact ⟨hlt, by rw [hbyte]⟩

/-- A file whose text is refused is labelled inside its text. -/
theorem labels_of_addFile {c c' : Compilation} {name : String} {file : SourceFile}
    {err : CompileError} (hopen : c.resolver.openFile name = .ok file)
    (h : Compilation.addFile name c = .error err c') :
    err.sourceText? = some file.content ∧
      ∃ span, err.labels = [("found here", span)] ∧ Fits file.content span := by
  unfold Compilation.addFile at h
  rw [hopen] at h
  dsimp only at h
  split at h
  · next e cursor hfile =>
    cases h
    have hparse : parse c.policy name file.content = .error e := by
      simp only [parse, show Declaration.file c.policy name _ = _ from hfile]
    exact ⟨rfl, e.span, rfl, (pointsInto_of_parse hparse).fits⟩
  · cases h

/-- **Every error points at the right place.** An error of parsing has its place in the text, at
what its cause names. The byte that the scanner looks up for an error is never out of bounds, and a
file that is added to a compilation and refused is labelled inside its own text. -/
theorem parse_pointsInto (source : String) :
    (∀ policy name e, parse policy name source = .error e → PointsInto source e) ∧
      (∀ e, (Scanner.ofSource source).readAll.failure = some e →
        ∃ h : e.span.start < source.toByteArray.size,
          e.cause = .strayByte source.toByteArray[e.span.start]) ∧
      ∀ (c c' : Compilation) name file err, c.resolver.openFile name = .ok file →
        file.content = source → Compilation.addFile name c = .error err c' →
          err.sourceText? = some source ∧
            ∃ span, err.labels = [("found here", span)] ∧ Fits source span := by
  refine ⟨fun policy name e => pointsInto_of_parse, fun e => Scanner.lookup_readAll, ?_⟩
  rintro c c' name file err hopen rfl h
  exact labels_of_addFile hopen h

end ProtoSchema
