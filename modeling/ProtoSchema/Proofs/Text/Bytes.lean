import Mathlib.Data.List.Count
import ProtoSchema.Text.Utf8
import ProtoSchema.Token

/-!
# Places in the bytes of a text

A text is scanned as a list of characters, and every place in it is reported as an offset in bytes.
Here the two are tied together: for a text that is put together from lists of characters, the bytes
at a span (`slice_ofList`), the line of an offset (`lineAt_ofList`) and the byte at an offset
(`getElem?_ofList`) are read off the lists.
-/

namespace ProtoSchema.Text

/-! ## Bytes of a text -/

/-- The bytes of a text at a span. -/
def slice (source : String) (span : Span) : ByteArray :=
  source.toByteArray.extract span.start span.stop

/-- The number of newline bytes. -/
def newlines (bytes : ByteArray) : Nat := bytes.data.toList.count 10

/-- The line of an offset: one more than the newline bytes before it. -/
def lineAt (source : String) (offset : Nat) : Nat :=
  1 + newlines (source.toByteArray.extract 0 offset)

theorem size_utf8Encode (cs : List Char) : cs.utf8Encode.size = byteLength cs := by
  rw [← utf8ByteSize_ofList, ← String.toByteArray_ofList, String.size_toByteArray]

/-! ## Newlines -/

theorem newlines_append (xs ys : ByteArray) : newlines (xs ++ ys) = newlines xs + newlines ys := by
  simp [newlines]

/-- No character but the newline has a newline byte in its UTF-8 form. -/
theorem newline_notMem_utf8EncodeChar {c : Char} (h : c ≠ '\n') :
    10 ∉ String.utf8EncodeChar c := by
  have hne : c.val.toNat ≠ 10 := fun heq => h (Char.toNat_inj.mp heq)
  -- every byte of a longer form is at least 128, and a single byte is the code point
  unfold String.utf8EncodeChar
  dsimp only
  repeat' split
  all_goals
    simp only [List.mem_cons, List.not_mem_nil, or_false, ← UInt8.toNat_inj, UInt8.toNat_ofNat',
      UInt8.reduceToNat]
    omega

/-- **Newline bytes are newline characters.** -/
theorem newlines_utf8Encode (cs : List Char) : newlines cs.utf8Encode = cs.count '\n' := by
  induction cs with
  | nil => rfl
  | cons c cs ih =>
    rw [List.utf8Encode_cons, newlines_append, ih, List.utf8Encode_singleton, List.count_cons,
      Nat.add_comm]
    congr 1
    rw [newlines, List.data_toByteArray]
    by_cases h : c = '\n'
    · subst h
      rfl
    · rw [List.count_eq_zero.mpr (newline_notMem_utf8EncodeChar h), if_neg (by simpa using h)]

/-! ## Texts put together from lists of characters -/

/-- **What stands between two other parts of a text is the slice at its span.** -/
theorem slice_ofList (before text after : List Char) :
    slice (String.ofList (before ++ text ++ after))
        { start := byteLength before, stop := byteLength (before ++ text) }
      = (String.ofList text).toByteArray := by
  simp only [slice, String.toByteArray_ofList, List.utf8Encode_append]
  rw [ByteArray.append_assoc, ByteArray.extract_append]
  rw [ByteArray.extract_eq_empty_iff.mpr (by simp [size_utf8Encode]), ByteArray.empty_append,
    size_utf8Encode, Nat.sub_self, byteLength_append, Nat.add_sub_cancel_left]
  exact ByteArray.extract_append_eq_left (size_utf8Encode text).symm

/-- **The line of an offset counts the newlines before it.** -/
theorem lineAt_ofList (before after : List Char) :
    lineAt (String.ofList (before ++ after)) (byteLength before) = 1 + before.count '\n' := by
  rw [lineAt, String.toByteArray_ofList, List.utf8Encode_append,
    ByteArray.extract_append_eq_left (size_utf8Encode before).symm, newlines_utf8Encode]

/-- **At the offset of a character stands its first byte.** -/
theorem getElem?_ofList (before after : List Char) (c : Char) :
    (String.ofList (before ++ c :: after)).toByteArray.data[byteLength before]?
      = some (leadByte c) := by
  have hsize : before.utf8Encode.data.size = byteLength before := size_utf8Encode before
  rw [String.toByteArray_ofList, List.utf8Encode_append, List.utf8Encode_cons,
    List.utf8Encode_singleton, ByteArray.data_append, ByteArray.data_append, ← hsize,
    Array.getElem?_append_right (Nat.le_refl _), Nat.sub_self, List.data_toByteArray, leadByte]
  obtain ⟨b, bs, hbs⟩ := List.exists_cons_of_ne_nil (@String.utf8EncodeChar_ne_nil c)
  simp only [hbs, List.head_cons]
  rw [Array.getElem?_append_left (by simp)]
  rfl

/-- The end of any front part of a text is a character boundary. -/
theorem isValid_ofList (before after : List Char) :
    (⟨byteLength before⟩ : String.Pos.Raw).IsValid (String.ofList (before ++ after)) := by
  rw [String.Pos.Raw.isValid_iff_exists_append]
  refine ⟨String.ofList before, String.ofList after, String.ofList_append, ?_⟩
  rw [← utf8ByteSize_ofList]
  rfl

/-- **A front part of a text is known by its size.** -/
theorem eq_of_append_eq_of_byteLength {xs ys xs' ys' : List Char} (h : xs ++ ys = xs' ++ ys')
    (hlen : byteLength xs = byteLength xs') : xs = xs' := by
  induction xs generalizing xs' with
  | nil =>
    cases xs' with
    | nil => rfl
    | cons c xs' =>
      have := c.utf8Size_pos
      rw [byteLength_nil, byteLength_cons] at hlen
      omega
  | cons c xs ih =>
    cases xs' with
    | nil =>
      have := c.utf8Size_pos
      rw [byteLength_nil, byteLength_cons] at hlen
      omega
    | cons c' xs' =>
      obtain ⟨rfl, htail⟩ := List.cons.inj h
      rw [ih htail (Nat.add_left_cancel hlen)]

/-! ## Spans of a text -/

/-- Both ends of a span are character boundaries of the text, and in order. -/
structure Fits (source : String) (span : Span) : Prop where
  start_isValid : (⟨span.start⟩ : String.Pos.Raw).IsValid source
  stop_isValid : (⟨span.stop⟩ : String.Pos.Raw).IsValid source
  start_le_stop : span.start ≤ span.stop

theorem Fits.stop_le {source : String} {span : Span} (h : Fits source span) :
    span.stop ≤ source.utf8ByteSize :=
  h.stop_isValid.le_utf8ByteSize

theorem fits_ofList (before text after : List Char) :
    Fits (String.ofList (before ++ text ++ after))
      { start := byteLength before, stop := byteLength (before ++ text) } where
  start_isValid := by
    rw [List.append_assoc]
    exact isValid_ofList before (text ++ after)
  stop_isValid := isValid_ofList (before ++ text) after
  start_le_stop := by
    rw [byteLength_append]
    exact Nat.le_add_right _ _

end ProtoSchema.Text
