import ProtoSchema.Proofs.Token.ScanExact

/-!
# Writing tokens down

How a list of tokens may be written as a text: with any layout between them, and with some layout
where two words would otherwise run together (`Written`). A comment between tokens is closed by a
newline; only behind the last token one may stay open.

Main statements: what is written is scanned back, whatever the layout (`Written.readAll`), and every
list of tokens can be written (`exists_written`).
-/

namespace ProtoSchema

open Scanner

/-! ## Layout -/

/-- Spaces, newlines and comments that are closed by a newline. -/
inductive Layout : List Char → Prop where
  | nil : Layout []
  | space {c : Char} {gap : List Char} : IsSpace c → Layout gap → Layout (c :: gap)
  | comment {text gap : List Char} : '\n' ∉ text → Layout gap →
      Layout ('/' :: '/' :: (text ++ '\n' :: gap))

/-- Layout at the end of a text, where a last comment need not be closed. -/
inductive FinalLayout : List Char → Prop where
  | closed {gap : List Char} : Layout gap → FinalLayout gap
  | opened {gap text : List Char} : Layout gap → '\n' ∉ text →
      FinalLayout (gap ++ '/' :: '/' :: text)

/-- Layout is a gap wherever it stands, and so is layout in front of a gap. -/
theorem Layout.append_gap {gap more after : List Char} (h : Layout gap) (hmore : Gap after more) :
    Gap after (gap ++ more) := by
  induction h with
  | nil => exact hmore
  | space hc _ ih => exact .space hc ih
  | @comment text gap htext _ ih =>
    rw [List.cons_append, List.cons_append, List.append_assoc]
    refine .comment htext ?_ (.space (by decide) ih)
    intro c hc
    exact (Option.some.inj hc).symm

theorem Layout.gap {gap : List Char} (h : Layout gap) (after : List Char) : Gap after gap := by
  have hgap := h.append_gap (@Gap.nil after)
  rwa [List.append_nil] at hgap

theorem FinalLayout.gap {gap : List Char} (h : FinalLayout gap) : Gap [] gap := by
  cases h with
  | closed h => exact h.gap []
  | @opened gap text h htext =>
    -- an open comment is one that the end of the text closes
    refine h.append_gap ?_
    have hcomment : Gap [] ('/' :: '/' :: (text ++ [])) :=
      .comment htext (fun c hc => by simp at hc) .nil
    rwa [List.append_nil] at hcomment

/-- Layout does not begin with a word character. -/
theorem not_isWordChar_of_head_layout {gap : List Char} {c : Char} (h : Layout gap)
    (hc : c ∈ gap.head?) : ¬IsWordChar c := by
  cases h with
  | nil => cases hc
  | space hd _ => exact Option.some.inj hc ▸ not_isWordChar_of_isSpace hd
  | comment _ _ => exact Option.some.inj hc ▸ by decide

theorem not_isWordChar_of_head_finalLayout {gap : List Char} {c : Char} (h : FinalLayout gap)
    (hc : c ∈ gap.head?) : ¬IsWordChar c := by
  cases h with
  | closed h => exact not_isWordChar_of_head_layout h hc
  | @opened gap text h _ =>
    cases gap with
    | nil => exact Option.some.inj hc ▸ by decide
    | cons d gap => exact not_isWordChar_of_head_layout h hc

/-! ## Tokens -/

/-- A symbol or a word: the texts that can be tokens. -/
def IsTokenText (text : String) : Prop :=
  (∃ c, IsSymbol c ∧ text = String.singleton c) ∨
    text ≠ "" ∧ ∀ c ∈ text.toList, IsWordChar c

/-- Word characters, given by a check that can be evaluated. -/
theorem isWordChar_of_all {text : String} (h : text.toList.all isWordChar = true) :
    ∀ c ∈ text.toList, IsWordChar c := by
  intro c hc
  exact isWordChar_iff.mp (List.all_eq_true.mp h c hc)

theorem isTokenText_of_all {text : String} (hne : text ≠ "")
    (h : text.toList.all isWordChar = true) : IsTokenText text :=
  Or.inr ⟨hne, isWordChar_of_all h⟩

instance (text : String) : Decidable (IsTokenText text) :=
  decidable_of_iff ((text.toList.any fun c => isSymbol c && text == String.singleton c) = true ∨
      text ≠ "" ∧ text.toList.all isWordChar = true) <| by
    refine or_congr ⟨?_, ?_⟩ (and_congr_right fun _ => ⟨isWordChar_of_all, ?_⟩)
    · intro h
      obtain ⟨c, -, hc⟩ := List.any_eq_true.mp h
      rw [Bool.and_eq_true, isSymbol_iff, beq_iff_eq] at hc
      exact ⟨c, hc⟩
    · rintro ⟨c, hc, rfl⟩
      refine List.any_eq_true.mpr ⟨c, by simp, ?_⟩
      rw [Bool.and_eq_true, isSymbol_iff, beq_iff_eq]
      exact ⟨hc, rfl⟩
    · intro hall
      exact List.all_eq_true.mpr fun c hc => isWordChar_iff.mpr (hall c hc)

/-- A list of tokens and a text that writes them; `afterWord` says that the text before ends with a
word. -/
inductive Written : (afterWord : Bool) → List String → List Char → Prop where
  | done {afterWord : Bool} {gap : List Char} : FinalLayout gap → Written afterWord [] gap
  | symbol {afterWord : Bool} {gap text : List Char} {c : Char} {words : List String} :
      Layout gap → IsSymbol c → Written false words text →
      Written afterWord (String.singleton c :: words) (gap ++ c :: text)
  | word {afterWord : Bool} {gap text : List Char} {w : String} {words : List String} :
      Layout gap → (afterWord = true → gap ≠ []) →
      w ≠ "" → (∀ c ∈ w.toList, IsWordChar c) → Written true words text →
      Written afterWord (w :: words) (gap ++ (w.toList ++ text))

/-- What is written behind a word does not go on with a word character. -/
theorem Written.not_isWordChar_of_head {words : List String} {text : List Char} {c : Char}
    (h : Written true words text) (hc : c ∈ text.head?) : ¬IsWordChar c := by
  cases h with
  | done hgap => exact not_isWordChar_of_head_finalLayout hgap hc
  | @symbol _ gap _ d _ hgap hd _ =>
    cases gap with
    | nil => exact Option.some.inj hc ▸ not_isWordChar_of_isSymbol hd
    | cons e gap => exact not_isWordChar_of_head_layout hgap hc
  | @word _ gap _ w _ hgap hne _ _ _ =>
    cases gap with
    | nil => exact absurd rfl (hne rfl)
    | cons e gap => exact not_isWordChar_of_head_layout hgap hc

/-- **What is written is tiled into the same tokens.** -/
theorem Written.exists_tiling {afterWord : Bool} {before text : List Char} {words : List String}
    (h : Written afterWord words text) (hb : Boundary before text) :
    ∃ tokens, Tiling before text tokens [] ∧ tokens.map Token.value = words := by
  induction h generalizing before with
  | @done _ gap hgap =>
    have htiling : Tiling before (gap ++ []) [] [] := .stop hgap.gap
    rw [List.append_nil] at htiling
    exact ⟨[], htiling, rfl⟩
  | @symbol _ gap text c words hgap hc _ ih =>
    have hlex : Lexeme (before ++ gap) text [c] := .symbol hc
    obtain ⟨tokens, htiling, hvalues⟩ := ih hlex.boundary
    have hall : Tiling before (gap ++ [c] ++ text) _ [] := .token (hgap.gap _) hlex htiling
    rw [List.append_assoc] at hall
    refine ⟨_, hall, ?_⟩
    rw [List.map_cons, hvalues]
    rfl
  | @word _ gap text w words hgap hsep hne hw hrest ih =>
    obtain ⟨c, cs, hcs⟩ := List.exists_cons_of_ne_nil (fun h => hne (String.toList_eq_nil_iff.mp h))
    have hc : IsWordChar c := hw c (hcs ▸ List.mem_cons_self)
    have hlayout : NoLayout (w.toList ++ text) := by
      rw [hcs, List.cons_append]
      exact noLayout_of_isWordChar hc
    have hfront : Boundary (before ++ gap) (w.toList ++ text) := (hgap.gap _).boundary hlayout hb
    -- the word can be made longer on neither side
    have hlex : Lexeme (before ++ gap) text w.toList := by
      refine .word ?_ hw ?_ fun d hd => hrest.not_isWordChar_of_head hd
      · exact hcs ▸ List.cons_ne_nil c cs
      · exact fun d hd => hfront d hd c (by rw [hcs]; rfl) hc
    obtain ⟨tokens, htiling, hvalues⟩ := ih hlex.boundary
    have hall : Tiling before (gap ++ w.toList ++ text) _ [] := .token (hgap.gap _) hlex htiling
    rw [List.append_assoc] at hall
    refine ⟨_, hall, ?_⟩
    rw [List.map_cons, hvalues, tokenAt, String.ofList_toList]

/-- **What is written is scanned back.** -/
theorem Written.readAll {source : String} {words : List String}
    (h : Written false words source.toList) :
    (ofSource source).readAll.failure = none ∧
      (ofSource source).readAll.tokens.map Token.value = words := by
  obtain ⟨tokens, htiling, rfl⟩ := h.exists_tiling (boundary_nil _)
  rw [ofSource_eq, readAll_of_tokenization (.whole htiling)]
  exact ⟨rfl, rfl⟩

/-- **Every list of tokens can be written.** -/
theorem exists_written {words : List String} (h : ∀ w ∈ words, IsTokenText w) :
    ∃ text, ∀ afterWord, Written afterWord words text := by
  induction words with
  | nil => exact ⟨[], fun _ => .done (.closed .nil)⟩
  | cons w words ih =>
    rw [List.forall_mem_cons] at h
    obtain ⟨text, htext⟩ := ih h.2
    have hblank : Layout [' '] := .space (by decide) .nil
    rcases h.1 with ⟨c, hc, rfl⟩ | ⟨hne, hw⟩
    · exact ⟨_, fun _ => .symbol hblank hc (htext false)⟩
    · exact ⟨_, fun _ => .word hblank (fun _ => List.cons_ne_nil _ _) hne hw (htext true)⟩

end ProtoSchema
