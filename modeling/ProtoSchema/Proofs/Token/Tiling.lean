import Mathlib.Data.List.TakeWhile
import ProtoSchema.Token.Scanner

/-!
# Tilings of a text

What it means to cut a text into tokens, said without a scanner. A text is tiled by gaps and
lexemes in turn. A gap is layout: spaces, newlines and comments, each comment reaching to the next
newline or to the end of the text. A lexeme is a symbol or a run of word characters that can be
made longer on neither side. Each token carries the line and the offset at which its lexeme stands.

`Tokenization` adds how a text ends: it is tiled as a whole, or up to a stray character.

Main statements: every text has a tiling up to its end or up to a stray character (`exists_tiling`),
and a tiling says where each of its tokens stands (`Tiling.exists_tokenAt`).
-/

namespace ProtoSchema

open Scanner Text

/-! ## Layout -/

/-- The characters of layout outside comments. -/
def IsSpace (c : Char) : Prop :=
  c ∈ ['\t', '\n', '\x0b', '\x0c', '\r', ' ']

instance (c : Char) : Decidable (IsSpace c) :=
  inferInstanceAs (Decidable (c ∈ _))

/-- What may follow a comment: a newline, or nothing. -/
def EndsComment (cs : List Char) : Prop := ∀ c ∈ cs.head?, c = '\n'

/-- Layout in front of `after`. -/
inductive Gap (after : List Char) : List Char → Prop where
  | nil : Gap after []
  | space {c : Char} {gap : List Char} : IsSpace c → Gap after gap → Gap after (c :: gap)
  | comment {text gap : List Char} : '\n' ∉ text → EndsComment (gap ++ after) → Gap after gap →
      Gap after ('/' :: '/' :: (text ++ gap))

/-- A text at whose front stands no layout. -/
def NoLayout : List Char → Prop
  | [] => True
  | c :: rest => ¬IsSpace c ∧ ¬(c = '/' ∧ rest.head? = some '/')

/-! ## Lexemes -/

/-- The characters that are tokens by themselves. -/
def IsSymbol (c : Char) : Prop :=
  c ∈ [';', '\x7b', '\x7d', '=']

/-- The characters of words. -/
def IsWordChar (c : Char) : Prop :=
  ('A' ≤ c ∧ c ≤ 'Z') ∨ ('a' ≤ c ∧ c ≤ 'z') ∨ ('0' ≤ c ∧ c ≤ '9') ∨ c ∈ ['+', '.', '_', '-']

instance (c : Char) : Decidable (IsSymbol c) :=
  inferInstanceAs (Decidable (c ∈ _))

instance (c : Char) : Decidable (IsWordChar c) :=
  inferInstanceAs (Decidable (_ ∨ _))

/-- The text of a token between `before` and `after`. -/
inductive Lexeme (before after : List Char) : List Char → Prop where
  | symbol {c : Char} : IsSymbol c → Lexeme before after [c]
  | word {w : List Char} : w ≠ [] → (∀ c ∈ w, IsWordChar c) →
      (∀ c ∈ before.getLast?, ¬IsWordChar c) → (∀ c ∈ after.head?, ¬IsWordChar c) →
      Lexeme before after w

/-- The token of a lexeme that stands behind `before`. -/
def tokenAt (before text : List Char) : Token :=
  { value := String.ofList text, line := 1 + before.count '\n', offset := byteLength before }

/-- A character that is no layout and begins no lexeme; `rest` stands behind it. -/
def IsStray (c : Char) (rest : List Char) : Prop :=
  NoLayout (c :: rest) ∧ ¬IsSymbol c ∧ ¬IsWordChar c

/-- The error at a stray character that stands behind `before`. -/
def strayAt (before : List Char) (c : Char) : SyntaxError :=
  { cause := .strayByte (leadByte c), line := 1 + before.count '\n',
    span := { start := byteLength before, stop := byteLength (before ++ [c]) } }

/-! ## Tilings -/

/-- Behind `before`, the text is a gap, a lexeme, a gap and so on, up to `rest`. -/
inductive Tiling : (before text : List Char) → List Token → (rest : List Char) → Prop where
  | stop {before gap rest : List Char} : Gap rest gap → Tiling before (gap ++ rest) [] rest
  | token {before gap text ahead rest : List Char} {tokens : List Token} :
      Gap (text ++ ahead) gap → Lexeme (before ++ gap) ahead text →
      Tiling (before ++ gap ++ text) ahead tokens rest →
      Tiling before (gap ++ text ++ ahead) (tokenAt (before ++ gap) text :: tokens) rest

/-- The scan of a text by its tiling: the whole text is tiled, or what is tiled ends at a stray
character. -/
inductive Tokenization (source : List Char) : Scan → Prop where
  | whole {tokens : List Token} : Tiling [] source tokens [] →
      Tokenization source
        { tokens, failure := none,
          final := { rest := [], line := 1 + source.count '\n', offset := byteLength source,
                     done := true } }
  | stray {tokens : List Token} {before rest : List Char} {c : Char} :
      source = before ++ c :: rest → Tiling [] source tokens (c :: rest) → IsStray c rest →
      Tokenization source
        { tokens, failure := some (strayAt before c),
          final := { rest, line := 1 + before.count '\n', offset := byteLength (before ++ [c]),
                     done := true } }

/-! ## Character classes -/

theorem isSpace_iff {c : Char} : IsSpace c ↔ c = '\n' ∨ isBlank c = true := by
  simp only [IsSpace, isBlank, List.mem_cons, List.not_mem_nil, or_false, Bool.or_eq_true,
    decide_eq_true_eq]
  grind

theorem isSymbol_iff {c : Char} : isSymbol c = true ↔ IsSymbol c := by
  simp only [IsSymbol, isSymbol, List.mem_cons, List.not_mem_nil, or_false, Bool.or_eq_true,
    decide_eq_true_eq, or_assoc]

theorem isWordChar_iff {c : Char} : isWordChar c = true ↔ IsWordChar c := by
  have halpha : c.isAlpha = (c.isUpper || c.isLower) := rfl
  have hupper : c.isUpper = true ↔ 'A' ≤ c ∧ c ≤ 'Z' := decide_eq_true_iff
  have hlower : c.isLower = true ↔ 'a' ≤ c ∧ c ≤ 'z' := by
    show (decide _ && decide _) = true ↔ _
    simp only [Bool.and_eq_true, decide_eq_true_eq]
    rfl
  have hdigit : c.isDigit = true ↔ '0' ≤ c ∧ c ≤ '9' := by
    simp only [Char.isDigit, Bool.and_eq_true, decide_eq_true_eq]
    rfl
  simp only [isWordChar, IsWordChar, Char.isAlphanum, halpha, Bool.or_eq_true, hupper, hlower,
    hdigit, decide_eq_true_eq, List.mem_cons, List.not_mem_nil, or_false, or_assoc]

theorem not_isWordChar_of_isSymbol {c : Char} (h : IsSymbol c) : ¬IsWordChar c := by
  simp only [IsSymbol, List.mem_cons, List.not_mem_nil, or_false] at h
  rcases h with rfl | rfl | rfl | rfl <;> decide

theorem not_isWordChar_of_isSpace {c : Char} (h : IsSpace c) : ¬IsWordChar c := by
  simp only [IsSpace, List.mem_cons, List.not_mem_nil, or_false] at h
  rcases h with rfl | rfl | rfl | rfl | rfl | rfl <;> decide

theorem not_isSpace_of_isSymbol {c : Char} (h : IsSymbol c) : ¬IsSpace c := by
  simp only [IsSymbol, List.mem_cons, List.not_mem_nil, or_false] at h
  rcases h with rfl | rfl | rfl | rfl <;> decide

theorem noLayout_of_isSymbol {c : Char} {rest : List Char} (h : IsSymbol c) :
    NoLayout (c :: rest) := by
  refine ⟨not_isSpace_of_isSymbol h, ?_⟩
  rintro ⟨rfl, -⟩
  exact absurd h (by decide)

theorem noLayout_of_isWordChar {c : Char} {rest : List Char} (h : IsWordChar c) :
    NoLayout (c :: rest) := by
  constructor
  · intro hspace
    exact not_isWordChar_of_isSpace hspace h
  · rintro ⟨rfl, -⟩
    exact absurd h (by decide)

/-! ## Lexemes at the front of a text -/

theorem Lexeme.ne_nil {before after text : List Char} (h : Lexeme before after text) :
    text ≠ [] := by
  cases h with
  | symbol _ => exact List.cons_ne_nil _ _
  | word hne _ _ _ => exact hne

theorem Lexeme.noLayout {before after text : List Char} (h : Lexeme before after text) :
    NoLayout (text ++ after) := by
  cases h with
  | symbol hc => exact noLayout_of_isSymbol hc
  | word hne hall _ _ =>
    obtain ⟨c, w, rfl⟩ := List.exists_cons_of_ne_nil hne
    exact noLayout_of_isWordChar (hall c List.mem_cons_self)

theorem Lexeme.newline_notMem {before after text : List Char} (h : Lexeme before after text) :
    '\n' ∉ text := by
  intro hmem
  cases h with
  | symbol hc =>
    rw [← List.mem_singleton.mp hmem] at hc
    exact absurd hc (by decide)
  | word _ hall _ _ => exact absurd (hall '\n' hmem) (by decide)

/-- The texts around a place do not both have a word character next to it. -/
def Boundary (before after : List Char) : Prop :=
  ∀ c ∈ before.getLast?, ∀ d ∈ after.head?, IsWordChar d → ¬IsWordChar c

theorem boundary_nil (after : List Char) : Boundary [] after := by
  intro c hc
  simp at hc

/-- A lexeme ends at a boundary. -/
theorem Lexeme.boundary {before after text : List Char} (h : Lexeme before after text) :
    Boundary (before ++ text) after := by
  intro c hc d hd hword
  cases h with
  | symbol hsym =>
    simp only [List.getLast?_append, List.getLast?_singleton, Option.some_or, Option.mem_def,
      Option.some.injEq] at hc
    exact hc ▸ not_isWordChar_of_isSymbol hsym
  | word _ _ _ hafter => exact absurd hword (hafter d hd)

/-- **At a boundary, text that is neither layout nor stray begins with a lexeme.** -/
theorem exists_lexeme {before cs : List Char} {c : Char} (hb : Boundary before (c :: cs))
    (hc : IsSymbol c ∨ IsWordChar c) :
    ∃ text ahead, c :: cs = text ++ ahead ∧ Lexeme before ahead text := by
  by_cases hsym : IsSymbol c
  · exact ⟨[c], cs, rfl, .symbol hsym⟩
  · have hword : IsWordChar c := hc.resolve_left hsym
    refine ⟨c :: cs.takeWhile isWordChar, cs.dropWhile isWordChar, ?_, ?_⟩
    · rw [List.cons_append, List.takeWhile_append_dropWhile]
    · refine .word (List.cons_ne_nil _ _) ?_ (fun d hd => hb d hd c rfl hword) ?_
      · intro d hd
        rcases List.mem_cons.mp hd with rfl | hd
        · exact hword
        · exact isWordChar_iff.mp (List.mem_takeWhile_imp hd)
      · intro d hd
        have hstop := List.head?_dropWhile_not isWordChar cs
        rw [hd] at hstop
        simpa [← isWordChar_iff] using hstop

/-! ## Layout at the front of a text -/

/-- A comment and the text behind it: the comment takes all that is not a newline. -/
theorem endsComment_dropWhile (cs : List Char) : EndsComment (cs.dropWhile (· ≠ '\n')) := by
  intro c hc
  have := List.head?_dropWhile_not (· ≠ '\n') cs
  rw [hc] at this
  simpa using this

/-- **Every text is a gap and text without layout in front.** -/
theorem exists_gap (cs : List Char) :
    ∃ gap rest, cs = gap ++ rest ∧ Gap rest gap ∧ NoLayout rest := by
  induction hlen : cs.length using Nat.strongRecOn generalizing cs with
  | _ n ih =>
    subst hlen
    cases cs with
    | nil => exact ⟨[], [], rfl, .nil, trivial⟩
    | cons c cs =>
      by_cases hspace : IsSpace c
      · obtain ⟨gap, rest, rfl, hgap, hrest⟩ := ih cs.length (by simp) cs rfl
        exact ⟨c :: gap, rest, rfl, .space hspace hgap, hrest⟩
      · by_cases hslash : c = '/' ∧ cs.head? = some '/'
        · obtain ⟨rfl, hhead⟩ := hslash
          obtain ⟨cs, rfl⟩ := List.head?_eq_some_iff.mp hhead
          have hle : (cs.dropWhile (· ≠ '\n')).length ≤ cs.length :=
            (List.dropWhile_sublist _).length_le
          obtain ⟨gap, rest, hcs, hgap, hrest⟩ :=
            ih (cs.dropWhile (· ≠ '\n')).length (by simp only [List.length_cons]; omega) _ rfl
          refine ⟨'/' :: '/' :: (cs.takeWhile (· ≠ '\n') ++ gap), rest, ?_, .comment ?_ ?_ hgap,
            hrest⟩
          · rw [List.cons_append, List.cons_append, List.append_assoc, ← hcs,
              List.takeWhile_append_dropWhile]
          · intro hmem
            simpa using List.mem_takeWhile_imp hmem
          · exact hcs ▸ endsComment_dropWhile cs
        · exact ⟨[], c :: cs, rfl, .nil, hspace, hslash⟩

/-- Layout before text that is no layout ends with a space. -/
theorem Gap.getLast_isSpace {gap rest : List Char} {c : Char} (h : Gap rest gap)
    (hrest : NoLayout rest) (hne : rest ≠ []) (hc : c ∈ gap.getLast?) : IsSpace c := by
  induction h with
  | nil => simp at hc
  | @space d gap hd _ ih =>
    cases gap with
    | nil =>
      simp only [List.getLast?_singleton, Option.mem_def, Option.some.injEq] at hc
      exact hc ▸ hd
    | cons e gap => exact ih (by simpa using hc)
  | @comment text gap _ hend _ ih =>
    cases gap with
    | nil =>
      -- the comment would reach up to text that is no layout
      obtain ⟨d, rest, rfl⟩ := List.exists_cons_of_ne_nil hne
      exact absurd (hend d rfl ▸ by decide) hrest.1
    | cons e gap =>
      refine ih ?_
      rw [show '/' :: '/' :: (text ++ e :: gap) = ('/' :: '/' :: text) ++ e :: gap from rfl,
        List.getLast?_append] at hc
      simpa using hc

/-- Layout before text that is no layout ends at a boundary. -/
theorem Gap.boundary {before gap rest : List Char} (h : Gap rest gap) (hrest : NoLayout rest)
    (hb : Boundary before (gap ++ rest)) : Boundary (before ++ gap) rest := by
  intro c hc d hd hword
  rw [List.getLast?_append] at hc
  cases hgap : gap.getLast? with
  | none =>
    rw [List.getLast?_eq_none_iff] at hgap
    subst hgap
    exact hb c (by simpa using hc) d hd hword
  | some e =>
    have hne : rest ≠ [] := by
      rintro rfl
      simp at hd
    rw [hgap, Option.some_or, Option.mem_def, Option.some.injEq] at hc
    exact not_isWordChar_of_isSpace (h.getLast_isSpace hrest hne (hc ▸ hgap))

/-! ## Tilings -/

/-- What is left of a tiled text is its end. -/
theorem Tiling.exists_front {before text rest : List Char} {tokens : List Token}
    (h : Tiling before text tokens rest) : ∃ front, text = front ++ rest := by
  induction h with
  | @stop _ gap _ _ => exact ⟨gap, rfl⟩
  | @token _ gap lexeme _ _ _ _ _ _ ih =>
    obtain ⟨front, rfl⟩ := ih
    exact ⟨gap ++ lexeme ++ front, by rw [List.append_assoc (gap ++ lexeme)]⟩

/-- **Each token of a tiling stands where its lexeme does.** -/
theorem Tiling.exists_tokenAt {before text rest : List Char} {tokens : List Token}
    (h : Tiling before text tokens rest) : ∀ t ∈ tokens, ∃ front lexeme after,
      text = front ++ lexeme ++ after ∧ Lexeme (before ++ front) after lexeme ∧
        t = tokenAt (before ++ front) lexeme := by
  induction h with
  | stop _ => simp
  | @token before gap lexeme ahead _ _ _ hlex _ ih =>
    intro t ht
    rcases List.mem_cons.mp ht with rfl | ht
    · exact ⟨gap, lexeme, ahead, rfl, hlex, rfl⟩
    · obtain ⟨front, lexeme', after, rfl, hlex', rfl⟩ := ih t ht
      refine ⟨gap ++ lexeme ++ front, lexeme', after, ?_, ?_, ?_⟩
      · simp only [List.append_assoc]
      · simpa only [List.append_assoc] using hlex'
      · simp only [List.append_assoc]

/-- **Every text has a tiling up to its end or up to a stray character.** -/
theorem exists_tiling (before text : List Char) (hb : Boundary before text) :
    ∃ tokens rest, Tiling before text tokens rest ∧
      (rest = [] ∨ ∃ c cs, rest = c :: cs ∧ IsStray c cs) := by
  induction hlen : text.length using Nat.strongRecOn generalizing before text with
  | _ n ih =>
    subst hlen
    obtain ⟨gap, rest, rfl, hgap, hrest⟩ := exists_gap text
    cases rest with
    | nil => exact ⟨[], [], .stop hgap, Or.inl rfl⟩
    | cons c cs =>
      by_cases hc : IsSymbol c ∨ IsWordChar c
      · obtain ⟨lexeme, ahead, hcs, hlex⟩ := exists_lexeme (hgap.boundary hrest hb) hc
        rw [hcs] at ih hgap ⊢
        have hpos := List.length_pos_iff.mpr hlex.ne_nil
        obtain ⟨tokens, rest, htiling, hend⟩ :=
          ih ahead.length (by simp only [List.length_append]; omega) (before ++ gap ++ lexeme)
            ahead hlex.boundary rfl
        refine ⟨tokenAt (before ++ gap) lexeme :: tokens, rest, ?_, hend⟩
        rw [← List.append_assoc]
        exact .token hgap hlex htiling
      · obtain ⟨hsym, hword⟩ := not_or.mp hc
        exact ⟨[], c :: cs, .stop hgap,
          Or.inr ⟨c, cs, rfl, hrest, hsym, hword⟩⟩

end ProtoSchema
