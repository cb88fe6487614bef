import ProtoSchema.SyntaxError
import ProtoSchema.Text.Utf8

/-!
# Scanning a source text

A scanner walks a source text from left to right. Blanks, newlines and comments stand between
tokens; a token is one of four symbols or a longest run of word characters. Anything else outside a
comment stops the scanner for good.

## Termination

`skipLayout` recurses on the text. `readAll` reads token after token; each one takes at least a
character off the text (`length_rest_advance`).
-/

namespace ProtoSchema

/-! ## Character classes -/

namespace Scanner

/-- Space that stays on its line. -/
def isBlank (c : Char) : Bool :=
  c = ' ' || c = '\t' || c = '\x0b' || c = '\x0c' || c = '\r'

/-- The tokens of a single character. -/
def isSymbol (c : Char) : Bool :=
  c = ';' || c = '\x7b' || c = '\x7d' || c = '='

/-- The characters of names, keywords and numbers. -/
def isWordChar (c : Char) : Bool :=
  c.isAlphanum || c = '+' || c = '.' || c = '_' || c = '-'

end Scanner

/-! ## State -/

/-- A place in a source text: what lies ahead, and where that begins. -/
structure Scanner where
  /-- The text that is not read yet. -/
  rest : List Char
  /-- The line on which `rest` begins. -/
  line : Nat
  /-- The offset at which `rest` begins. -/
  offset : Nat
  /-- Whether the end, or a character that fits nowhere, was met. -/
  done : Bool
deriving DecidableEq, Repr

namespace Scanner

/-- A scanner at the start of a text. -/
def ofSource (source : String) : Scanner :=
  { rest := source.toList, line := 1, offset := 0, done := false }

/-- The end of the text as a token, on the line that the scanner has reached. -/
def endToken (s : Scanner) : Token :=
  { value := "", line := s.line, offset := s.offset + Text.byteLength s.rest }

/-- The text that is not read yet. -/
def remainder (s : Scanner) : String := String.ofList s.rest

/-! ## Layout -/

/-- Skips blanks, newlines and comments. A comment begins with two slashes and ends before the next
newline; `inComment` says that one is open. -/
def skipLayoutFrom (inComment : Bool) : List Char → Nat → Nat → Scanner
  | [], line, offset => { rest := [], line, offset, done := false }
  | c :: rest, line, offset =>
    if c = '\n' then skipLayoutFrom false rest (line + 1) (offset + c.utf8Size)
    else if inComment then skipLayoutFrom true rest line (offset + c.utf8Size)
    else if isBlank c then skipLayoutFrom false rest line (offset + c.utf8Size)
    else if c = '/' ∧ rest.head? = some '/' then skipLayoutFrom true rest line (offset + c.utf8Size)
    else { rest := c :: rest, line, offset, done := false }

/-- Moves to the next character that is no layout. -/
def skipLayout (s : Scanner) : Scanner :=
  skipLayoutFrom false s.rest s.line s.offset

/-! ## Tokens -/

/-- Splits the token at the front of a text from what follows it. -/
def splitToken? : List Char → Option (List Char × List Char)
  | [] => none
  | c :: rest =>
    if isSymbol c then some ([c], rest)
    else if isWordChar c then some (c :: rest.takeWhile isWordChar, rest.dropWhile isWordChar)
    else none

/-- Reads the next token. There is none at the end of the text, nor after an error. -/
def advance (s : Scanner) : Except SyntaxError (Option Token) × Scanner :=
  if s.done then (.ok none, s)
  else
    let here := s.skipLayout
    match here.rest with
    | [] => (.ok none, { here with done := true })
    | c :: rest =>
      match splitToken? (c :: rest) with
      | some (value, rest) =>
        (.ok (some { value := String.ofList value, line := here.line, offset := here.offset }),
          { here with rest, offset := here.offset + Text.byteLength value })
      | none =>
        let stop := here.offset + c.utf8Size
        (.error { cause := .strayByte (Text.leadByte c), line := here.line,
                  span := { start := here.offset, stop } },
          { here with rest, offset := stop, done := true })

/-! ## Progress -/

theorem length_rest_skipLayoutFrom (inComment : Bool) (cs : List Char) (line offset : Nat) :
    (skipLayoutFrom inComment cs line offset).rest.length ≤ cs.length := by
  induction cs generalizing inComment line offset with
  | nil => simp [skipLayoutFrom]
  | cons c cs ih =>
    unfold skipLayoutFrom
    repeat' split
    all_goals first
      | exact Nat.le_refl _
      | exact Nat.le_succ_of_le (ih ..)

/-- Skipping layout never gives text back. -/
theorem length_rest_skipLayout (s : Scanner) : s.skipLayout.rest.length ≤ s.rest.length :=
  length_rest_skipLayoutFrom ..

/-- A token and what follows it make up the text, and a token has at least one character. -/
theorem append_of_splitToken? {cs value rest : List Char}
    (h : splitToken? cs = some (value, rest)) : value ++ rest = cs ∧ value ≠ [] := by
  cases cs with
  | nil => simp [splitToken?] at h
  | cons c cs =>
    simp only [splitToken?] at h
    split at h
    · cases h
      simp
    · split at h
      · cases h
        simp
      · simp at h

/-- **Each token takes at least one character off the text.** -/
theorem length_rest_advance {s s' : Scanner} {t : Token} (h : s.advance = (.ok (some t), s')) :
    s'.rest.length < s.rest.length := by
  unfold advance at h
  split at h
  · simp at h
  · have hskip := length_rest_skipLayout s
    dsimp only at h
    split at h
    · simp at h
    · next c rest hrest =>
      split at h
      · next value rest' hsplit =>
        simp only [Prod.mk.injEq, Except.ok.injEq, Option.some.injEq] at h
        obtain ⟨-, rfl⟩ := h
        obtain ⟨happ, hne⟩ := append_of_splitToken? hsplit
        have hlen := congrArg List.length happ
        have hpos := List.length_pos_iff.mpr hne
        rw [hrest] at hskip
        simp only [List.length_append] at hlen
        simp only
        omega
      · simp at h

/-- Reading never gives text back. -/
theorem length_rest_advance_le (s : Scanner) : s.advance.2.rest.length ≤ s.rest.length := by
  have hskip := length_rest_skipLayout s
  unfold advance
  split
  · exact Nat.le_refl _
  · dsimp only
    split
    · exact hskip
    · next c rest hrest =>
      rw [hrest] at hskip
      split
      · next value rest' hsplit =>
        have hlen := congrArg List.length (append_of_splitToken? hsplit).1
        simp only [List.length_append] at hlen
        simp only
        omega
      · simp only [List.length_cons] at hskip
        simp only
        omega

/-! ## Whole texts -/

/-- What reading a text to its end, or to its first error, gives. -/
structure Scan where
  tokens : List Token
  failure : Option SyntaxError
  /-- The scanner afterwards. -/
  final : Scanner

/-- Reads all tokens ahead and adds them to `tokens`. -/
def readOnto (tokens : Array Token) (s : Scanner) : Scan :=
  match _ : s.advance with
  | (.ok (some t), s') => readOnto (tokens.push t) s'
  | (.ok none, s') => { tokens := tokens.toList, failure := none, final := s' }
  | (.error e, s') => { tokens := tokens.toList, failure := some e, final := s' }
termination_by s.rest.length
decreasing_by exact length_rest_advance ‹_›

/-- Reads all tokens ahead, up to the end or the first error. -/
def readAll (s : Scanner) : Scan := readOnto #[] s

end Scanner

end ProtoSchema
