import ProtoSchema.Text.Unprintable

/-!
# Quoted texts and bytes in messages

A text is quoted between double quotes. Quotes and backslashes inside it get a backslash, four
control characters have a letter, and every other character without a printed form of its own is
written by its code point in braces. An apostrophe stays as it is.

A single byte is written between apostrophes by its caller: `escapedByte` keeps printable ASCII and
writes all else with a backslash.
-/

namespace ProtoSchema.Text

/-- Lower-case hexadecimal digits without padding. -/
def hexDigits (n : Nat) : String :=
  String.ofList (Nat.toDigits 16 n)

/-- Exactly two lower-case hexadecimal digits. -/
def hexByte (b : UInt8) : String :=
  String.ofList [Nat.digitChar (b.toNat / 16), Nat.digitChar (b.toNat % 16)]

/-- One character as it stands inside a quoted text. -/
def escapedChar (c : Char) : String :=
  if c = '\x00' then "\\0"
  else if c = '\t' then "\\t"
  else if c = '\r' then "\\r"
  else if c = '\n' then "\\n"
  else if c = '\\' then "\\\\"
  else if c = '"' then "\\\""
  else if isUnprintable c then "\\u\x7b" ++ hexDigits c.toNat ++ "\x7d"
  else c.toString

/-- A text between double quotes, with what would not print escaped. -/
def quoted (s : String) : String :=
  "\"" ++ String.join (s.toList.map escapedChar) ++ "\""

/-- One byte as ASCII, escaped unless it prints. -/
def escapedByte (b : UInt8) : String :=
  if b = 0x09 then "\\t"
  else if b = 0x0A then "\\n"
  else if b = 0x0D then "\\r"
  else if b = 0x27 then "\\'"
  else if b = 0x22 then "\\\""
  else if b = 0x5C then "\\\\"
  else if 0x20 ≤ b ∧ b ≤ 0x7E then (Char.ofNat b.toNat).toString
  else "\\x" ++ hexByte b

end ProtoSchema.Text
