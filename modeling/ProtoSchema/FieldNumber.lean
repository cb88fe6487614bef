/-!
# Field numbers

A field number is a decimal numeral with at most one sign. It is read from left to right into a
64-bit number and must then fit into 32 bits. At each character the digit is looked at before the
range, so a stray character counts as such only while the digits before it stay in the 64-bit range.
-/

namespace ProtoSchema.FieldNumber

/-- Why a text is no field number. -/
inductive Error where
  /-- The text is empty. -/
  | empty
  /-- A character other than a digit, or a sign with nothing after it. -/
  | badDigit
  /-- The digits leave the 64-bit range, or the number the 32-bit range. -/
  | outOfRange
deriving DecidableEq, Repr

/-- The wording of each error. -/
def Error.message : Error → String
  | .empty => "cannot parse integer from empty string"
  | .badDigit => "invalid digit found in string"
  | .outOfRange => "out of int32 range"

/-- The value of an ASCII digit. -/
def digitValue? (c : Char) : Option Nat :=
  if c.isDigit then some (c.toNat - '0'.toNat) else none

/-- Reads digits onto `value`, which stays at or below `limit`. -/
def magnitude (limit : Nat) : List Char → Nat → Except Error Nat
  | [], value => .ok value
  | c :: rest, value =>
    match digitValue? c with
    | none => .error .badDigit
    | some d =>
      if value * 10 + d ≤ limit then magnitude limit rest (value * 10 + d)
      else .error .outOfRange

/-- The largest 64-bit number. -/
def maxWide : Nat := 9223372036854775807

/-- Reads an optionally signed numeral in the 64-bit range. -/
def signed : List Char → Except Error Int
  | [] => .error .empty
  | ['+'] | ['-'] => .error .badDigit
  | '+' :: digits => (magnitude maxWide digits 0).map Int.ofNat
  | '-' :: digits => (magnitude (maxWide + 1) digits 0).map fun n => -Int.ofNat n
  | digits => (magnitude maxWide digits 0).map Int.ofNat

/-- Narrows a number to 32 bits. -/
def narrow (n : Int) : Except Error Int32 :=
  if -2147483648 ≤ n ∧ n ≤ 2147483647 then .ok (Int32.ofInt n) else .error .outOfRange

/-- Reads a field number. -/
def ofText (text : String) : Except Error Int32 :=
  (signed text.toList).bind narrow

end ProtoSchema.FieldNumber
