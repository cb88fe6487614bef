/-!
# Sizes in UTF-8

A source text is read as a list of characters, while every position in it counts the bytes of its
UTF-8 form. This module measures characters in bytes.

Main statements: `byteLength_append`, `utf8ByteSize_ofList`.
-/

namespace ProtoSchema.Text

/-- The number of bytes that a list of characters takes in UTF-8. -/
def byteLength (cs : List Char) : Nat :=
  cs.foldr (fun c n => c.utf8Size + n) 0

@[simp] theorem byteLength_nil : byteLength [] = 0 := rfl

@[simp] theorem byteLength_cons (c : Char) (cs : List Char) :
    byteLength (c :: cs) = c.utf8Size + byteLength cs := rfl

@[simp] theorem byteLength_append (xs ys : List Char) :
    byteLength (xs ++ ys) = byteLength xs + byteLength ys := by
  induction xs with
  | nil => simp
  | cons c xs ih => simp [ih, Nat.add_assoc]

/-- **The list measure agrees with the size of the string.** -/
theorem utf8ByteSize_ofList (cs : List Char) :
    (String.ofList cs).utf8ByteSize = byteLength cs := by
  induction cs with
  | nil => rfl
  | cons c cs ih =>
    rw [show c :: cs = [c] ++ cs from rfl, String.ofList_append, String.utf8ByteSize_append, ih]
    simp

/-- The first byte of a character's UTF-8 form. -/
def leadByte (c : Char) : UInt8 :=
  (String.utf8EncodeChar c).head String.utf8EncodeChar_ne_nil

end ProtoSchema.Text
