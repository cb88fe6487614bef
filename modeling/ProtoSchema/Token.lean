/-!
# Tokens

A token is a piece of the source text together with the place where it stands. Lines count from 1,
offsets are bytes from the start of the text. The end of the text is reported as a token as well:
it is the one token with an empty value.
-/

namespace ProtoSchema

/-- A half-open range of byte offsets in a source text. -/
structure Span where
  start : Nat
  stop : Nat
deriving DecidableEq, Repr

/-- A word or symbol of the source text, or, with an empty value, its end. -/
structure Token where
  value : String
  line : Nat
  offset : Nat
deriving DecidableEq, Repr

namespace Token

/-- What a reader holds before it has read anything. -/
def start : Token := { value := "", line := 1, offset := 0 }

/-- Only the end of the text has no value. -/
def isEnd (t : Token) : Bool := t.value.isEmpty

/-- The bytes that the token covers. -/
def span (t : Token) : Span := { start := t.offset, stop := t.offset + t.value.utf8ByteSize }

end Token

end ProtoSchema
