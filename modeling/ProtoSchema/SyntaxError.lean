import ProtoSchema.FieldNumber
import ProtoSchema.Text.Quoted
import ProtoSchema.Token

/-!
# Syntax errors

A syntax error says why a text was refused and where: the line, and the bytes at fault. The wording
of every cause is in `SyntaxError.Cause.text`; `SyntaxError.message` puts the place in front.
-/

namespace ProtoSchema

/-- Why a source text was refused. -/
inductive SyntaxError.Cause where
  /-- A character that starts neither a word, a symbol nor a comment; given by its first byte. -/
  | strayByte (byte : UInt8)
  /-- Another token stands where the grammar has a fixed one. -/
  | unexpectedToken (expected found : String)
  /-- A top-level declaration that is neither a package nor a message. -/
  | unknownDeclaration (found : String)
  /-- A field that does not begin with a label. -/
  | missingLabel (found : String)
  /-- A field number that cannot be read. -/
  | badFieldNumber (value : String) (reason : FieldNumber.Error)
  /-- The text ends inside a message body. -/
  | unclosedMessage
  /-- A token that means nothing in a message body. -/
  | unknownContent (found : String)
  /-- Something is left after the declarations. -/
  | unconsumedInput
  /-- A second token was pushed back before the first was read again. -/
  | repeatedPushback
deriving DecidableEq, Repr

/-- A cause and its place in the source text. -/
structure SyntaxError where
  cause : SyntaxError.Cause
  line : Nat
  /-- The bytes at fault. -/
  span : Span
  /-- The offset that is reported. -/
  offset : Nat := span.start
deriving DecidableEq, Repr

namespace SyntaxError

open Text

/-- The wording of a cause. -/
def Cause.text : Cause → String
  | .strayByte byte => "unexpected byte 0x" ++ hexByte byte ++ " ('" ++ escapedByte byte ++ "')"
  | .unexpectedToken expected found => "expected " ++ quoted expected ++ ", found " ++ quoted found
  | .unknownDeclaration found => "unknown top-level thing " ++ quoted found
  | .missingLabel found => "expected required/optional/repeated, found " ++ quoted found
  | .badFieldNumber value reason => "bad field number " ++ quoted value ++ ": " ++ reason.message
  | .unclosedMessage => "unexpected end while parsing message"
  | .unknownContent found => "unexpected " ++ quoted found ++ " in message body"
  | .unconsumedInput => "input was not all consumed"
  | .repeatedPushback => "cannot push back more than one token"

/-- The place of an error. Offsets count from the start of the text, so only the first line names
one. -/
def place (e : SyntaxError) : String :=
  if e.line = 1 then "line 1." ++ toString e.offset else "line " ++ toString e.line

/-- The whole message: the place, then the cause. -/
def message (e : SyntaxError) : String := e.place ++ ": " ++ e.cause.text

end SyntaxError

end ProtoSchema
