import ProtoSchema.FileTree.Access
import ProtoSchema.SyntaxError

/-!
# Compile errors

Why a file could not be added to a compilation. A source of files may also fail for a reason of its
own, which is passed on as it is.
-/

namespace ProtoSchema

/-- A reason that a source of files gives in its own words. -/
inductive CompileError.Reason where
  | text (message : String)
  /-- A failure of input or output. -/
  | inputOutput (message : String)
deriving DecidableEq, Repr

/-- Why a file could not be added. -/
inductive CompileError where
  /-- The file was read, and its text refused. -/
  | refused (file source : String) (error : SyntaxError)
  /-- The file is there but could not be read. -/
  | unreadable (file path : String) (cause : AccessError)
  /-- No file has this name. -/
  | notFound (file : String)
  | custom (reason : CompileError.Reason)
deriving DecidableEq, Repr

namespace CompileError

open Text

/-- The words of a reason. -/
def Reason.message : Reason → String
  | .text message => message
  | .inputOutput message => message

/-- What is said about an error. -/
def message : CompileError → String
  | .refused _ _ e => e.message
  | .unreadable _ path _ => "error opening file '" ++ path ++ "'"
  | .notFound file => "file '" ++ file ++ "' not found"
  | .custom reason => reason.message

/-- The error with all that is known about it, on one line. -/
def inspect : CompileError → String
  | .refused file _ e => file ++ ":" ++ e.message
  | .unreadable file path cause =>
    (CompileError.unreadable file path cause).message ++ ": " ++ cause.text
  | .notFound file => (CompileError.notFound file).message
  | .custom (.text message) => quoted message
  | .custom (.inputOutput message) =>
    "Custom \x7b kind: Other, error: " ++ quoted message ++ " \x7d"

/-- The file at fault, as it was asked for. -/
def file? : CompileError → Option String
  | .refused file _ _ => some file
  | .unreadable file _ _ => some file
  | .notFound file => some file
  | .custom _ => none

/-- The syntax error, if the file was read. -/
def syntaxError? : CompileError → Option SyntaxError
  | .refused _ _ e => some e
  | _ => none

/-- The error behind this one. -/
def source? : CompileError → Option String
  | .unreadable _ _ cause => some cause.text
  | _ => none

/-- The text to point into. -/
def sourceText? : CompileError → Option String
  | .refused _ source _ => some source
  | _ => none

/-- The places to point at, each with what is said about it. -/
def labels : CompileError → List (String × Span)
  | .refused _ _ e => [("found here", e.span)]
  | _ => []

/-- Whether the file may still be found elsewhere. -/
def isNotFound : CompileError → Bool
  | .notFound _ => true
  | _ => false

/-- Whether input or output failed. -/
def isInputOutput : CompileError → Bool
  | .unreadable .. => true
  | .custom (.inputOutput _) => true
  | _ => false

end CompileError

end ProtoSchema
