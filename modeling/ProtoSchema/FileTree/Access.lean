/-!
# Access to files

Why a file could not be read or written. A missing file is told apart from every other cause: it
only means that the file has to be looked for elsewhere.
-/

namespace ProtoSchema

/-- Why a file could not be read or written. -/
inductive AccessError where
  /-- There is nothing under this path. -/
  | missing
  /-- A file stands where the path needs a directory. -/
  | notDirectory
  /-- A directory stands where a file is needed. -/
  | isDirectory
  /-- The path, or a name in it, is too long. -/
  | nameTooLong
  /-- There is one symbolic link too many on the way. -/
  | tooManyLinks
  /-- The path holds a null character. -/
  | nullInPath
  /-- The content is no UTF-8 text. -/
  | notUtf8
  /-- Any other cause, in the words of the system. -/
  | other (text : String)
deriving DecidableEq, Repr

/-- The wording of each cause. -/
def AccessError.text : AccessError → String
  | .missing => "No such file or directory (os error 2)"
  | .notDirectory => "Not a directory (os error 20)"
  | .isDirectory => "Is a directory (os error 21)"
  | .nameTooLong => "File name too long (os error 36)"
  | .tooManyLinks => "Too many levels of symbolic links (os error 40)"
  | .nullInPath => "file name contained an unexpected NUL byte"
  | .notUtf8 => "stream did not contain valid UTF-8"
  | .other text => text

/-- Takes the bytes of a file as UTF-8 text. -/
def decodeText (bytes : ByteArray) : Except AccessError String :=
  match String.fromUTF8? bytes with
  | some s => .ok s
  | none => .error .notUtf8

end ProtoSchema
