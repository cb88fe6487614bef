/-!
# Paths

A path is a text of names with slashes between them. One that begins with a slash starts at the
root, every other one at the working directory. Nothing is normalised when paths are joined.
-/

namespace ProtoSchema.Path

/-- Whether a path starts at the root. -/
def isAbsolute (path : String) : Bool :=
  path.toList.head? = some '/'

/-- The path of a name below a directory. -/
def join (directory name : String) : String :=
  if isAbsolute name ∨ directory = "" then name
  else if directory.toList.getLast? = some '/' then directory ++ name
  else directory ++ "/" ++ name

/-- The pieces of a text between slashes; there is one more than there are slashes. -/
def splitSlashes : List Char → List (List Char)
  | [] => [[]]
  | c :: rest =>
    if c = '/' then [] :: splitSlashes rest
    else
      match splitSlashes rest with
      | piece :: pieces => (c :: piece) :: pieces
      | [] => [[c]]

/-- The names of a path. Empty ones stand where slashes meet or the path begins or ends with one. -/
def names (path : String) : List String :=
  (splitSlashes path.toList).map String.ofList

/-- The longest name that a directory can hold, in bytes. -/
def maxNameLength : Nat := 255

/-- The longest path that can be looked up, in bytes. -/
def maxLength : Nat := 4095

/-- The most symbolic links that are followed for one path. -/
def maxLinks : Nat := 40

end ProtoSchema.Path
