import ProtoSchema.CompileError
import ProtoSchema.FileTree
import ProtoSchema.Text.Inspect

/-!
# Resolvers

A resolver finds the source file of a name. Any function from names to files or errors is one, and
resolvers can be chained: a chain asks its members in turn and goes on past those that do not find
the file, but stops at any other error. Chains may be members of chains.
-/

namespace ProtoSchema

/-- An opened source file; one that does not come from a file tree has no path. -/
structure SourceFile where
  path : Option String
  content : String
deriving DecidableEq, Repr

/-- A source of files, or a chain of them. -/
inductive Resolver where
  | single (openNamed : String → Except CompileError SourceFile)
  | chain (members : List Resolver)

namespace Resolver

mutual

/-- Opens the file of the given name. -/
def openFile : Resolver → String → Except CompileError SourceFile
  | .single openNamed, name => openNamed name
  | .chain members, name => openFirst members name

/-- Opens the file with the first resolver that finds it. -/
def openFirst : List Resolver → String → Except CompileError SourceFile
  | [], name => .error (.notFound name)
  | r :: rest, name =>
    match openFile r name with
    | .ok file => .ok file
    | .error e => if e.isNotFound then openFirst rest name else .error e

end

/-- The members of a chain with one more, which is asked behind all others. -/
def add (members : List Resolver) (r : Resolver) : List Resolver := members ++ [r]

/-- Files kept in a list; the first one with exactly the given name counts. -/
def ofList (files : List (String × String)) : Resolver :=
  .single fun name =>
    match files.lookup name with
    | some content => .ok { path := none, content }
    | none => .error (.notFound name)

/-- What reading the file at `path` means for the name that was asked for. -/
def ofAccess (name path : String) (bytes : Except AccessError ByteArray) :
    Except CompileError SourceFile :=
  match bytes.bind decodeText with
  | .ok content => .ok { path := some path, content }
  | .error .missing => .error (.notFound name)
  | .error cause => .error (.unreadable name path cause)

/-- The files of a tree, by their path below a directory. -/
def inDirectory (tree : FileTree) (directory : String) : Resolver :=
  .single fun name =>
    let path := Path.join directory name
    ofAccess name path (tree.readBytes path)

/-- A source that fails whatever it is asked for. -/
def failing (reason : CompileError.Reason) : Resolver :=
  .single fun _ => .error (.custom reason)

/-- A chain as text for inspection. -/
def inspectChain? : Resolver → Option String
  | .single _ => none
  | .chain members =>
    some (Text.Inspect.openRecord "ChainFileResolver" [("resolvers", toString members.length)])

end Resolver

end ProtoSchema
