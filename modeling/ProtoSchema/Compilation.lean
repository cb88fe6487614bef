import ProtoSchema.Declaration.File
import ProtoSchema.Descriptor.Encode
import ProtoSchema.Descriptor.Inspect
import ProtoSchema.Resolver

/-!
# Compilations

A compilation collects the descriptors of source files in the order in which they are added. A file
that cannot be opened or read adds nothing, and leaves what was added before as it is.

Every step is logged, whether it succeeds or fails.

`compileFiles` is all that is needed for the files of a directory. It takes no policy; `compile`
leaves the policy and the resolver to the caller.
-/

namespace ProtoSchema

/-- Something that happened during a compilation. -/
inductive Event where
  | opened (file : String) (path : Option String)
  /-- A token was delivered to the reader of declarations. -/
  | read (token : Token)
  | parsed (file : String) (messageCount : Nat)
deriving DecidableEq, Repr

/-- The path of an opened file as text for inspection. -/
def inspectPath (path : Option String) : String :=
  Text.Inspect.optional (path.map Text.quoted)

/-- The files compiled so far, and how to go on. -/
structure Compilation where
  resolver : Resolver
  policy : UnknownContent
  files : Array FileDescriptor
  log : Array Event

/-- A step of a compilation. -/
abbrev Compiling (α : Type) := EStateM CompileError Compilation α

namespace Compilation

/-- A compilation without files. Unknown content is skipped unless asked otherwise. -/
def start (resolver : Resolver) : Compilation :=
  { resolver, policy := .skip, files := #[], log := #[] }

def setPolicy (policy : UnknownContent) (c : Compilation) : Compilation :=
  { c with policy }

def record (events : Array Event) (c : Compilation) : Compilation :=
  { c with log := c.log ++ events }

/-- Opens a file, reads it, and adds its descriptor. -/
def addFile (name : String) : Compiling FileDescriptor := fun c =>
  match c.resolver.openFile name with
  | .error e => .error e c
  | .ok source =>
    let c := c.record #[.opened name source.path]
    match Declaration.file c.policy name (.ofSource source.content) with
    | .error e cursor =>
      .error (.refused name source.content e) (c.record (cursor.reads.map .read))
    | .ok file cursor =>
      let c := c.record (cursor.reads.map .read)
      let c := c.record #[.parsed name file.messages.length]
      .ok file { c with files := c.files.push file }

/-- Adds files in turn, up to the first that fails. -/
def addFiles : List String → Compiling Unit
  | [] => return ()
  | name :: rest => do
    let _ ← addFile name
    addFiles rest

/-- The descriptors of all files, on the wire. -/
def encode (c : Compilation) : ByteArray :=
  encodeSet c.files.toList

/-- A compilation as text for inspection. -/
def inspect (c : Compilation) : String :=
  let policy :=
    match c.policy with
    | .skip => "Skip"
    | .reject => "Reject"
  Text.Inspect.openRecord "Compiler" [
    ("options", Text.Inspect.record "ParseOptions" [("unknown_content", policy)]),
    ("files", Text.Inspect.list (c.files.toList.map FileDescriptor.inspect))]

end Compilation

/-- Compiles the named files with a resolver and a policy of one's own: the compilation behind the
last of them, or the error of the first that fails. -/
def compile (resolver : Resolver) (policy : UnknownContent) (names : List String) :
    Except CompileError Compilation :=
  match Compilation.addFiles names ((Compilation.start resolver).setPolicy policy) with
  | .ok () c => .ok c
  | .error e _ => .error e

/-- Compiles the named files of a directory: all of their descriptors in the same order, or the
error of the first file that fails. -/
def compileFiles (tree : FileTree) (names : List String) (directory : String) :
    Except CompileError (List FileDescriptor) :=
  match Compilation.addFiles names (.start (.inDirectory tree directory)) with
  | .ok () c => .ok c.files.toList
  | .error e _ => .error e

end ProtoSchema
