import ProtoSchema.CommandLine.Arguments
import ProtoSchema.Compilation

/-!
# The command line program

A request compiles its files and, if asked, writes the set of descriptors to one file. Nothing is
written unless every file compiles. `run` carries a command line out on a file tree.
-/

namespace ProtoSchema.CommandLine

/-- What version is answered. -/
def versionText : String := "protolite 0.1.0\n"

/-- What help is answered. -/
def helpText : String :=
  String.join [
    "A front end for the protobuf schema language, producing file descriptors.\n",
    "\n",
    "Usage: protolite [OPTIONS] <PROTO_FILES>...\n",
    "\n",
    "Arguments:\n",
    "  <PROTO_FILES>...  The source file(s) to parse\n",
    "\n",
    "Options:\n",
    "  -I, --include <PATH>  The directory in which to search for source files ",
    "[default: .] [alias: --proto_path]\n",
    "  -o, --output <PATH>   The output path to write a file descriptor set to ",
    "[alias: --descriptor_set_out]\n",
    "      --strict          If set, unrecognized content inside message bodies is an error ",
    "instead of being skipped\n",
    "  -h, --help            Print help\n",
    "  -V, --version         Print version\n"]

/-! ## Requests -/

/-- The compilation that a request begins with. Its policy is set only if strictness is asked
for. -/
def Request.start (r : Request) (resolver : Resolver) : Compilation :=
  if r.strict then (Compilation.start resolver).setPolicy .reject else .start resolver

/-- Adds files to a compilation one after the other, and gives up at the first that fails. -/
def addEach (c : Compilation) : List String → Except CompileError Compilation
  | [] => .ok c
  | name :: rest =>
    match Compilation.addFile name c with
    | .ok _ c => addEach c rest
    | .error e _ => .error e

/-- Compiles the files of a request and says what is to be written, as a path and its content. -/
def Request.perform (r : Request) (resolver : Resolver) :
    Except CompileError (Option (String × ByteArray)) := do
  let c ← addEach (r.start resolver) r.files
  return r.output.map fun path => (path, c.encode)

/-- What a run of the program leaves behind. -/
structure Outcome where
  exitCode : Nat
  /-- What was printed. -/
  printed : String
  /-- The files afterwards. -/
  tree : FileTree

/-- The exit code after an error in a file. -/
def failureCode : Nat := 1

/-- The exit code after arguments that make no sense. -/
def misuseCode : Nat := 2

/-- Carries a request out on a file tree. -/
def Request.run (r : Request) (tree : FileTree) : Outcome :=
  match r.perform (.inDirectory tree r.includeDirectory) with
  | .error _ => { exitCode := failureCode, printed := "", tree }
  | .ok none => { exitCode := 0, printed := "", tree }
  | .ok (some (path, content)) =>
    match tree.writeBytes path content with
    | .ok tree => { exitCode := 0, printed := "", tree }
    | .error _ => { exitCode := failureCode, printed := "", tree }

/-- Carries a command line out on a file tree. -/
def run (arguments : List String) (tree : FileTree) : Outcome :=
  match Invocation.ofArguments arguments with
  | .help => { exitCode := 0, printed := helpText, tree }
  | .version => { exitCode := 0, printed := versionText, tree }
  | .misuse => { exitCode := misuseCode, printed := "", tree }
  | .compile request => request.run tree

end ProtoSchema.CommandLine
