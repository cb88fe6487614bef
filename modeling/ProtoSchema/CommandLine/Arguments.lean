/-!
# Command line arguments

Arguments are read from left to right. Options may stand anywhere before a lone `--`; every other
argument names a source file. An option may be given once, and only by its full name. Help and
version are answered as soon as they are met, so what stands behind them does not matter, and what
stands before them must be right.
-/

namespace ProtoSchema.CommandLine

/-- The options that take a value. -/
inductive Setting where
  /-- The directory of the source files. -/
  | includeDirectory
  /-- The file for the compiled set. -/
  | output
deriving DecidableEq, Repr

/-- What one argument means on its own. -/
inductive Argument where
  | help
  | version
  | strict
  /-- An option with a value; without one attached, it is the next argument. -/
  | setting (s : Setting) (attached : Option String)
  /-- The end of the options. -/
  | separator
  | file (name : String)
  | unknown
deriving DecidableEq, Repr

namespace Argument

/-- An option by its full name, with what stands behind an equals sign. -/
def ofLong (name : String) (attached : Option String) : Argument :=
  match name, attached with
  | "include", value | "proto_path", value => .setting .includeDirectory value
  | "output", value | "descriptor_set_out", value => .setting .output value
  | "strict", none => .strict
  | "help", none => .help
  | "version", none => .version
  | _, _ => .unknown

/-- The value attached to an option of one letter; an equals sign in between is dropped. -/
def attachedToLetter : List Char → Option String
  | [] => none
  | '=' :: value => some (String.ofList value)
  | value => some (String.ofList value)

/-- An option by its letter. Help and version do not look at what follows the letter. -/
def ofLetter (letter : Char) (rest : List Char) : Argument :=
  match letter with
  | 'I' => .setting .includeDirectory (attachedToLetter rest)
  | 'o' => .setting .output (attachedToLetter rest)
  | 'h' => .help
  | 'V' => .version
  | _ => .unknown

/-- The value behind the first equals sign. -/
def attachedToName : List Char → Option String
  | [] => none
  | '=' :: value => some (String.ofList value)
  | _ :: rest => attachedToName rest

/-- Tells what an argument means. A lone dash is a file name. -/
def ofText (text : String) : Argument :=
  match text.toList with
  | ['-', '-'] => .separator
  | '-' :: '-' :: long =>
    ofLong (String.ofList (long.takeWhile (· ≠ '='))) (attachedToName long)
  | '-' :: letter :: rest => ofLetter letter rest
  | _ => .file text

/-- Whether a text can be the value of the option before it: it must not look like an option. -/
def isValue (text : String) : Bool :=
  match text.toList with
  | '-' :: _ :: _ => false
  | _ => true

end Argument

/-! ## Requests -/

/-- What is to be compiled, and how. -/
structure Request where
  files : List String
  includeDirectory : String
  output : Option String
  strict : Bool
deriving DecidableEq, Repr

/-- What a command line asks for. -/
inductive Invocation where
  | help
  | version
  /-- The arguments make no sense. -/
  | misuse
  | compile (request : Request)
deriving DecidableEq, Repr

/-- What the arguments so far have said. -/
structure Collected where
  files : Array String
  includeDirectory : Option String
  output : Option String
  strict : Bool

namespace Collected

/-- Before the first argument. -/
def empty : Collected :=
  { files := #[], includeDirectory := none, output := none, strict := false }

def addFile (c : Collected) (name : String) : Collected :=
  { c with files := c.files.push name }

/-- Gives an option its value. A value must not be empty, nor be given twice. -/
def set? (c : Collected) (s : Setting) (value : String) : Option Collected :=
  if value = "" then none
  else
    match s with
    | .includeDirectory =>
      if c.includeDirectory.isSome then none else some { c with includeDirectory := some value }
    | .output => if c.output.isSome then none else some { c with output := some value }

/-- Asks for strictness, once. -/
def setStrict? (c : Collected) : Option Collected :=
  if c.strict then none else some { c with strict := true }

/-- The request, once all arguments are read. It must name a file. -/
def finish (c : Collected) : Invocation :=
  if c.files.isEmpty then .misuse
  else
    .compile {
      files := c.files.toList
      includeDirectory := c.includeDirectory.getD "."
      output := c.output
      strict := c.strict }

end Collected

/-- Reads arguments onto what was collected; `pending` is an option that waits for its value. -/
def Invocation.collect (c : Collected) (pending : Option Setting) : List String → Invocation
  | [] =>
    match pending with
    | none => c.finish
    | some _ => .misuse
  | text :: rest =>
    match pending with
    | some s =>
      if Argument.isValue text then
        match c.set? s text with
        | some c => collect c none rest
        | none => .misuse
      else .misuse
    | none =>
      match Argument.ofText text with
      | .help => .help
      | .version => .version
      | .strict =>
        match c.setStrict? with
        | some c => collect c none rest
        | none => .misuse
      | .setting s none => collect c (some s) rest
      | .setting s (some value) =>
        match c.set? s value with
        | some c => collect c none rest
        | none => .misuse
      | .separator => (rest.foldl Collected.addFile c).finish
      | .file name => collect (c.addFile name) none rest
      | .unknown => .misuse

/-- Reads the arguments of a command line. -/
def Invocation.ofArguments (arguments : List String) : Invocation :=
  collect .empty none arguments

end ProtoSchema.CommandLine
