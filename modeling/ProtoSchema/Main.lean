import ProtoSchema.CommandLine

/-!
# The executable

Reads the files that a request names from the system, hands them to the library, and carries out
what it answers.
-/

namespace ProtoSchema.CommandLine

/-- Reads one file of the system. -/
def readSystemFile (path : String) : IO (Except AccessError ByteArray) := do
  try
    return .ok (← IO.FS.readBinFile path)
  catch
    | .noFileOrDirectory .. => return .error .missing
    | e => return .error (.other (toString e))

/-- Reads the files of a request, each once, and keeps the answers. -/
def systemFiles (r : Request) : IO Resolver := do
  let answers ← r.files.mapM fun name => do
    let path := Path.join r.includeDirectory name
    return (name, Resolver.ofAccess name path (← readSystemFile path))
  return .single fun name => (answers.lookup name).getD (.error (.notFound name))

/-- Carries a request out on the files of the system. -/
def Request.runOnSystem (r : Request) : IO Nat := do
  match r.perform (← systemFiles r) with
  | .error e =>
    IO.eprintln ("Error: " ++ e.inspect)
    return failureCode
  | .ok none => return 0
  | .ok (some (path, content)) =>
    try
      IO.FS.writeBinFile path content
      return 0
    catch e =>
      IO.eprintln ("Error: " ++ toString e)
      return failureCode

end ProtoSchema.CommandLine

open ProtoSchema.CommandLine in
/-- Answers help and version, refuses arguments that make no sense, and carries out all else. -/
def main (arguments : List String) : IO UInt32 := do
  match Invocation.ofArguments arguments with
  | .help =>
    IO.print helpText
    return 0
  | .version =>
    IO.print versionText
    return 0
  | .misuse =>
    IO.eprintln "error: invalid arguments\n\nFor more information, try '--help'."
    return misuseCode.toUInt32
  | .compile request => return (← request.runOnSystem).toUInt32
