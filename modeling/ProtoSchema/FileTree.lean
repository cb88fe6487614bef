import ProtoSchema.FileTree.Access
import ProtoSchema.FileTree.Path

/-!
# File trees

A file tree is a finite tree of directories and files together with a working directory. Several
locations may stand for the same file; what is written under one of its names is read under all of
them. A symbolic link leads on along another path. Devices, pipes and their like are special files:
they answer for themselves, and keep nothing of what is written to them.

Paths are followed name by name: each step needs a directory to stand in, an empty name and a single
dot stay, two dots go up, and the path of a symbolic link takes the place of its name.
-/

namespace ProtoSchema

/-- The place of an entry: its name and those of the directories around it, innermost first. -/
abbrev Location := List String

/-- A file whose content is not kept in the tree: a device, a pipe, a socket, or one that the system
makes up. -/
structure SpecialFile where
  /-- What is read from it, up to its end. -/
  supply : Except AccessError ByteArray
  /-- Whether it takes what is written. It keeps none of it. -/
  accept : ByteArray → Except AccessError Unit

/-- Has nothing to give, and takes everything. -/
def SpecialFile.nullDevice : SpecialFile :=
  { supply := .ok ByteArray.empty, accept := fun _ => .ok () }

/-- What stands at a location. -/
inductive Entry where
  | file (content : ByteArray)
  | directory
  | special (s : SpecialFile)
  /-- Leads on along its target. -/
  | symbolicLink (target : String)

structure FileTree where
  /-- All that stands somewhere in the tree. -/
  nodes : List Entry
  /-- Where the nodes stand, by their numbers; of two for one location, the first counts. A node
  that stands at several locations has as many names. -/
  names : List (Location × Nat)
  workingDirectory : Location

namespace FileTree

/-- The number of the node at a location below the root. -/
def node? (t : FileTree) (location : Location) : Option Nat :=
  t.names.lookup location

/-- What stands at a location. -/
def entry? (t : FileTree) : Location → Option Entry
  | [] => some .directory
  | name :: parents => (t.node? (name :: parents)).bind fun number => t.nodes[number]?

/-- Whether a directory stands at a location. -/
def isDirectory (t : FileTree) (location : Location) : Bool :=
  match t.entry? location with
  | some .directory => true
  | _ => false

/-- Puts a new entry at a location. -/
def insert (t : FileTree) (location : Location) (e : Entry) : FileTree :=
  { t with nodes := t.nodes ++ [e], names := (location, t.nodes.length) :: t.names }

/-- Gives the file at a location new content, under all of its names. -/
def overwrite (t : FileTree) (location : Location) (content : ByteArray) : FileTree :=
  match t.node? location with
  | some number => { t with nodes := t.nodes.set number (.file content) }
  | none => t

/-! ## Paths -/

/-- Where a path begins that is met in a directory. -/
def origin (directory : Location) (path : String) : Location :=
  if Path.isAbsolute path then [] else directory

/-- One name further from a location. -/
def follow (location : Location) (name : String) : Location :=
  if name = "" ∨ name = "." then location
  else if name = ".." then location.tail
  else name :: location

/-- Where names lead before the first symbolic link. -/
inductive Halt where
  /-- Behind all names. -/
  | arrived (location : Location)
  /-- In front of a symbolic link in a directory, with the names behind it still to be followed. -/
  | link (directory : Location) (target : String) (rest : List String)

/-- Follows names up to the first symbolic link. Each of them, also an empty one, needs a directory.
Only the last one may stand for nothing. -/
def stride (t : FileTree) : List String → Location → Except AccessError Halt
  | [], location => .ok (.arrived location)
  | name :: rest, location =>
    if !t.isDirectory location then .error .notDirectory
    else if Path.maxNameLength < name.utf8ByteSize then .error .nameTooLong
    else
      match t.entry? (follow location name) with
      | some (.symbolicLink target) => .ok (.link location target rest)
      | some _ => t.stride rest (follow location name)
      | none => if rest.isEmpty then .ok (.arrived (follow location name)) else .error .missing

/-- Follows names and at most a number of symbolic links on the way. -/
def walk (t : FileTree) (links : Nat) (names : List String) (location : Location) :
    Except AccessError Location :=
  match t.stride names location with
  | .error e => .error e
  | .ok (.arrived location) => .ok location
  | .ok (.link directory target rest) =>
    match links with
    | 0 => .error .tooManyLinks
    | links + 1 => t.walk links (Path.names target ++ rest) (origin directory target)

/-- Refuses a path that cannot be looked up at all. -/
def checkPath (path : String) : Except AccessError Unit :=
  if '\x00' ∈ path.toList then .error .nullInPath
  else if path = "" then .error .missing
  else if Path.maxLength < path.utf8ByteSize then .error .nameTooLong
  else .ok ()

/-- The location that a path leads to. There may be nothing yet where its last name leads. -/
def find (t : FileTree) (path : String) : Except AccessError Location := do
  checkPath path
  t.walk Path.maxLinks (Path.names path) (origin t.workingDirectory path)

/-! ## Building trees -/

/-- Makes a directory where nothing stands yet. -/
def makeDirectory (t : FileTree) (location : Location) : FileTree :=
  match t.entry? location with
  | some _ => t
  | none => t.insert location .directory

/-- Makes every directory on the way along some names, and says where they end. -/
def makeDirectories (t : FileTree) : List String → Location → FileTree × Location
  | [], location => (t, location)
  | name :: rest, location =>
    (t.makeDirectory (follow location name)).makeDirectories rest (follow location name)

/-- Adds the directory under a path, with those on the way to it. -/
def addDirectory (t : FileTree) (path : String) : FileTree :=
  (t.makeDirectories (Path.names path) (origin t.workingDirectory path)).1

/-- Puts an entry under a path and makes the directories on the way to it. -/
def addEntry (t : FileTree) (path : String) (e : Entry) : FileTree :=
  let names := Path.names path
  let (t, directory) := t.makeDirectories names.dropLast (origin t.workingDirectory path)
  t.insert (follow directory (names.getLastD "")) e

/-- A tree that holds an empty working directory, alone in its parent, and the null device. -/
def fresh : FileTree :=
  let bare : FileTree :=
    { nodes := [], names := [], workingDirectory := ["work", "session", "tmp"] }
  (bare.addEntry "/dev/null" (.special .nullDevice)).addDirectory "/tmp/session/work"

/-! ## Reading and writing -/

/-- The content of the file under a path. -/
def readBytes (t : FileTree) (path : String) : Except AccessError ByteArray := do
  let location ← t.find path
  match t.entry? location with
  | some (.file content) => return content
  | some (.special s) => s.supply
  | some .directory => throw .isDirectory
  | some (.symbolicLink _) | none => throw .missing

/-- The tree with the file under a path made or given new content. -/
def writeBytes (t : FileTree) (path : String) (content : ByteArray) :
    Except AccessError FileTree := do
  let location ← t.find path
  match t.entry? location with
  | none => return t.insert location (.file content)
  | some (.file _) => return t.overwrite location content
  | some (.special s) =>
    s.accept content
    return t
  | some .directory | some (.symbolicLink _) => throw .isDirectory

end FileTree

end ProtoSchema
