import ProtoSchema.Descriptor

/-!
# Descriptors under construction

While a message is being read, its fields and nested messages are collected in a draft. Reading
inside a nested message leaves the messages around it open, so the reader holds a `Nesting`: the
innermost open message and those that enclose it.

`FileDraft` collects the declarations of a file in the same way.
-/

namespace ProtoSchema

/-! ## Messages -/

/-- A message whose body is still being read. -/
structure MessageDraft where
  name : String
  fields : Array FieldDescriptor
  nested : Array MessageDescriptor

namespace MessageDraft

/-- A message of which only the name is known. -/
def named (name : String) : MessageDraft := { name, fields := #[], nested := #[] }

def addField (d : MessageDraft) (f : FieldDescriptor) : MessageDraft :=
  { d with fields := d.fields.push f }

def addNested (d : MessageDraft) (m : MessageDescriptor) : MessageDraft :=
  { d with nested := d.nested.push m }

/-- The message, once its body is read. -/
def finish (d : MessageDraft) : MessageDescriptor :=
  { name := d.name, fields := d.fields.toList, nested := d.nested.toList }

end MessageDraft

/-- The open messages at a place in a text. -/
structure Nesting where
  innermost : MessageDraft
  /-- The messages around it, closest first. -/
  enclosing : List MessageDraft

namespace Nesting

/-- A single open message. -/
def outermost (name : String) : Nesting := { innermost := .named name, enclosing := [] }

/-- Adds a field to the innermost message. -/
def addField (n : Nesting) (f : FieldDescriptor) : Nesting :=
  { n with innermost := n.innermost.addField f }

/-- Opens a message inside the innermost one. -/
def enter (n : Nesting) (name : String) : Nesting :=
  { innermost := .named name, enclosing := n.innermost :: n.enclosing }

end Nesting

/-! ## Files -/

/-- A file whose declarations are still being read. -/
structure FileDraft where
  name : Option String
  package : Option String
  messages : Array MessageDescriptor

namespace FileDraft

/-- A file that declares nothing yet. -/
def named (name : String) : FileDraft := { name := some name, package := none, messages := #[] }

/-- A draft that continues a descriptor. -/
def ofFile (f : FileDescriptor) : FileDraft :=
  { name := f.name, package := f.package, messages := f.messages.toArray }

/-- A package declaration; a later one replaces an earlier one. -/
def setPackage (d : FileDraft) (package : String) : FileDraft :=
  { d with package := some package }

def addMessage (d : FileDraft) (m : MessageDescriptor) : FileDraft :=
  { d with messages := d.messages.push m }

/-- The file as far as it was read. -/
def finish (d : FileDraft) : FileDescriptor :=
  { name := d.name, package := d.package, messages := d.messages.toList }

@[simp] theorem finish_ofFile (f : FileDescriptor) : (ofFile f).finish = f := by
  simp [ofFile, finish]

end FileDraft

end ProtoSchema
