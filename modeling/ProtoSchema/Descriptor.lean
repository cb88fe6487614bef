/-!
# Descriptors

What a schema file declares: a package, messages nested to any depth, and their fields. Names and
type names are kept as they are written; nothing is resolved.
-/

namespace ProtoSchema

/-- How often a field occurs in a message. -/
inductive Label where
  | optional
  | required
  | repeated
deriving DecidableEq, Repr

/-- The types that have a keyword. -/
inductive ScalarType where
  | double
  | float
  | int64
  | uint64
  | int32
  | fixed64
  | fixed32
  | bool
  | string
  | bytes
  | uint32
  | sfixed32
  | sfixed64
  | sint32
  | sint64
deriving DecidableEq, Repr

/-- The type of a field: a keyword, or any other word taken as a name. -/
inductive FieldType where
  | scalar (type : ScalarType)
  | named (name : String)
deriving DecidableEq, Repr

structure FieldDescriptor where
  name : String
  number : Int32
  label : Label
  type : FieldType
deriving DecidableEq, Repr

/-- A message with its fields and the messages declared inside it, each in declaration order. -/
structure MessageDescriptor where
  name : String
  fields : List FieldDescriptor
  nested : List MessageDescriptor
deriving Repr

mutual

/-- Decides whether two messages are equal, with all that is nested in them. -/
def MessageDescriptor.decEq : (m n : MessageDescriptor) → Decidable (m = n)
  | ⟨name, fields, nested⟩, ⟨name', fields', nested'⟩ =>
    match decEqAll nested nested' with
    | .isTrue hnested =>
      if h : name = name' ∧ fields = fields' then .isTrue (by rw [h.1, h.2, hnested])
      else .isFalse fun heq => h (by cases heq; exact ⟨rfl, rfl⟩)
    | .isFalse hnested => .isFalse fun heq => hnested (by cases heq; rfl)

/-- Decides whether two lists of messages are equal. -/
def MessageDescriptor.decEqAll : (ms ns : List MessageDescriptor) → Decidable (ms = ns)
  | [], [] => .isTrue rfl
  | [], _ :: _ => .isFalse nofun
  | _ :: _, [] => .isFalse nofun
  | m :: ms, n :: ns =>
    match m.decEq n, decEqAll ms ns with
    | .isTrue h, .isTrue hrest => .isTrue (by rw [h, hrest])
    | .isFalse h, _ => .isFalse fun heq => h (List.cons.inj heq).1
    | _, .isFalse hrest => .isFalse fun heq => hrest (List.cons.inj heq).2

end

instance : DecidableEq MessageDescriptor := MessageDescriptor.decEq

structure FileDescriptor where
  name : Option String
  package : Option String
  messages : List MessageDescriptor
deriving DecidableEq, Repr

/-! ## Listing nested messages -/

mutual

/-- A message and all messages below it, each before the ones nested in it, with its depth. -/
def MessageDescriptor.preorder (depth : Nat) : MessageDescriptor → List (Nat × MessageDescriptor)
  | ⟨name, fields, nested⟩ => (depth, ⟨name, fields, nested⟩) :: preorderAll (depth + 1) nested

/-- The listings of several messages, one after the other. -/
def MessageDescriptor.preorderAll (depth : Nat) :
    List MessageDescriptor → List (Nat × MessageDescriptor)
  | [] => []
  | m :: rest => m.preorder depth ++ preorderAll depth rest

end

/-- All messages of a file, top-level ones at depth 0. -/
def FileDescriptor.preorder (f : FileDescriptor) : List (Nat × MessageDescriptor) :=
  MessageDescriptor.preorderAll 0 f.messages

end ProtoSchema
