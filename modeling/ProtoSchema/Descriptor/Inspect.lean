import ProtoSchema.Descriptor
import ProtoSchema.Text.Inspect

/-!
# Descriptors as text for inspection

Each descriptor is shown as the full record of the descriptor format. Entries that this schema
language cannot set are shown as absent.
-/

namespace ProtoSchema

open Text

/-- The name of a label in an inspected descriptor. -/
def Label.inspect : Label → String
  | .optional => "Optional"
  | .required => "Required"
  | .repeated => "Repeated"

/-- The name of a scalar type in an inspected descriptor. -/
def ScalarType.inspect : ScalarType → String
  | .double => "Double"
  | .float => "Float"
  | .int64 => "Int64"
  | .uint64 => "Uint64"
  | .int32 => "Int32"
  | .fixed64 => "Fixed64"
  | .fixed32 => "Fixed32"
  | .bool => "Bool"
  | .string => "String"
  | .bytes => "Bytes"
  | .uint32 => "Uint32"
  | .sfixed32 => "Sfixed32"
  | .sfixed64 => "Sfixed64"
  | .sint32 => "Sint32"
  | .sint64 => "Sint64"

/-- The scalar type, if the type has a keyword. -/
def FieldType.scalar? : FieldType → Option ScalarType
  | .scalar t => some t
  | .named _ => none

/-- The name, if the type has no keyword. -/
def FieldType.name? : FieldType → Option String
  | .scalar _ => none
  | .named name => some name

def FieldDescriptor.inspect (f : FieldDescriptor) : String :=
  Inspect.record "FieldDescriptorProto" [
    ("name", Inspect.optional (quoted f.name)),
    ("number", Inspect.optional (toString f.number.toInt)),
    ("label", Inspect.optional f.label.inspect),
    ("r#type", Inspect.optional (f.type.scalar?.map ScalarType.inspect)),
    ("type_name", Inspect.optional (f.type.name?.map quoted)),
    ("extendee", Inspect.optional none),
    ("default_value", Inspect.optional none),
    ("oneof_index", Inspect.optional none),
    ("json_name", Inspect.optional none),
    ("options", Inspect.optional none),
    ("proto3_optional", Inspect.optional none)]

mutual

def MessageDescriptor.inspect : MessageDescriptor → String
  | ⟨name, fields, nested⟩ =>
    Inspect.record "DescriptorProto" [
      ("name", Inspect.optional (quoted name)),
      ("field", Inspect.list (fields.map FieldDescriptor.inspect)),
      ("extension", Inspect.list []),
      ("nested_type", Inspect.list (inspectAll nested)),
      ("enum_type", Inspect.list []),
      ("extension_range", Inspect.list []),
      ("oneof_decl", Inspect.list []),
      ("options", Inspect.optional none),
      ("reserved_range", Inspect.list []),
      ("reserved_name", Inspect.list [])]

/-- Each of several messages. -/
def MessageDescriptor.inspectAll : List MessageDescriptor → List String
  | [] => []
  | m :: rest => m.inspect :: inspectAll rest

end

def FileDescriptor.inspect (f : FileDescriptor) : String :=
  Inspect.record "FileDescriptorProto" [
    ("name", Inspect.optional (f.name.map quoted)),
    ("package", Inspect.optional (f.package.map quoted)),
    ("dependency", Inspect.list []),
    ("public_dependency", Inspect.list []),
    ("weak_dependency", Inspect.list []),
    ("message_type", Inspect.list (MessageDescriptor.inspectAll f.messages)),
    ("enum_type", Inspect.list []),
    ("service", Inspect.list []),
    ("extension", Inspect.list []),
    ("options", Inspect.optional none),
    ("source_code_info", Inspect.optional none),
    ("syntax", Inspect.optional none)]

end ProtoSchema
