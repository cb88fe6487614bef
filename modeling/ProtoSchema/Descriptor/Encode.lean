import ProtoSchema.Descriptor
import ProtoSchema.Wire

/-!
# Descriptors on the wire

Every descriptor is a message of the wire format, with its entries in the order of their field
numbers. What is present is written even if it is empty or zero, and what is absent is left out. A
field number is written as the 64-bit two's complement of its value, so a negative one takes ten
bytes.
-/

namespace ProtoSchema

/-- The number that stands for a label. -/
def Label.code : Label → Nat
  | .optional => 1
  | .required => 2
  | .repeated => 3

/-- The number that stands for a scalar type. Numbers 10, 11 and 14 belong to types without a
keyword. -/
def ScalarType.code : ScalarType → Nat
  | .double => 1
  | .float => 2
  | .int64 => 3
  | .uint64 => 4
  | .int32 => 5
  | .fixed64 => 6
  | .fixed32 => 7
  | .bool => 8
  | .string => 9
  | .bytes => 12
  | .uint32 => 13
  | .sfixed32 => 15
  | .sfixed64 => 16
  | .sint32 => 17
  | .sint64 => 18

/-- A scalar type by its number, or else the name of a type. -/
def FieldType.encode : FieldType → List UInt8
  | .scalar t => Wire.number 5 t.code
  | .named name => Wire.text 6 name

def FieldDescriptor.encode (f : FieldDescriptor) : List UInt8 :=
  Wire.text 1 f.name ++ Wire.number 3 f.number.toInt64.toUInt64.toNat ++
    Wire.number 4 f.label.code ++ f.type.encode

mutual

def MessageDescriptor.encode : MessageDescriptor → List UInt8
  | ⟨name, fields, nested⟩ =>
    Wire.text 1 name ++ fields.flatMap (fun f => Wire.counted 2 f.encode) ++ encodeAll 3 nested

/-- Several messages as entries of one field number. -/
def MessageDescriptor.encodeAll (field : Nat) : List MessageDescriptor → List UInt8
  | [] => []
  | m :: rest => Wire.counted field m.encode ++ encodeAll field rest

end

/-- An optional text as at most one entry. -/
def encodeOptional (field : Nat) : Option String → List UInt8
  | none => []
  | some s => Wire.text field s

def FileDescriptor.encode (f : FileDescriptor) : List UInt8 :=
  encodeOptional 1 f.name ++ encodeOptional 2 f.package ++
    MessageDescriptor.encodeAll 4 f.messages

/-- A set of files. -/
def encodeFiles (files : List FileDescriptor) : List UInt8 :=
  files.flatMap fun f => Wire.counted 1 f.encode

/-- A set of files as the content of a file. -/
def encodeSet (files : List FileDescriptor) : ByteArray :=
  ⟨(encodeFiles files).toArray⟩

end ProtoSchema
