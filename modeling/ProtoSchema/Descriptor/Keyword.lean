import ProtoSchema.Descriptor

/-!
# Keywords

The words that stand for a label or a scalar type. Each table is given from the word to the value;
`Label.keyword` and `ScalarType.keyword` go back.

Main statements: `Label.ofKeyword?_eq_some_iff`, `ScalarType.ofKeyword?_eq_some_iff`.
-/

namespace ProtoSchema

/-! ## Labels -/

namespace Label

/-- The word that stands for a label. -/
def keyword : Label → String
  | .optional => "optional"
  | .required => "required"
  | .repeated => "repeated"

/-- The label that a word stands for. -/
def ofKeyword? : String → Option Label
  | "optional" => some .optional
  | "required" => some .required
  | "repeated" => some .repeated
  | _ => none

@[simp] theorem ofKeyword?_keyword (l : Label) : ofKeyword? l.keyword = some l := by
  cases l <;> rfl

/-- **A word stands for a label exactly if it is its keyword.** -/
theorem ofKeyword?_eq_some_iff {word : String} {l : Label} :
    ofKeyword? word = some l ↔ word = l.keyword := by
  refine ⟨fun h => ?_, fun h => h ▸ ofKeyword?_keyword l⟩
  unfold ofKeyword? at h
  split at h <;> cases h <;> rfl

/-- The words that stand for a label, which are those that begin a field. -/
theorem isSome_ofKeyword?_iff {word : String} :
    (ofKeyword? word).isSome ↔ word = "required" ∨ word = "optional" ∨ word = "repeated" := by
  constructor
  · intro h
    obtain ⟨l, hl⟩ := Option.isSome_iff_exists.1 h
    obtain rfl := ofKeyword?_eq_some_iff.1 hl
    cases l
    · exact Or.inr (Or.inl rfl)
    · exact Or.inl rfl
    · exact Or.inr (Or.inr rfl)
  · rintro (rfl | rfl | rfl) <;> rfl

end Label

/-! ## Scalar types -/

namespace ScalarType

/-- The word that stands for a scalar type. -/
def keyword : ScalarType → String
  | .double => "double"
  | .float => "float"
  | .int64 => "int64"
  | .uint64 => "uint64"
  | .int32 => "int32"
  | .fixed64 => "fixed64"
  | .fixed32 => "fixed32"
  | .bool => "bool"
  | .string => "string"
  | .bytes => "bytes"
  | .uint32 => "uint32"
  | .sfixed32 => "sfixed32"
  | .sfixed64 => "sfixed64"
  | .sint32 => "sint32"
  | .sint64 => "sint64"

/-- The scalar type that a word stands for. -/
def ofKeyword? : String → Option ScalarType
  | "double" => some .double
  | "float" => some .float
  | "int64" => some .int64
  | "uint64" => some .uint64
  | "int32" => some .int32
  | "fixed64" => some .fixed64
  | "fixed32" => some .fixed32
  | "bool" => some .bool
  | "string" => some .string
  | "bytes" => some .bytes
  | "uint32" => some .uint32
  | "sfixed32" => some .sfixed32
  | "sfixed64" => some .sfixed64
  | "sint32" => some .sint32
  | "sint64" => some .sint64
  | _ => none

@[simp] theorem ofKeyword?_keyword (t : ScalarType) : ofKeyword? t.keyword = some t := by
  cases t <;> rfl

/-- **A word stands for a scalar type exactly if it is its keyword.** -/
theorem ofKeyword?_eq_some_iff {word : String} {t : ScalarType} :
    ofKeyword? word = some t ↔ word = t.keyword := by
  refine ⟨fun h => ?_, fun h => h ▸ ofKeyword?_keyword t⟩
  unfold ofKeyword? at h
  split at h <;> cases h <;> rfl

end ScalarType

/-- A type as it is written: a scalar keyword, or else a name. -/
def FieldType.ofWord (word : String) : FieldType :=
  match ScalarType.ofKeyword? word with
  | some t => .scalar t
  | none => .named word

end ProtoSchema
