import Mathlib.Data.List.Basic
import ProtoSchema.Descriptor.Encode
import ProtoSchema.Descriptor.Inspect
import ProtoSchema.Proofs.Wire.Reading

/-!
# Records of the descriptor format

A record is what any reader of the descriptor format makes of a message on the wire. Every entry is
optional in it, so an entry that is empty or zero differs from one that is absent. Entries that this
schema language cannot set are kept as they are.

A text or a number that occurs twice has its last value. A known entry with a value of another kind
is an error, and so is a text that is not UTF-8. Messages are nested to any depth.

## Termination

`MessageRecord.decode` and `MessageRecord.addAll` call each other. The bytes are at least as many as
the total size of their entries (`Wire.totalSize_le_of_readEntries`), and the entries are more than
what one of them holds.
-/

namespace ProtoSchema

open Wire

/-! ## Values -/

namespace Wire

/-- The value as a text. -/
def Value.text? : Value → Option String
  | .counted payload => String.fromUTF8? payload.toByteArray
  | _ => none

/-- The value as a signed number, of which the low 32 bits count. -/
def Value.int32? : Value → Option Int32
  | .number n => some (UInt64.ofNat n).toInt64.toInt32
  | _ => none

/-- The value as a message. -/
def Value.message? {α : Type} (decode : List UInt8 → Option α) : Value → Option α
  | .counted payload => decode payload
  | _ => none

/-- Reads a record entry by entry. -/
def readRecord {α : Type} (w : Width) (add : α → Entry → Option α) (empty : α)
    (bytes : List UInt8) : Option α :=
  (readEntries w bytes).bind fun entries => entries.foldlM add empty

end Wire

/-! ## Fields -/

/-- A field. Its label and its type are any numbers. -/
structure FieldRecord where
  name : Option String := none
  number : Option Int32 := none
  label : Option Int32 := none
  type : Option Int32 := none
  typeName : Option String := none
  others : List Wire.Entry := []
deriving DecidableEq, Repr

namespace FieldRecord

/-- What an entry adds to a record. The numbers are those of the descriptor format. -/
def add (r : FieldRecord) : Wire.Entry → Option FieldRecord
  | ⟨1, v⟩ => v.text?.map fun name => { r with name := some name }
  | ⟨3, v⟩ => v.int32?.map fun number => { r with number := some number }
  | ⟨4, v⟩ => v.int32?.map fun label => { r with label := some label }
  | ⟨5, v⟩ => v.int32?.map fun type => { r with type := some type }
  | ⟨6, v⟩ => v.text?.map fun typeName => { r with typeName := some typeName }
  | e => some { r with others := r.others ++ [e] }

def decode (w : Width) : List UInt8 → Option FieldRecord := readRecord w add {}

end FieldRecord

/-! ## Messages -/

structure MessageRecord where
  name : Option String := none
  fields : List FieldRecord := []
  nested : List MessageRecord := []
  others : List Wire.Entry := []
deriving Repr

namespace MessageRecord

mutual

/-- Reads a message, and all messages inside it. -/
def decode (w : Width) (bytes : List UInt8) : Option MessageRecord :=
  match h : readEntries w bytes with
  | none => none
  | some entries =>
    have : totalSize entries ≤ bytes.length := totalSize_le_of_readEntries h
    addAll w {} entries
termination_by (bytes.length, 1)
decreasing_by
  rw [Prod.lex_def]
  dsimp only
  omega

/-- Adds entries in turn. -/
def addAll (w : Width) (r : MessageRecord) : List Wire.Entry → Option MessageRecord
  | [] => some r
  | ⟨1, v⟩ :: rest => v.text?.bind fun name => addAll w { r with name := some name } rest
  | ⟨2, v⟩ :: rest =>
    (v.message? (FieldRecord.decode w)).bind fun f =>
      addAll w { r with fields := r.fields ++ [f] } rest
  | ⟨3, .counted payload⟩ :: rest =>
    (decode w payload).bind fun m => addAll w { r with nested := r.nested ++ [m] } rest
  | ⟨3, _⟩ :: _ => none
  | e :: rest => addAll w { r with others := r.others ++ [e] } rest
termination_by entries => (totalSize entries, 0)
decreasing_by
  all_goals
    rw [Prod.lex_def, totalSize]
    dsimp only [Value.size]
    omega

end

end MessageRecord

/-! ## Files -/

structure FileRecord where
  name : Option String := none
  package : Option String := none
  messages : List MessageRecord := []
  others : List Wire.Entry := []
deriving Repr

namespace FileRecord

def add (w : Width) (r : FileRecord) : Wire.Entry → Option FileRecord
  | ⟨1, v⟩ => v.text?.map fun name => { r with name := some name }
  | ⟨2, v⟩ => v.text?.map fun package => { r with package := some package }
  | ⟨4, v⟩ =>
    (v.message? (MessageRecord.decode w)).map fun m => { r with messages := r.messages ++ [m] }
  | e => some { r with others := r.others ++ [e] }

def decode (w : Width) : List UInt8 → Option FileRecord := readRecord w (add w) {}

end FileRecord

structure FileSetRecord where
  files : List FileRecord := []
  others : List Wire.Entry := []
deriving Repr

namespace FileSetRecord

def add (w : Width) (r : FileSetRecord) : Wire.Entry → Option FileSetRecord
  | ⟨1, v⟩ => (v.message? (FileRecord.decode w)).map fun f => { r with files := r.files ++ [f] }
  | e => some { r with others := r.others ++ [e] }

def decode (w : Width) : List UInt8 → Option FileSetRecord := readRecord w (add w) {}

end FileSetRecord

/-! ## The records of descriptors -/

def FieldDescriptor.record (f : FieldDescriptor) : FieldRecord :=
  { name := some f.name
    number := some f.number
    label := some (Int32.ofNat f.label.code)
    type := f.type.scalar?.map fun t => Int32.ofNat t.code
    typeName := f.type.name? }

mutual

def MessageDescriptor.record : MessageDescriptor → MessageRecord
  | ⟨name, fields, nested⟩ =>
    { name := some name
      fields := fields.map FieldDescriptor.record
      nested := recordAll nested }

/-- The records of several messages. -/
def MessageDescriptor.recordAll : List MessageDescriptor → List MessageRecord
  | [] => []
  | m :: rest => m.record :: recordAll rest

end

def FileDescriptor.record (f : FileDescriptor) : FileRecord :=
  { name := f.name
    package := f.package
    messages := MessageDescriptor.recordAll f.messages }

/-! ## A record tells its descriptor -/

theorem Label.code_injective {l l' : Label} (h : Int32.ofNat l.code = Int32.ofNat l'.code) :
    l = l' := by
  revert h
  cases l <;> cases l' <;> decide

theorem ScalarType.code_injective {t t' : ScalarType}
    (h : Int32.ofNat t.code = Int32.ofNat t'.code) : t = t' := by
  revert h
  cases t <;> cases t' <;> decide

theorem FieldType.eq_of_record {t t' : FieldType}
    (hscalar : (t.scalar?.map fun s => Int32.ofNat s.code)
      = t'.scalar?.map fun s => Int32.ofNat s.code)
    (hname : t.name? = t'.name?) : t = t' := by
  cases t with
  | scalar s =>
    cases t' with
    | scalar s' => exact congrArg _ (ScalarType.code_injective (Option.some.inj hscalar))
    | named name => cases hname
  | named name =>
    cases t' with
    | scalar s' => cases hname
    | named name' => exact congrArg _ (Option.some.inj hname)

theorem FieldDescriptor.record_injective : Function.Injective FieldDescriptor.record := by
  rintro ⟨name, number, label, type⟩ ⟨name', number', label', type'⟩ h
  rw [record, record, FieldRecord.mk.injEq] at h
  obtain ⟨hname, hnumber, hlabel, htype, htypeName, -⟩ := h
  rw [FieldDescriptor.mk.injEq]
  exact ⟨Option.some.inj hname, Option.some.inj hnumber,
    Label.code_injective (Option.some.inj hlabel), FieldType.eq_of_record htype htypeName⟩

mutual

theorem MessageDescriptor.eq_of_record : ∀ m m' : MessageDescriptor, m.record = m'.record → m = m'
  | ⟨name, fields, nested⟩, ⟨name', fields', nested'⟩, h => by
    rw [record, record, MessageRecord.mk.injEq] at h
    obtain ⟨hname, hfields, hnested, -⟩ := h
    rw [Option.some.inj hname, List.map_injective_iff.mpr FieldDescriptor.record_injective hfields,
      eq_of_recordAll nested nested' hnested]

theorem MessageDescriptor.eq_of_recordAll :
    ∀ ms ms' : List MessageDescriptor, recordAll ms = recordAll ms' → ms = ms'
  | [], [], _ => rfl
  | m :: ms, m' :: ms', h => by
    rw [recordAll, recordAll, List.cons.injEq] at h
    rw [eq_of_record m m' h.1, eq_of_recordAll ms ms' h.2]
  | [], _ :: _, h => by cases h
  | _ :: _, [], h => by cases h

end

/-- **Files with the same record are the same.** -/
theorem FileDescriptor.record_injective : Function.Injective FileDescriptor.record := by
  rintro ⟨name, package, messages⟩ ⟨name', package', messages'⟩ h
  rw [record, record, FileRecord.mk.injEq] at h
  obtain ⟨hname, hpackage, hmessages, -⟩ := h
  cases hname
  cases hpackage
  rw [MessageDescriptor.eq_of_recordAll messages messages' hmessages]

end ProtoSchema
