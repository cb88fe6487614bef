import ProtoSchema.Compilation
import ProtoSchema.Proofs.Descriptor.Record

/-!
# Descriptors are read back from the wire

What `encode` writes is read as the record of the descriptor, with no byte left over. So descriptors
that are written alike are the same.

## Mechanism

Each descriptor is written as a list of entries (`FieldDescriptor.entries` and the like). The bytes
are read as these entries, and the entries make up the record. Every count that is written is at most
the length of all bytes, so it has the width of the reader if that length has.

Main statement: `Compilation.decode_encode`.
-/

namespace ProtoSchema

open Wire

variable {w : Width}

/-! ## Texts, numbers and repeated entries -/

namespace Wire

/-- A text as an entry. -/
def textEntry (field : Nat) (s : String) : Entry := ⟨field, .counted s.toUTF8.data.toList⟩

theorem ReadsAs.text {field : Nat} {s : String} (hfield : IsFieldNumber field)
    (hfits : w.Fits (Wire.text field s).length) :
    ReadsAs w (Wire.text field s) [textEntry field s] :=
  ReadsAs.counted hfield hfits.of_counted

theorem text?_textEntry (field : Nat) (s : String) : (textEntry field s).value.text? = some s := by
  have hbytes : s.toUTF8.data.toList.toByteArray = s.toUTF8 := by
    apply ByteArray.ext
    rw [List.data_toByteArray, Array.toArray_toList]
  rw [textEntry, Value.text?, hbytes, String.fromUTF8?, String.toUTF8_eq_toByteArray,
    dif_pos s.isValidUTF8]
  rfl

/-- **A number that is extended by its sign is read back.** -/
theorem int32?_number (n : Int32) :
    (Value.number n.toInt64.toUInt64.toNat).int32? = some n := by
  rw [Value.int32?, UInt64.ofNat_toNat]
  exact congrArg some n.toInt32_toInt64

theorem foldlM_cons_of_some {α : Type} {add : α → Entry → Option α} {r r' : α} {e : Entry}
    (h : add r e = some r') (rest : List Entry) :
    (e :: rest).foldlM add r = rest.foldlM add r' := by
  rw [List.foldlM_cons, h]
  rfl

/-- If each of several entries adds its value to a list, all of them add their values in turn. -/
theorem run_repeated {α β γ : Type} (run : α → List Entry → Option α) (put : List γ → α)
    {entry : β → Entry} {value : β → γ} {items : List β}
    (h : ∀ a ∈ items, ∀ done rest,
      run (put done) (entry a :: rest) = run (put (done ++ [value a])) rest)
    (done : List γ) (rest : List Entry) :
    run (put done) (items.map entry ++ rest) = run (put (done ++ items.map value)) rest := by
  induction items generalizing done with
  | nil => rw [List.map_nil, List.map_nil, List.nil_append, List.append_nil]
  | cons a items ih =>
    rw [List.forall_mem_cons] at h
    rw [List.map_cons, List.cons_append, h.1, ih h.2, List.map_cons, List.append_assoc,
      List.singleton_append]

theorem readRecord_of_readsAs {α : Type} {add : α → Entry → Option α} {empty : α}
    {bytes : List UInt8} {entries : List Entry} (h : ReadsAs w bytes entries) :
    readRecord w add empty bytes = entries.foldlM add empty := by
  rw [readRecord, h.readEntries_eq, Option.bind_some]

end Wire

/-! ## Fields -/

def FieldType.entry : FieldType → Wire.Entry
  | .scalar t => ⟨5, .number t.code⟩
  | .named name => textEntry 6 name

/-- What is written of a field. -/
def FieldDescriptor.entries (f : FieldDescriptor) : List Wire.Entry :=
  [textEntry 1 f.name, ⟨3, .number f.number.toInt64.toUInt64.toNat⟩, ⟨4, .number f.label.code⟩,
    f.type.entry]

theorem FieldType.readsAs_encode (t : FieldType) (h : w.Fits t.encode.length) :
    ReadsAs w t.encode [t.entry] := by
  cases t with
  | scalar t => exact ReadsAs.number (by decide) (w.fits_of_lt (by cases t <;> decide))
  | named name => exact ReadsAs.text (by decide) h

theorem FieldDescriptor.readsAs_encode (f : FieldDescriptor) (h : w.Fits f.encode.length) :
    ReadsAs w f.encode f.entries := by
  have hname : w.Fits (Wire.text 1 f.name).length :=
    h.of_append_left.of_append_left.of_append_left
  have hnumber : w.Fits f.number.toInt64.toUInt64.toNat := w.fits_of_lt (UInt64.toNat_lt _)
  have hlabel : w.Fits f.label.code := w.fits_of_lt (by cases f.label <;> decide)
  exact (((ReadsAs.text (by decide) hname).append (ReadsAs.number (by decide) hnumber)).append
    (ReadsAs.number (by decide) hlabel)).append (f.type.readsAs_encode h.of_append_right)

theorem Label.int32?_code (l : Label) :
    (Value.number l.code).int32? = some (Int32.ofNat l.code) := by
  cases l <;> rfl

theorem ScalarType.int32?_code (t : ScalarType) :
    (Value.number t.code).int32? = some (Int32.ofNat t.code) := by
  cases t <;> rfl

namespace FieldRecord

theorem add_name (r : FieldRecord) (s : String) :
    r.add (textEntry 1 s) = some { r with name := some s } := by
  show (textEntry 1 s).value.text?.map _ = _
  rw [text?_textEntry]
  rfl

theorem add_number (r : FieldRecord) (n : Int32) :
    r.add ⟨3, .number n.toInt64.toUInt64.toNat⟩ = some { r with number := some n } := by
  rw [add, int32?_number]
  rfl

theorem add_label (r : FieldRecord) (l : Label) :
    r.add ⟨4, .number l.code⟩ = some { r with label := some (Int32.ofNat l.code) } := by
  rw [add, l.int32?_code]
  rfl

theorem add_type {r : FieldRecord} (htype : r.type = none) (hname : r.typeName = none)
    (t : FieldType) :
    r.add t.entry = some { r with
      type := t.scalar?.map fun s => Int32.ofNat s.code
      typeName := t.name? } := by
  obtain ⟨name, number, label, type, typeName, others⟩ := r
  cases htype
  cases hname
  cases t with
  | scalar t =>
    rw [FieldType.entry, add, t.int32?_code]
    rfl
  | named s =>
    show (textEntry 6 s).value.text?.map _ = _
    rw [text?_textEntry]
    rfl

/-- **A field is read back.** -/
theorem decode_field (f : FieldDescriptor) (h : w.Fits f.encode.length) :
    decode w f.encode = some f.record := by
  rw [decode, readRecord_of_readsAs (f.readsAs_encode h), FieldDescriptor.entries,
    foldlM_cons_of_some (add_name _ _), foldlM_cons_of_some (add_number _ _),
    foldlM_cons_of_some (add_label _ _), foldlM_cons_of_some (add_type rfl rfl _)]
  rfl

end FieldRecord

/-! ## Messages -/

theorem MessageDescriptor.encodeAll_eq_flatMap (field : Nat) (ms : List MessageDescriptor) :
    encodeAll field ms = ms.flatMap fun m => Wire.counted field m.encode := by
  induction ms with
  | nil => rw [encodeAll, List.flatMap_nil]
  | cons m ms ih => rw [encodeAll, ih, List.flatMap_cons]

theorem MessageDescriptor.recordAll_eq_map (ms : List MessageDescriptor) :
    recordAll ms = ms.map MessageDescriptor.record := by
  induction ms with
  | nil => rw [recordAll, List.map_nil]
  | cons m ms ih => rw [recordAll, ih, List.map_cons]

/-- What is written of a message. -/
def MessageDescriptor.entries (m : MessageDescriptor) : List Wire.Entry :=
  [textEntry 1 m.name] ++ m.fields.map (fun f => ⟨2, .counted f.encode⟩)
    ++ m.nested.map (fun n => ⟨3, .counted n.encode⟩)

/-- Messages under one field number are read as one entry each. -/
theorem MessageDescriptor.readsAs_encodeAll {field : Nat} (hfield : IsFieldNumber field)
    {ms : List MessageDescriptor} (h : w.Fits (encodeAll field ms).length) :
    ReadsAs w (encodeAll field ms) (ms.map fun m => ⟨field, .counted m.encode⟩) := by
  rw [encodeAll_eq_flatMap] at h ⊢
  exact ReadsAs.flatMap fun m hm => ReadsAs.counted hfield (h.of_mem_flatMap hm).of_counted

theorem MessageDescriptor.readsAs_encode (m : MessageDescriptor) (h : w.Fits m.encode.length) :
    ReadsAs w m.encode m.entries := by
  obtain ⟨name, fields, nested⟩ := m
  rw [encode] at h ⊢
  have hfields : w.Fits (fields.flatMap fun f => Wire.counted 2 f.encode).length :=
    h.of_append_left.of_append_right
  exact ((ReadsAs.text (by decide) h.of_append_left.of_append_left).append
    (ReadsAs.flatMap fun f hf =>
      ReadsAs.counted (by decide) (hfields.of_mem_flatMap hf).of_counted)).append
    (readsAs_encodeAll (by decide) h.of_append_right)

namespace MessageRecord

theorem decode_of_readsAs {bytes : List UInt8} {entries : List Wire.Entry}
    (h : ReadsAs w bytes entries) : decode w bytes = addAll w {} entries := by
  rw [decode]
  split
  · next hnone =>
    rw [h.readEntries_eq] at hnone
    cases hnone
  · next hsome =>
    rw [h.readEntries_eq] at hsome
    cases hsome
    rfl

theorem addAll_name (r : MessageRecord) (s : String) (rest : List Wire.Entry) :
    addAll w r (textEntry 1 s :: rest) = addAll w { r with name := some s } rest := by
  rw [textEntry, addAll]
  show (textEntry 1 s).value.text?.bind _ = _
  rw [text?_textEntry, Option.bind_some]

theorem addAll_fields {fs : List FieldDescriptor}
    (h : ∀ f ∈ fs, FieldRecord.decode w f.encode = some f.record) (r : MessageRecord)
    (rest : List Wire.Entry) :
    addAll w r (fs.map (fun f => ⟨2, .counted f.encode⟩) ++ rest)
      = addAll w { r with fields := r.fields ++ fs.map FieldDescriptor.record } rest := by
  obtain ⟨name, fields, nested, others⟩ := r
  refine run_repeated (addAll w) (fun fields => ⟨name, fields, nested, others⟩) ?_ fields rest
  intro f hf done rest
  rw [addAll, Value.message?, h f hf, Option.bind_some]

theorem addAll_nested {ms : List MessageDescriptor}
    (h : ∀ m ∈ ms, decode w m.encode = some m.record) (r : MessageRecord)
    (rest : List Wire.Entry) :
    addAll w r (ms.map (fun m => ⟨3, .counted m.encode⟩) ++ rest)
      = addAll w { r with nested := r.nested ++ ms.map MessageDescriptor.record } rest := by
  obtain ⟨name, fields, nested, others⟩ := r
  refine run_repeated (addAll w) (fun nested => ⟨name, fields, nested, others⟩) ?_ nested rest
  intro m hm done rest
  rw [addAll, h m hm, Option.bind_some]

/-- The entries of a message make up its record, if those of the messages inside it do. -/
theorem decode_of_nested {m : MessageDescriptor} (h : w.Fits m.encode.length)
    (hnested : ∀ n ∈ m.nested, w.Fits n.encode.length → decode w n.encode = some n.record) :
    decode w m.encode = some m.record := by
  rw [decode_of_readsAs (m.readsAs_encode h)]
  obtain ⟨name, fields, nested⟩ := m
  rw [MessageDescriptor.encode, MessageDescriptor.encodeAll_eq_flatMap] at h
  have hfields : w.Fits (fields.flatMap fun f => Wire.counted 2 f.encode).length :=
    h.of_append_left.of_append_right
  have hmessages : w.Fits (nested.flatMap fun n => Wire.counted 3 n.encode).length :=
    h.of_append_right
  rw [MessageDescriptor.entries, List.append_assoc, List.singleton_append, addAll_name,
    addAll_fields fun f hf => FieldRecord.decode_field f (hfields.of_mem_flatMap hf).of_counted,
    ← List.append_nil (nested.map _),
    addAll_nested fun n hn => hnested n hn (hmessages.of_mem_flatMap hn).of_counted, addAll,
    MessageDescriptor.record, MessageDescriptor.recordAll_eq_map]
  rfl

mutual

/-- **A message is read back**, with all the messages inside it. -/
theorem decode_message : ∀ m : MessageDescriptor, w.Fits m.encode.length →
    decode w m.encode = some m.record
  | ⟨_, _, nested⟩, h => decode_of_nested h (decode_messages nested)

theorem decode_messages : ∀ ms : List MessageDescriptor, ∀ m ∈ ms, w.Fits m.encode.length →
    decode w m.encode = some m.record
  | m :: _, _, .head _, h => decode_message m h
  | _ :: ms, m, .tail _ hm, h => decode_messages ms m hm h

end

end MessageRecord

/-! ## Files -/

/-- An optional text as at most one entry. -/
def optionalEntry (field : Nat) : Option String → List Wire.Entry
  | none => []
  | some s => [textEntry field s]

/-- What is written of a file. -/
def FileDescriptor.entries (f : FileDescriptor) : List Wire.Entry :=
  optionalEntry 1 f.name ++ optionalEntry 2 f.package
    ++ f.messages.map (fun m => ⟨4, .counted m.encode⟩)

theorem readsAs_encodeOptional {field : Nat} (hfield : IsFieldNumber field) {text : Option String}
    (h : w.Fits (encodeOptional field text).length) :
    ReadsAs w (encodeOptional field text) (optionalEntry field text) := by
  cases text with
  | none => exact ReadsAs.nil
  | some s => exact ReadsAs.text hfield h

theorem FileDescriptor.readsAs_encode (f : FileDescriptor) (h : w.Fits f.encode.length) :
    ReadsAs w f.encode f.entries :=
  ((readsAs_encodeOptional (by decide) h.of_append_left.of_append_left).append
    (readsAs_encodeOptional (by decide) h.of_append_left.of_append_right)).append
    (MessageDescriptor.readsAs_encodeAll (by decide) h.of_append_right)

/-- An optional text is added if there is one. -/
theorem foldlM_optionalEntry {α : Type} {add : α → Wire.Entry → Option α} {field : Nat}
    (put : Option String → α)
    (h : ∀ s, add (put none) (textEntry field s) = some (put (some s))) (text : Option String)
    (rest : List Wire.Entry) :
    (optionalEntry field text ++ rest).foldlM add (put none) = rest.foldlM add (put text) := by
  cases text with
  | none => rfl
  | some s => exact foldlM_cons_of_some (h s) rest

namespace FileRecord

theorem add_name (r : FileRecord) (s : String) :
    r.add w (textEntry 1 s) = some { r with name := some s } := by
  show (textEntry 1 s).value.text?.map _ = _
  rw [text?_textEntry]
  rfl

theorem add_package (r : FileRecord) (s : String) :
    r.add w (textEntry 2 s) = some { r with package := some s } := by
  show (textEntry 2 s).value.text?.map _ = _
  rw [text?_textEntry]
  rfl

theorem foldlM_add_texts (name package : Option String) (rest : List Wire.Entry) :
    (optionalEntry 1 name ++ (optionalEntry 2 package ++ rest)).foldlM (add w) {}
      = rest.foldlM (add w) { name, package } :=
  calc
    _ = (optionalEntry 2 package ++ rest).foldlM (add w) { name } :=
      foldlM_optionalEntry (fun name => ({ name } : FileRecord)) (add_name _) name _
    _ = _ :=
      foldlM_optionalEntry (fun package => ({ name, package } : FileRecord)) (add_package _) package
        rest

theorem foldlM_add_messages {ms : List MessageDescriptor}
    (h : ∀ m ∈ ms, MessageRecord.decode w m.encode = some m.record) (name package : Option String) :
    (ms.map fun m => ⟨4, .counted m.encode⟩).foldlM (add w) { name, package }
      = some { name, package, messages := ms.map MessageDescriptor.record } := by
  rw [← List.append_nil (ms.map _)]
  refine run_repeated (fun r entries => entries.foldlM (add w) r)
    (fun messages => { name, package, messages }) ?_ [] []
  intro m hm done rest
  refine foldlM_cons_of_some ?_ rest
  rw [add, Value.message?, h m hm]
  rfl

/-- **A file is read back.** -/
theorem decode_file (f : FileDescriptor) (h : w.Fits f.encode.length) :
    decode w f.encode = some f.record := by
  have hmessages : w.Fits (f.messages.flatMap fun m => Wire.counted 4 m.encode).length := by
    rw [← MessageDescriptor.encodeAll_eq_flatMap]
    exact h.of_append_right
  rw [decode, readRecord_of_readsAs (f.readsAs_encode h), FileDescriptor.entries,
    List.append_assoc, foldlM_add_texts,
    foldlM_add_messages fun m hm =>
      MessageRecord.decode_message m (hmessages.of_mem_flatMap hm).of_counted,
    FileDescriptor.record, MessageDescriptor.recordAll_eq_map]

end FileRecord

/-! ## Sets of files -/

/-- **A set of files is read back.** -/
theorem FileSetRecord.decode_files (files : List FileDescriptor)
    (h : w.Fits (encodeFiles files).length) :
    decode w (encodeFiles files) = some { files := files.map FileDescriptor.record } := by
  have hfits : ∀ f ∈ files, w.Fits f.encode.length :=
    fun f hf => (h.of_mem_flatMap hf).of_counted
  have hreads : ReadsAs w (encodeFiles files) (files.map fun f => ⟨1, .counted f.encode⟩) :=
    ReadsAs.flatMap fun f hf => ReadsAs.counted (by decide) (hfits f hf)
  rw [decode, readRecord_of_readsAs hreads, ← List.append_nil (files.map fun f => _)]
  refine run_repeated (fun r entries => entries.foldlM (add w) r) (fun files => { files })
    ?_ [] []
  intro f hf done rest
  refine foldlM_cons_of_some ?_ rest
  rw [add, Value.message?, FileRecord.decode_file f (hfits f hf)]
  rfl

/-- An empty package takes two bytes (`0x12, 0x00`), and a negative number ten behind its key. -/
example : encodeFiles [{ name := some "f", package := some "", messages := [
      { name := "M", fields := [{ name := "x", number := -1, label := .optional, type := .named "T" }],
        nested := [] }] }]
    = [0x0a, 31, 0x0a, 1, 0x66, 0x12, 0, 0x22, 24, 0x0a, 1, 0x4d, 0x12, 19, 0x0a, 1, 0x78,
      0x18, 0xff, 0xff, 0xff, 0xff, 0xff, 0xff, 0xff, 0xff, 0xff, 1, 0x20, 1, 0x32, 1, 0x54] := by
  decide +kernel

/-- **The descriptors of a compilation are read back from the wire.** Whatever the files are, all
bytes are read, and what is read is the record of each file in turn, with nothing else in it. A
reader of 64-bit numbers reads the same, unless there are more bytes than it can count. So the bytes
tell the files. -/
theorem Compilation.decode_encode (c : Compilation) :
    FileSetRecord.decode .unbounded c.encode.data.toList
        = some { files := c.files.toList.map FileDescriptor.record } ∧
      (c.encode.size < 2 ^ 64 →
        FileSetRecord.decode .word c.encode.data.toList
          = some { files := c.files.toList.map FileDescriptor.record }) ∧
      ∀ c' : Compilation, c'.encode = c.encode → c'.files = c.files := by
  have hbytes : ∀ c : Compilation, c.encode.data.toList = encodeFiles c.files.toList :=
    fun _ => List.toList_toArray
  have hread : ∀ c : Compilation, FileSetRecord.decode .unbounded c.encode.data.toList
      = some { files := c.files.toList.map FileDescriptor.record } := by
    intro c
    rw [hbytes]
    exact FileSetRecord.decode_files _ trivial
  refine ⟨hread c, ?_, ?_⟩
  · intro hsize
    rw [hbytes]
    refine FileSetRecord.decode_files _ ?_
    rw [← hbytes]
    exact hsize
  · intro c' hsame
    have hrecords := hread c'
    rw [hsame, hread c, Option.some.injEq, FileSetRecord.mk.injEq] at hrecords
    exact Array.toList_inj.mp
      (FileDescriptor.record_injective.list_map hrecords.1.symm)

/-- A file without a name but with an empty package; in it a negative number, the empty name of a
type, and a message inside a message. -/
theorem Compilation.decode_encode_negative :
    let c : Compilation := { Compilation.start (.chain []) with
      files := #[{ name := none, package := some "", messages := [
        { name := "M", fields := [{ name := "x", number := -1, label := .repeated,
                                    type := .named "" }],
          nested := [{ name := "N", fields := [], nested := [] }] }] }] }
    c.encode.size < 2 ^ 64 ∧
      FileSetRecord.decode .word c.encode.data.toList = some { files := [
        { package := some "", messages := [
          { name := some "M", fields := [{ name := some "x", number := some (-1),
                                           label := some 3, typeName := some "" }],
            nested := [{ name := some "N" }] }] }] } := by
  intro c
  have hsize : c.encode.size < 2 ^ 64 := by decide +kernel
  exact ⟨hsize, (Compilation.decode_encode c).2.1 hsize⟩

end ProtoSchema
