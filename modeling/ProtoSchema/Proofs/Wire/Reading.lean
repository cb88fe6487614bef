import Mathlib.Algebra.Group.Nat.Defs
import ProtoSchema.Wire

/-!
# Reading the wire format

A reader takes a run of bytes apart into entries, and takes no run of which a byte is left over. It
knows of all values that are not groups, also of those that `ProtoSchema.Wire` never writes.

## Mechanism

What is written piece by piece is read piece by piece. `ReadsAs` says this of a single piece: in
front of any bytes, it is read as its entries, and then the bytes are. So it suffices to look at the
two writers, `number` and `counted`; everything else is put together with `ReadsAs.append`.

Texts and messages are counted, and a count may be any number. The readers have a `Width` that says
whether they take such numbers, or only those of 64 bits.

## Termination

`readEntries` recurses on the bytes behind an entry, and an entry is never empty.
-/

namespace ProtoSchema.Wire

/-! ## Numbers -/

/-- The numbers that a reader takes. -/
inductive Width where
  /-- Numbers of any size. -/
  | unbounded
  /-- Numbers of 64 bits, in ten bytes at most. -/
  | word
deriving DecidableEq, Repr

/-- The numbers of a width. -/
def Width.Fits : Width → Nat → Prop
  | .unbounded, _ => True
  | .word, n => n < 2 ^ 64

/-- A number in base 128, lowest digit first, and what is behind it. -/
def readDigits : List UInt8 → Option (Nat × List UInt8)
  | [] => none
  | b :: bytes =>
    if b.toNat < 128 then some (b.toNat, bytes)
    else (readDigits bytes).map fun (n, rest) => (b.toNat - 128 + 128 * n, rest)

/-- A number of some width, and what is behind it. -/
def readNumber : Width → List UInt8 → Option (Nat × List UInt8)
  | .unbounded, bytes => readDigits bytes
  | .word, bytes =>
    (readDigits bytes).filter fun (n, rest) => n < 2 ^ 64 ∧ bytes.length ≤ rest.length + 10

theorem Width.Fits.mono {w : Width} {m n : Nat} (hn : w.Fits n) (hle : m ≤ n) : w.Fits m := by
  cases w with
  | unbounded => trivial
  | word => exact Nat.lt_of_le_of_lt hle hn

theorem Width.fits_of_lt (w : Width) {n : Nat} (h : n < 2 ^ 64) : w.Fits n := by
  cases w with
  | unbounded => trivial
  | word => exact h

/-- **A number is read as it was written.** -/
theorem readDigits_varint (n : Nat) (rest : List UInt8) :
    readDigits (varint n ++ rest) = some (n, rest) := by
  fun_induction varint n with
  | case1 n hlt =>
    have hbyte : (UInt8.ofNat n).toNat = n := UInt8.toNat_ofNat_of_lt' (show n < 256 by omega)
    rw [List.singleton_append, readDigits, hbyte, if_pos hlt]
  | case2 n hge ih =>
    have hbyte : (UInt8.ofNat (n % 128 + 128)).toNat = n % 128 + 128 :=
      UInt8.toNat_ofNat_of_lt' (show n % 128 + 128 < 256 by omega)
    rw [List.cons_append, readDigits, hbyte, if_neg (by omega), ih, Option.map_some,
      Nat.add_sub_cancel]
    dsimp only
    rw [Nat.mod_add_div]

/-- So many digits, so many bytes. -/
theorem length_varint_le {n k : Nat} (h : n < 128 ^ (k + 1)) : (varint n).length ≤ k + 1 := by
  induction k generalizing n with
  | zero =>
    rw [varint, if_pos (by omega)]
    exact Nat.le_refl 1
  | succ k ih =>
    rw [varint]
    split
    · simp
    · have hdigit : n / 128 < 128 ^ (k + 1) := by
        rw [Nat.div_lt_iff_lt_mul (by decide), ← Nat.pow_succ]
        exact h
      exact Nat.succ_le_succ (ih hdigit)

theorem readNumber_varint {w : Width} {n : Nat} (h : w.Fits n) (rest : List UInt8) :
    readNumber w (varint n ++ rest) = some (n, rest) := by
  cases w with
  | unbounded => exact readDigits_varint n rest
  | word =>
    have hlength : (varint n).length ≤ 9 + 1 := length_varint_le (Nat.lt_trans h (by decide))
    have hn : n < 2 ^ 64 := h
    rw [readNumber, readDigits_varint, Option.filter_some, if_pos]
    rw [decide_eq_true_eq, List.length_append]
    exact ⟨hn, by omega⟩

/-- Two bytes for 300, ten bytes for the largest number of 64 bits, and one byte too many. -/
example : readNumber .word [0xac, 0x02, 0x08] = some (300, [0x08]) ∧
    readNumber .word (List.replicate 9 0xff ++ [0x01]) = some (2 ^ 64 - 1, []) ∧
      readNumber .word (List.replicate 10 0x80 ++ [0x00]) = none := by
  decide

theorem length_lt_of_readDigits {bytes rest : List UInt8} {n : Nat}
    (h : readDigits bytes = some (n, rest)) : rest.length < bytes.length := by
  induction bytes generalizing n with
  | nil => cases h
  | cons b bytes ih =>
    rw [readDigits] at h
    split at h
    · cases h
      exact Nat.lt_succ_self _
    · obtain ⟨⟨m, rest'⟩, hrest, heq⟩ := Option.map_eq_some_iff.mp h
      cases heq
      exact Nat.lt_succ_of_lt (ih hrest)

theorem length_lt_of_readNumber {w : Width} {bytes rest : List UInt8} {n : Nat}
    (h : readNumber w bytes = some (n, rest)) : rest.length < bytes.length := by
  cases w with
  | unbounded => exact length_lt_of_readDigits h
  | word => exact length_lt_of_readDigits (Option.filter_eq_some_iff.mp h).1

/-! ## Entries -/

/-- The value of an entry. -/
inductive Value where
  | number (n : Nat)
  | fixed64 (payload : List UInt8)
  | counted (payload : List UInt8)
  | fixed32 (payload : List UInt8)
deriving DecidableEq, Repr

structure Entry where
  field : Nat
  value : Value
deriving DecidableEq, Repr

/-- So many bytes, and those behind them. -/
def readBytes (count : Nat) (bytes : List UInt8) : Option (List UInt8 × List UInt8) :=
  if count ≤ bytes.length then some (bytes.take count, bytes.drop count) else none

/-- A value of the kind with this code, and what is behind it. Codes 3 and 4 are the brackets of a
group, and 6 and 7 have no meaning. -/
def readValue (w : Width) (code : Nat) (bytes : List UInt8) : Option (Value × List UInt8) :=
  match code with
  | 0 => (readNumber w bytes).map fun (n, rest) => (.number n, rest)
  | 1 => (readBytes 8 bytes).map fun (payload, rest) => (.fixed64 payload, rest)
  | 2 => (readNumber w bytes).bind fun (count, rest) =>
      (readBytes count rest).map fun (payload, rest) => (.counted payload, rest)
  | 5 => (readBytes 4 bytes).map fun (payload, rest) => (.fixed32 payload, rest)
  | _ => none

/-- An entry, and what is behind it. A key has 32 bits, and no field has the number 0. -/
def readEntry (w : Width) (bytes : List UInt8) : Option (Entry × List UInt8) :=
  (readNumber w bytes).bind fun (key, rest) =>
    if 8 ≤ key ∧ key < 2 ^ 32 then
      (readValue w (key % 8) rest).map fun (value, rest) => (⟨key / 8, value⟩, rest)
    else none

/-- How many bytes a value holds behind its count. -/
def Value.size : Value → Nat
  | .counted payload => payload.length
  | _ => 0

theorem length_of_readBytes {count : Nat} {bytes payload rest : List UInt8}
    (h : readBytes count bytes = some (payload, rest)) :
    payload.length + rest.length = bytes.length := by
  unfold readBytes at h
  split at h
  · cases h
    rw [← List.length_append, List.take_append_drop]
  · cases h

theorem size_le_of_readValue {w : Width} {code : Nat} {bytes rest : List UInt8} {value : Value}
    (h : readValue w code bytes = some (value, rest)) :
    value.size + rest.length ≤ bytes.length := by
  unfold readValue at h
  split at h
  · obtain ⟨⟨n, rest'⟩, hread, heq⟩ := Option.map_eq_some_iff.mp h
    cases heq
    have hlt := length_lt_of_readNumber hread
    simp only [Value.size]
    omega
  · obtain ⟨⟨payload, rest'⟩, hread, heq⟩ := Option.map_eq_some_iff.mp h
    cases heq
    have hlength := length_of_readBytes hread
    simp only [Value.size]
    omega
  · obtain ⟨⟨count, counted⟩, hread, h⟩ := Option.bind_eq_some_iff.mp h
    obtain ⟨⟨payload, rest'⟩, hread', heq⟩ := Option.map_eq_some_iff.mp h
    cases heq
    have hlt := length_lt_of_readNumber hread
    have hlength := length_of_readBytes hread'
    simp only [Value.size]
    omega
  · obtain ⟨⟨payload, rest'⟩, hread, heq⟩ := Option.map_eq_some_iff.mp h
    cases heq
    have hlength := length_of_readBytes hread
    simp only [Value.size]
    omega
  · cases h

/-- **An entry is longer than what it holds.** -/
theorem size_lt_of_readEntry {w : Width} {bytes rest : List UInt8} {e : Entry}
    (h : readEntry w bytes = some (e, rest)) : e.value.size + rest.length < bytes.length := by
  obtain ⟨⟨key, behind⟩, hread, h⟩ := Option.bind_eq_some_iff.mp h
  dsimp only at h
  split at h
  · obtain ⟨⟨value, rest'⟩, hread', heq⟩ := Option.map_eq_some_iff.mp h
    cases heq
    exact Nat.lt_of_le_of_lt (size_le_of_readValue hread') (length_lt_of_readNumber hread)
  · cases h

/-- All entries up to the end of the bytes. -/
def readEntries (w : Width) (bytes : List UInt8) : Option (List Entry) :=
  match bytes with
  | [] => some []
  | b :: bytes =>
    match h : readEntry w (b :: bytes) with
    | none => none
    | some (e, rest) =>
      have : rest.length < (b :: bytes).length :=
        Nat.lt_of_le_of_lt (Nat.le_add_left _ _) (size_lt_of_readEntry h)
      (readEntries w rest).map (e :: ·)
termination_by bytes.length
decreasing_by exact this

theorem readEntries_of_readEntry {w : Width} {bytes rest : List UInt8} {e : Entry}
    (h : readEntry w bytes = some (e, rest)) :
    readEntries w bytes = (readEntries w rest).map (e :: ·) := by
  cases bytes with
  | nil => exact absurd (size_lt_of_readEntry h) (Nat.not_lt_zero _)
  | cons b bytes =>
    rw [readEntries]
    split
    · next hnone =>
      rw [h] at hnone
      cases hnone
    · next hsome =>
      rw [h] at hsome
      cases hsome
      rfl

/-- What entries hold, and one more for each entry. -/
def totalSize : List Entry → Nat
  | [] => 0
  | e :: rest => e.value.size + 1 + totalSize rest

/-- **Entries are together as long as the bytes at most.** -/
theorem totalSize_le_of_readEntries {w : Width} {bytes : List UInt8} {entries : List Entry}
    (h : readEntries w bytes = some entries) : totalSize entries ≤ bytes.length := by
  fun_induction readEntries w bytes generalizing entries with
  | case1 =>
    cases h
    exact Nat.le_refl 0
  | case2 => cases h
  | case3 b bytes e rest hread hlt ih =>
    obtain ⟨later, hlater, rfl⟩ := Option.map_eq_some_iff.mp h
    have hsize := size_lt_of_readEntry hread
    have htotal := ih hlater
    rw [totalSize]
    omega

/-! ## Reading what was written -/

/-- The numbers of fields. -/
def IsFieldNumber (field : Nat) : Prop := 0 < field ∧ field < 2 ^ 29

instance (field : Nat) : Decidable (IsFieldNumber field) :=
  inferInstanceAs (Decidable (_ ∧ _))

/-- A key is read back, and a value of its kind is read behind it. -/
theorem readEntry_key {w : Width} {field : Nat} (hfield : IsFieldNumber field) (kind : Kind)
    (bytes : List UInt8) :
    readEntry w (key field kind ++ bytes)
      = (readValue w kind.code bytes).map fun (value, rest) => (⟨field, value⟩, rest) := by
  have hcode : kind.code < 8 := by cases kind <;> decide
  obtain ⟨hpos, hlt⟩ := hfield
  have hfits : w.Fits (8 * field + kind.code) := w.fits_of_lt (by omega)
  rw [readEntry, key, readNumber_varint hfits, Option.bind_some]
  show (if _ then _ else _) = _
  rw [if_pos (by omega), Nat.mul_add_mod, Nat.mod_eq_of_lt hcode, Nat.mul_add_div (by decide),
    Nat.div_eq_of_lt hcode]
  rfl

theorem readEntry_number {w : Width} {field n : Nat} (hfield : IsFieldNumber field)
    (hn : w.Fits n) (rest : List UInt8) :
    readEntry w (number field n ++ rest) = some (⟨field, .number n⟩, rest) := by
  rw [number, List.append_assoc, readEntry_key hfield]
  show ((readNumber w (varint n ++ rest)).map _).map _ = _
  rw [readNumber_varint hn]
  rfl

theorem readBytes_append (payload rest : List UInt8) :
    readBytes payload.length (payload ++ rest) = some (payload, rest) := by
  rw [readBytes, if_pos (by rw [List.length_append]; omega), List.take_left, List.drop_left]

theorem readEntry_counted {w : Width} {field : Nat} {payload : List UInt8}
    (hfield : IsFieldNumber field) (hcount : w.Fits payload.length) (rest : List UInt8) :
    readEntry w (counted field payload ++ rest) = some (⟨field, .counted payload⟩, rest) := by
  rw [counted, List.append_assoc, List.append_assoc, readEntry_key hfield]
  show ((readNumber w (varint payload.length ++ (payload ++ rest))).bind _).map _ = _
  rw [readNumber_varint hcount, Option.bind_some]
  show ((readBytes payload.length (payload ++ rest)).map _).map _ = _
  rw [readBytes_append]
  rfl

/-- The bytes are read as the entries, wherever they stand. -/
def ReadsAs (w : Width) (bytes : List UInt8) (entries : List Entry) : Prop :=
  ∀ rest, readEntries w (bytes ++ rest) = (readEntries w rest).map (entries ++ ·)

namespace ReadsAs

variable {w : Width} {bytes bytes' : List UInt8} {entries entries' : List Entry}

theorem nil : ReadsAs w [] [] := by
  intro rest
  cases h : readEntries w rest <;> rw [List.nil_append, h] <;> rfl

theorem append (h : ReadsAs w bytes entries) (h' : ReadsAs w bytes' entries') :
    ReadsAs w (bytes ++ bytes') (entries ++ entries') := by
  intro rest
  rw [List.append_assoc, h, h', Option.map_map]
  congr 1
  funext later
  exact (List.append_assoc _ _ _).symm

theorem of_readEntry {e : Entry} (h : ∀ rest, readEntry w (bytes ++ rest) = some (e, rest)) :
    ReadsAs w bytes [e] :=
  fun rest => readEntries_of_readEntry (h rest)

theorem number {field n : Nat} (hfield : IsFieldNumber field) (hn : w.Fits n) :
    ReadsAs w (Wire.number field n) [⟨field, .number n⟩] :=
  of_readEntry (readEntry_number hfield hn)

theorem counted {field : Nat} {payload : List UInt8} (hfield : IsFieldNumber field)
    (hcount : w.Fits payload.length) :
    ReadsAs w (Wire.counted field payload) [⟨field, .counted payload⟩] :=
  of_readEntry (readEntry_counted hfield hcount)

theorem flatMap {α : Type} {write : α → List UInt8} {entry : α → Entry} {items : List α}
    (h : ∀ a ∈ items, ReadsAs w (write a) [entry a]) :
    ReadsAs w (items.flatMap write) (items.map entry) := by
  induction items with
  | nil => exact nil
  | cons a items ih =>
    rw [List.forall_mem_cons] at h
    exact h.1.append (ih h.2)

/-- **Bytes that are read as entries wherever they stand are read so alone.** -/
theorem readEntries_eq (h : ReadsAs w bytes entries) : readEntries w bytes = some entries := by
  have halone := h []
  rw [List.append_nil, readEntries, Option.map_some, List.append_nil] at halone
  exact halone

end ReadsAs

/-! ## Counts

Everything that is counted is part of what is written. -/

theorem Width.Fits.of_counted {w : Width} {field : Nat} {payload : List UInt8}
    (h : w.Fits (counted field payload).length) : w.Fits payload.length := by
  refine h.mono ?_
  rw [counted, List.length_append]
  exact Nat.le_add_left _ _

theorem Width.Fits.of_append_left {w : Width} {bytes bytes' : List UInt8}
    (h : w.Fits (bytes ++ bytes').length) : w.Fits bytes.length := by
  refine h.mono ?_
  rw [List.length_append]
  exact Nat.le_add_right _ _

theorem Width.Fits.of_append_right {w : Width} {bytes bytes' : List UInt8}
    (h : w.Fits (bytes ++ bytes').length) : w.Fits bytes'.length := by
  refine h.mono ?_
  rw [List.length_append]
  exact Nat.le_add_left _ _

theorem Width.Fits.of_mem_flatMap {w : Width} {α : Type} {write : α → List UInt8} {items : List α}
    {a : α} (h : w.Fits (items.flatMap write).length) (ha : a ∈ items) :
    w.Fits (write a).length := by
  obtain ⟨front, back, rfl⟩ := List.append_of_mem ha
  rw [List.flatMap_append, List.flatMap_cons] at h
  exact h.of_append_right.of_append_left

end ProtoSchema.Wire
