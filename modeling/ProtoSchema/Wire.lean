/-!
# Wire format

A message on the wire is a sequence of entries. Each begins with a key, which holds the field number
and the kind of the value. Numbers are written in base 128, lowest digit first, and every byte but
the last has its top bit set. Texts and nested messages are preceded by their length in bytes.

## Termination

`varint` recurses on the quotient by 128.
-/

namespace ProtoSchema.Wire

/-- A number in base 128, lowest digit first. -/
def varint (n : Nat) : List UInt8 :=
  if n < 128 then [UInt8.ofNat n] else UInt8.ofNat (n % 128 + 128) :: varint (n / 128)

/-- How the value of an entry is delimited. -/
inductive Kind where
  /-- A number in base 128. -/
  | varint
  /-- A run of bytes behind its length. -/
  | counted
deriving DecidableEq, Repr

/-- The code of a kind in a key. -/
def Kind.code : Kind → Nat
  | .varint => 0
  | .counted => 2

/-- The key of an entry. -/
def key (field : Nat) (kind : Kind) : List UInt8 :=
  varint (8 * field + kind.code)

/-- An entry that holds a number. -/
def number (field n : Nat) : List UInt8 :=
  key field .varint ++ varint n

/-- An entry that holds a run of bytes. -/
def counted (field : Nat) (payload : List UInt8) : List UInt8 :=
  key field .counted ++ varint payload.length ++ payload

/-- An entry that holds a text in UTF-8. -/
def text (field : Nat) (s : String) : List UInt8 :=
  counted field s.toUTF8.data.toList

end ProtoSchema.Wire
