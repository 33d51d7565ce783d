import PoolFeed.Bytes

/-!
# Record layouts

| here | there |
| --- | --- |
| `Layout`, `FieldType` | a `Struct` of the layouts, and the type of one of its fields |
| `size`, `parse?` | `sizeof`, `parse` of a `Struct` |
| `encode` | the way back |

A layout lists the fields of a binary record in order; each field has a fixed size, so a record is
read by cutting the bytes at the field bounds and written by joining them again.
-/

namespace PoolFeed

inductive FieldType where
  | raw (size : Nat)
  | unsigned (size : Nat)
  | signed (size : Nat)
  deriving DecidableEq

/-- The value of a field: its bytes, or the little-endian number they spell. -/
inductive FieldValue where
  | raw (bytes : Bytes)
  | number (i : Int)
  deriving DecidableEq

namespace FieldType

def size : FieldType → Nat
  | .raw n => n
  | .unsigned n => n
  | .signed n => n

def read : FieldType → Bytes → FieldValue
  | .raw _, b => .raw b
  | .unsigned _, b => .number (Bytes.leNat b)
  | .signed _, b => .number (Bytes.leInt b)

def write : FieldType → FieldValue → Bytes
  | .raw _, .raw b => b
  | .unsigned n, .number i => Bytes.ofLeNat n i.toNat
  | .signed n, .number i => Bytes.ofLeNat n (Bytes.natOfSigned n i)
  | t, _ => Bytes.ofLeNat t.size 0

/-- The values that a field can hold. -/
def Admits : FieldType → FieldValue → Prop
  | .raw n, .raw b => b.length = n
  | .unsigned n, .number i => 0 ≤ i ∧ i < Bytes.span n
  | .signed n, .number i => -(Bytes.span n : Int) ≤ 2 * i ∧ 2 * i < Bytes.span n
  | _, _ => False

end FieldType

abbrev Layout := List (String × FieldType)

/-- Field values by name, in layout order. -/
abbrev Record := List (String × FieldValue)

namespace Layout

/-- The number of bytes of a record. -/
def size : Layout → Nat
  | [] => 0
  | (_, t) :: rest => t.size + size rest

/-- Reads a record from the front of the bytes; what follows it is not looked at. -/
def parse? : Layout → Bytes → Option Record
  | [], _ => some []
  | (name, t) :: rest, b =>
    if b.length < t.size then none
    else (parse? rest (b.drop t.size)).map fun fields => (name, t.read (b.take t.size)) :: fields

/-- The bytes of a record with these field values. -/
def encode : Layout → List FieldValue → Bytes
  | (_, t) :: rest, v :: values => t.write v ++ encode rest values
  | _, _ => []

theorem parse?_isSome_iff : ∀ (layout : Layout) (b : Bytes), (parse? layout b).isSome ↔ layout.size ≤ b.length
  | [], b => by simp [parse?, size]
  | (name, t) :: rest, b => by
    have ih := parse?_isSome_iff rest (b.drop t.size)
    simp only [parse?, size]
    split
    · simp; omega
    · simp only [Option.isSome_map, ih, List.length_drop]; omega

end Layout

namespace Record

/-- The number in a field, zero if there is none. -/
def number (r : Record) (name : String) : Int :=
  match r.lookup name with
  | some (.number i) => i
  | _ => 0

/-- The bytes in a field. -/
def raw (r : Record) (name : String) : Bytes :=
  match r.lookup name with
  | some (.raw b) => b
  | _ => []

end Record

end PoolFeed
