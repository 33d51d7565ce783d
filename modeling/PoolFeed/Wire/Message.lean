import PoolFeed.Wire.Varint

/-!
# Tagged messages

| here | there |
| --- | --- |
| `readMessage?`, `Schema` | the parsing of a message of `load_geyser_protos`, with the fields that are used |
| `encodeFields` | how a `SubscribeRequest` is written on the wire |

A message is a list of numbered fields, each a number, a byte string or a message again. Reading
follows a schema: a field that the schema does not name, or that stands on the wire in another form,
is passed over. A field that occurs several times keeps all its values; a single-valued one counts
by its last value, and the occurrences of a sub-message are joined.
-/

namespace PoolFeed.Wire

/-! ## Raw fields -/

/-- A field as it stands on the wire. -/
inductive RawValue where
  | varint (n : Nat)
  | fixed (b : Bytes)
  | chunk (b : Bytes)

/-- How many values a 32-bit word has. -/
def word32 : Nat := 0x100000000

/-- How many values a 64-bit word has. -/
def word64 : Nat := 0x10000000000000000

/-- A chunk is shorter than this. -/
def chunkLimit : Nat := 0x80000000

/-- The field number and the wire form of the tag in front. -/
def readTag? (b : Bytes) : Option (Nat × Nat × Bytes) := do
  let (tag, rest) ← Varint.read? 5 b
  if tag < word32 ∧ 8 ≤ tag then some (tag / 8, tag % 8, rest) else none

/-- Takes `n` bytes, if there are so many. -/
def take? (n : Nat) (b : Bytes) : Option (Bytes × Bytes) :=
  if n ≤ b.length then some (b.take n, b.drop n) else none

/-- The value after a tag, when its form is not a group. -/
def readValue? (form : Nat) (b : Bytes) : Option (RawValue × Bytes) :=
  match form with
  | 0 => (Varint.read? 10 b).map fun (n, rest) => (.varint (n % word64), rest)
  | 1 => (take? 8 b).map fun (v, rest) => (.fixed v, rest)
  | 2 => do
    let (n, rest) ← Varint.read? 5 b
    if chunkLimit ≤ n then none
    else (take? n rest).map fun (v, rest) => (.chunk v, rest)
  | 5 => (take? 4 b).map fun (v, rest) => (.fixed v, rest)
  | _ => none

/-- How deep messages and groups may nest. -/
def depthLimit : Nat := 100

/-- Passes over the group opened by field `number`, up to its closing tag. -/
def skipGroup? : (fuel depth number : Nat) → Bytes → Option Bytes
  | 0, _, _, _ => none
  | _, 0, _, _ => none
  | fuel + 1, depth + 1, number, b => do
    let (inside, form, rest) ← readTag? b
    match form with
    | 3 =>
      let rest ← skipGroup? fuel depth inside rest
      skipGroup? fuel (depth + 1) number rest
    | 4 => if inside = number then some rest else none
    | _ =>
      let (_, rest) ← readValue? form rest
      skipGroup? fuel (depth + 1) number rest

/-- Reads all fields; groups are passed over. -/
def readRaw? : (fuel : Nat) → Bytes → Option (List (Nat × RawValue))
  | _, [] => some []
  | 0, _ => none
  | fuel + 1, b => do
    let (number, form, rest) ← readTag? b
    if form = 3 then readRaw? fuel (← skipGroup? (rest.length + 1) depthLimit number rest)
    else
      let (value, rest) ← readValue? form rest
      return (number, value) :: (← readRaw? fuel rest)

/-! ## Messages -/

/-- A field value. -/
inductive Value where
  | number (n : Nat)
  | data (b : Bytes)
  | message (fields : List (Nat × Value))

abbrev Message := List (Nat × Value)

/-- What a field may hold. -/
inductive Shape where
  | number
  | numbers
  | data
  | text
  | message (fields : List (Nat × Shape))

abbrev Schema := List (Nat × Shape)

/-- The numbers of a packed chunk. -/
def unpack? : (fuel : Nat) → Bytes → Option (List Nat)
  | _, [] => some []
  | 0, _ => none
  | fuel + 1, b => do
    let (n, rest) ← Varint.read? 10 b
    return n % word64 :: (← unpack? fuel rest)

/-- Whether a byte string is UTF-8. -/
def isText (b : Bytes) : Bool := (ByteArray.mk b.toArray).validateUTF8

/-- The text of a byte string, empty if it is not UTF-8. -/
def textOf (b : Bytes) : String := (String.fromUTF8? (ByteArray.mk b.toArray)).getD ""

/-- Reads a message by its schema; `depth` bounds the nesting. -/
def readMessage? : (depth : Nat) → Schema → Bytes → Option Message
  | 0, _, _ => none
  | depth + 1, schema, b => do
    let raw ← readRaw? b.length b
    let fields ← raw.mapM fun (number, value) =>
      match schema.lookup number, value with
      | some .number, .varint n => some [(number, Value.number n)]
      | some .numbers, .varint n => some [(number, Value.number n)]
      | some .numbers, .chunk c => (unpack? c.length c).map (·.map fun n => (number, Value.number n))
      | some .data, .chunk c => some [(number, Value.data c)]
      | some .text, .chunk c => if isText c then some [(number, Value.data c)] else none
      | some (.message inner), .chunk c => (readMessage? depth inner c).map fun m => [(number, Value.message m)]
      | _, _ => some []
    return fields.flatten

/-- Reads a whole message. -/
def Schema.read? (schema : Schema) (b : Bytes) : Option Message := readMessage? depthLimit schema b

namespace Message

/-- All values of a field. -/
def values (m : Message) (number : Nat) : List Value := (m.filter (·.1 == number)).map (·.2)

/-- The last number of a field, zero if it is absent. -/
def number (m : Message) (field : Nat) : Nat :=
  match (m.values field).getLast? with
  | some (.number n) => n
  | _ => 0

/-- The low 32 bits of a number. -/
def number32 (m : Message) (field : Nat) : Nat := m.number field % word32

/-- The low 32 bits of a number as a two's complement integer. -/
def int32 (m : Message) (field : Nat) : Int := Int.bmod (m.number field) word32

def asData : Value → Bytes
  | .data b => b
  | _ => []

def asMessage : Value → Message
  | .message m => m
  | _ => []

/-- The last byte string of a field, empty if it is absent. -/
def data (m : Message) (field : Nat) : Bytes := ((m.values field).getLast?.map asData).getD []

/-- All byte strings of a repeated field. -/
def allData (m : Message) (field : Nat) : List Bytes := (m.values field).map asData

/-- The joined occurrences of a sub-message. -/
def child (m : Message) (field : Nat) : Message := (m.values field).flatMap asMessage

/-- The messages of a repeated field. -/
def children (m : Message) (field : Nat) : List Message := (m.values field).map asMessage

end Message

/-! ## Writing -/

def tag (number form : Nat) : Bytes := Varint.write (8 * number + form)

/-- A byte string after its length. -/
def sized (b : Bytes) : Bytes := Varint.write b.length ++ b

mutual
def Value.encode (number : Nat) : Value → Bytes
  | .number n => tag number 0 ++ Varint.write n
  | .data b => tag number 2 ++ sized b
  | .message fields => tag number 2 ++ sized (encodeFields fields)

def encodeFields : List (Nat × Value) → Bytes
  | [] => []
  | (number, v) :: rest => Value.encode number v ++ encodeFields rest
end

/-- The bytes of a message, its fields in the order given. -/
def Message.encode (m : Message) : Bytes := encodeFields m

/-- The bytes of a text. -/
def textBytes (s : String) : Bytes := s.toUTF8.toList

/-- The number that stands for a 32-bit integer: its 64-bit two's complement. -/
def ofInt32 (i : Int) : Nat := (i % word64).toNat

end PoolFeed.Wire
