import PoolFeed.Binary64.Decimal
import PoolFeed.Text.Integer

/-!
# JSON values

| here | there |
| --- | --- |
| `line` | `dumps` with its defaults, as `JSONFormatter.format` calls it |
| `isWritable` | whether `dumps` can write all integers of a value |

The value type of payloads and log lines, and its one-line ASCII text: members keep their order, a
character outside printable ASCII is escaped by its UTF-16 units, and a double has its shortest
text.
-/

namespace PoolFeed

inductive Json where
  | null
  | bool (b : Bool)
  | int (i : Int)
  | float (x : Binary64)
  | str (s : String)
  | arr (items : List Json)
  | obj (members : List (String × Json))

instance : Inhabited Json := ⟨.null⟩

namespace Json

/-! ## Strings -/

/-- Four lowercase hexadecimal digits. -/
def hex4 (n : Nat) : List Char :=
  [n / 4096, n / 256, n / 16, n].map fun d => Nat.digitChar (d % 16)

/-- One UTF-16 unit, escaped. -/
def unitEscape (n : Nat) : List Char := '\\' :: 'u' :: hex4 n

/-- The text of one character inside a string. -/
def escapeChar (c : Char) : List Char :=
  if c = '"' then ['\\', '"']
  else if c = '\\' then ['\\', '\\']
  else if c = '\n' then ['\\', 'n']
  else if c = '\r' then ['\\', 'r']
  else if c = '\t' then ['\\', 't']
  else if c.toNat = 8 then ['\\', 'b']
  else if c.toNat = 12 then ['\\', 'f']
  else if 32 ≤ c.toNat ∧ c.toNat < 127 then [c]
  else if c.toNat < 0x10000 then unitEscape c.toNat
  else
    let n := c.toNat - 0x10000
    unitEscape (0xD800 + n / 0x400) ++ unitEscape (0xDC00 + n % 0x400)

/-- A quoted string. -/
def quote (s : String) : List Char := '"' :: s.toList.flatMap escapeChar ++ ['"']

/-- The text of a double; the special ones have names. -/
def floatText (x : Binary64) : String :=
  if x.isNaN then "NaN"
  else if x.isInfinite then (if x.isNegative then "-Infinity" else "Infinity")
  else x.shortest

/-! ## Printing -/

mutual
/-- The characters of a value, one blank after each comma and colon. -/
def chars : Json → List Char
  | .null => "null".toList
  | .bool true => "true".toList
  | .bool false => "false".toList
  | .int i => (toString i).toList
  | .float x => (floatText x).toList
  | .str s => quote s
  | .arr items => '[' :: itemChars items ++ [']']
  | .obj members => '{' :: memberChars members ++ ['}']

def itemChars : List Json → List Char
  | [] => []
  | [v] => chars v
  | v :: rest => chars v ++ ',' :: ' ' :: itemChars rest

def memberChars : List (String × Json) → List Char
  | [] => []
  | [(k, v)] => quote k ++ ':' :: ' ' :: chars v
  | (k, v) :: rest => quote k ++ ':' :: ' ' :: chars v ++ ',' :: ' ' :: memberChars rest
end

/-- The value on one line. -/
def line (v : Json) : String := String.ofList v.chars

mutual
/-- Whether every integer in the value can be written. -/
def isWritable : Json → Bool
  | .null | .bool _ | .float _ | .str _ => true
  | .int i => Text.isWritable i
  | .arr items => itemsAreWritable items
  | .obj members => membersAreWritable members

def itemsAreWritable : List Json → Bool
  | [] => true
  | v :: rest => isWritable v && itemsAreWritable rest

def membersAreWritable : List (String × Json) → Bool
  | [] => true
  | (_, v) :: rest => isWritable v && membersAreWritable rest
end

end Json

end PoolFeed
