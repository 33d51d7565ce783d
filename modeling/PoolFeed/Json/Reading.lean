import PoolFeed.Bytes
import PoolFeed.Json

/-!
# Reading JSON

| here | there |
| --- | --- |
| `read?` | the reader of a line that `JSONFormatter.format` has written |

Reads the text of one JSON value. Blanks may stand around values and signs; inside a string a control character has to be
escaped, and an escaped unit that is half of a pair counts only with its other half. A number without a fraction and an
exponent is an integer, any other one the nearest double. The members of an object are kept in order, all of them.
-/

namespace PoolFeed.Json

/-! ## Strings -/

/-- Four hexadecimal digits, and what follows them. -/
def readUnit? : List Char → Option (Nat × List Char)
  | a :: b :: c :: d :: rest => do
    let a ← Bytes.hexDigit? a
    let b ← Bytes.hexDigit? b
    let c ← Bytes.hexDigit? c
    let d ← Bytes.hexDigit? d
    return (4096 * a + 256 * b + 16 * c + d, rest)
  | _ => none

/-- The first half of a pair of units, and the second one. -/
def isHigh (n : Nat) : Bool := decide (0xD800 ≤ n ∧ n < 0xDC00)
def isLow (n : Nat) : Bool := decide (0xDC00 ≤ n ∧ n < 0xE000)

/-- The character of a unit, or of a pair of them, and what follows. -/
def readUnits? (cs : List Char) : Option (Char × List Char) := do
  let (n, rest) ← readUnit? cs
  if isHigh n then
    match rest with
    | '\\' :: 'u' :: rest => do
      let (m, rest) ← readUnit? rest
      if isLow m then some (Char.ofNat (0x10000 + 0x400 * (n - 0xD800) + (m - 0xDC00)), rest) else none
    | _ => none
  else if isLow n then none
  else some (Char.ofNat n, rest)

/-- The character that a letter behind a backslash stands for. -/
def unescape? : Char → Option Char
  | '"' => some '"'
  | '\\' => some '\\'
  | '/' => some '/'
  | 'b' => some '\x08'
  | 'f' => some '\x0c'
  | 'n' => some '\n'
  | 'r' => some '\r'
  | 't' => some '\t'
  | _ => none

/-- One character inside a string, and what follows. -/
def readChar? : List Char → Option (Char × List Char)
  | [] => none
  | c :: rest =>
    if c = '\\' then
      match rest with
      | [] => none
      | d :: rest => if d = 'u' then readUnits? rest else (unescape? d).map fun e => (e, rest)
    else if c = '"' ∨ c.toNat < 32 then none
    else some (c, rest)

/-- The characters up to the closing quote, and what follows it. -/
def readChars? : Nat → List Char → Option (List Char × List Char)
  | 0, _ => none
  | fuel + 1, cs =>
    if cs.head? = some '"' then some ([], cs.tail)
    else do
      let (c, rest) ← readChar? cs
      let (more, rest) ← readChars? fuel rest
      return (c :: more, rest)

/-- A string behind its opening quote, and what follows it. -/
def readString? (cs : List Char) : Option (String × List Char) :=
  (readChars? cs.length cs).map fun (s, rest) => (String.ofList s, rest)

/-! ## Numbers -/

/-- The digits of a fraction, if there is one; a point has to be followed by a digit. -/
def readFraction? (cs : List Char) : Option (Option (List Char) × List Char) :=
  if cs.head? = some '.' then
    let digits := cs.tail.takeWhile Char.isDigit
    if digits.isEmpty then none else some (some digits, cs.tail.dropWhile Char.isDigit)
  else some (none, cs)

/-- An exponent, if there is one; its letter has to be followed by a digit or by a sign and a digit. -/
def readExponent? (cs : List Char) : Option (Option Int × List Char) :=
  if cs.head? = some 'e' ∨ cs.head? = some 'E' then
    let below := cs.tail.head? = some '-'
    let rest := if below ∨ cs.tail.head? = some '+' then cs.tail.tail else cs.tail
    let digits := rest.takeWhile Char.isDigit
    let size : Int := Nat.ofDigitChars 10 digits 0
    if digits.isEmpty then none else some (some (if below then -size else size), rest.dropWhile Char.isDigit)
  else some (none, cs)

/-- The number of a sign, digits, and perhaps a fraction and an exponent. -/
def numberOf (below : Bool) (digits : List Char) (fraction : Option (List Char)) (exponent : Option Int) : Json :=
  match fraction, exponent with
  | none, none =>
    let size : Int := Nat.ofDigitChars 10 digits 0
    .int (if below then -size else size)
  | _, _ =>
    let places := fraction.getD []
    .float (Binary64.ofDecimal below (Nat.ofDigitChars 10 (digits ++ places) 0) (exponent.getD 0 - places.length))

/-- A number, and what follows it. Only a zero that stands alone may stand first. -/
def readNumber? (cs : List Char) : Option (Json × List Char) := do
  let below := cs.head? = some '-'
  let cs := if below then cs.tail else cs
  let digits := cs.takeWhile Char.isDigit
  if digits.isEmpty || digits.head? = some '0' && digits != ['0'] then none
  else
    let (fraction, rest) ← readFraction? (cs.dropWhile Char.isDigit)
    let (exponent, rest) ← readExponent? rest
    return (numberOf below digits fraction exponent, rest)

/-! ## Values -/

def isSpace (c : Char) : Bool := c == ' ' || c == '\t' || c == '\n' || c == '\r'

/-- A text without the blanks in front. -/
def skipSpace (cs : List Char) : List Char := cs.dropWhile isSpace

/-- What stands behind a word, if a text begins with it. -/
def behind? (word cs : List Char) : Option (List Char) :=
  if cs.take word.length = word then some (cs.drop word.length) else none

/-- One of the three words, and what follows it. -/
def readWord? (cs : List Char) : Option (Json × List Char) :=
  ((behind? "null".toList cs).map fun rest => (.null, rest)) <|>
  ((behind? "true".toList cs).map fun rest => (.bool true, rest)) <|>
  ((behind? "false".toList cs).map fun rest => (.bool false, rest))

mutual
/-- A value, and what follows it. -/
def readValue? : Nat → List Char → Option (Json × List Char)
  | 0, _ => none
  | fuel + 1, cs =>
    let cs := skipSpace cs
    match cs.head? with
    | some '"' => (readString? cs.tail).map fun (s, rest) => (.str s, rest)
    | some '[' =>
      if (skipSpace cs.tail).head? = some ']' then some (.arr [], (skipSpace cs.tail).tail)
      else (readItems? fuel cs.tail).map fun (items, rest) => (.arr items, rest)
    | some '\x7b' =>
      if (skipSpace cs.tail).head? = some '\x7d' then some (.obj [], (skipSpace cs.tail).tail)
      else (readMembers? fuel cs.tail).map fun (members, rest) => (.obj members, rest)
    | _ => readWord? cs <|> readNumber? cs

/-- The items up to a closing bracket, and what follows it. -/
def readItems? : Nat → List Char → Option (List Json × List Char)
  | 0, _ => none
  | fuel + 1, cs => do
    let (v, rest) ← readValue? fuel cs
    let rest := skipSpace rest
    match rest.head? with
    | some ',' => (readItems? fuel rest.tail).map fun (items, rest) => (v :: items, rest)
    | some ']' => some ([v], rest.tail)
    | _ => none

/-- The members up to a closing brace, and what follows it. -/
def readMembers? : Nat → List Char → Option (List (String × Json) × List Char)
  | 0, _ => none
  | fuel + 1, cs => do
    let rest ← behind? ['"'] (skipSpace cs)
    let (k, rest) ← readString? rest
    let rest ← behind? [':'] (skipSpace rest)
    let (v, rest) ← readValue? fuel rest
    let rest := skipSpace rest
    match rest.head? with
    | some ',' => (readMembers? fuel rest.tail).map fun (members, rest) => ((k, v) :: members, rest)
    | some '\x7d' => some ([(k, v)], rest.tail)
    | _ => none
end

/-- The value that a text is, with nothing but blanks around it. -/
def read? (s : String) : Option Json :=
  let cs := s.toList
  match readValue? cs.length cs with
  | some (v, rest) => if (skipSpace rest).isEmpty then some v else none
  | none => none

end PoolFeed.Json
