import PoolFeed.Yaml.Scalar

/-!
# Kinds of nodes

| here | there |
| --- | --- |
| `Kind.ofPlain` | the implicit resolvers of `safe_load` |
| `Kind.ofTag` | the tags that it has a constructor for |

The kind of a node is named by its tag; a plain scalar without one has the first kind whose form it
matches, and is a text if it matches none.
-/

namespace PoolFeed.Yaml

inductive Kind where
  | null
  | truth
  | integer
  | double
  | binary
  | time
  | ordered
  | pairs
  | set
  | text
  | seq
  | map
  /-- A key whose value is merged into the mapping. -/
  | merge
  /-- The key that stands for the mapping as a whole. -/
  | whole
  | unknown (tag : String)
  deriving DecidableEq

/-- Whether values of the kind are written as one text. -/
def Kind.isScalar : Kind → Bool
  | .null | .truth | .integer | .double | .binary | .time | .text => true
  | _ => false

/-- What the second shorthand of a tag stands for. -/
def coreLead : String := "tag:yaml.org,2002:"

/-- The names of the kinds, without their common lead. -/
def Kind.names : List (String × Kind) := [
  ("null", .null), ("bool", .truth), ("int", .integer), ("float", .double), ("binary", .binary),
  ("timestamp", .time), ("omap", .ordered), ("pairs", .pairs), ("set", .set), ("str", .text),
  ("seq", .seq), ("map", .map), ("merge", .merge), ("value", .whole)]

/-- The kind that a tag names. -/
def Kind.ofTag (tag : String) : Kind :=
  ((names.map fun (name, kind) => (coreLead ++ name, kind)).lookup tag).getD (.unknown tag)

/-! ## Forms of plain scalars -/

/-- Whether a predicate holds of a first character and another one of all that follow. -/
def startsThen (first rest : Char → Bool) : List Char → Bool
  | [] => false
  | c :: cs => first c && cs.all rest

def isDigitOrGap (c : Char) : Bool := c.isDigit || c == '_'

def dropSign : List Char → List Char
  | '-' :: cs => cs
  | '+' :: cs => cs
  | cs => cs

/-- The pieces of a text between colons. -/
def colonPieces : List Char → List (List Char)
  | [] => [[]]
  | c :: cs =>
    if c = ':' then [] :: colonPieces cs
    else match colonPieces cs with
      | [] => [[c]]
      | piece :: rest => (c :: piece) :: rest

/-- A number below sixty, of one or two digits. -/
def isSixtieth : List Char → Bool
  | [a] => a.isDigit
  | [a, b] => '0' ≤ a && a ≤ '5' && b.isDigit
  | _ => false

/-- Numbers to base sixty: at least two pieces, the first of any size. -/
def isSixties (first : List Char → Bool) (cs : List Char) : Bool :=
  match colonPieces cs with
  | piece :: second :: rest => first piece && (second :: rest).all isSixtieth
  | _ => false

def isOctalOrGap (c : Char) : Bool := ('0' ≤ c && c ≤ '7') || c == '_'

def isInteger (cs : List Char) : Bool :=
  let nonzero (c : Char) : Bool := c.isDigit && c != '0'
  let decimal := startsThen nonzero isDigitOrGap
  match dropSign cs with
  | ['0'] => true
  | '0' :: 'b' :: rest => !rest.isEmpty && rest.all fun c => c == '0' || c == '1' || c == '_'
  | '0' :: 'x' :: rest => !rest.isEmpty && rest.all fun c => (hexDigit? c).isSome || c == '_'
  | '0' :: rest => rest.all isOctalOrGap
  | rest => decimal rest || isSixties decimal rest

/-- A signed exponent, or nothing. -/
def isExponent : List Char → Bool
  | [] => true
  | e :: sign :: digits =>
    (e == 'e' || e == 'E') && (sign == '+' || sign == '-') && !digits.isEmpty && digits.all Char.isDigit
  | _ => false

/-- Digits after the point, and an exponent. -/
def isFraction (cs : List Char) : Bool := isExponent (cs.dropWhile isDigitOrGap)

def isDouble (cs : List Char) : Bool :=
  let body := dropSign cs
  let whole := body.takeWhile fun c => c != '.'
  let after := body.dropWhile fun c => c != '.'
  let number := startsThen Char.isDigit isDigitOrGap
  match after with
  | '.' :: rest =>
    (number whole && isFraction rest)
      || (whole.isEmpty && cs.head? == some '.' && startsThen Char.isDigit (fun _ => true) rest && isFraction rest)
      || (isSixties number whole && rest.all isDigitOrGap)
      || (whole.isEmpty && ["inf", "Inf", "INF"].contains (String.ofList rest))
      || ["nan", "NaN", "NAN"].contains (String.ofList (cs.drop 1)) && whole.isEmpty && cs.head? == some '.'
  | _ => false

def isTruth (cs : List Char) : Bool :=
  ["yes", "Yes", "YES", "no", "No", "NO", "true", "True", "TRUE", "false", "False", "FALSE",
    "on", "On", "ON", "off", "Off", "OFF"].contains (String.ofList cs)

def isNull (cs : List Char) : Bool := ["~", "null", "Null", "NULL", ""].contains (String.ofList cs)

/-! ## Times -/

/-- The parts of a written time. -/
structure TimeText where
  year : List Char
  month : List Char
  day : List Char
  /-- Hour, minute, second, and the digits behind the point. -/
  clock : Option (List Char × List Char × List Char × List Char) := none
  /-- The sign, the hours and the minutes of the offset; universal time has no sign. -/
  zone : Option (Option Char × List Char × List Char) := none

/-- Takes between `least` and `most` digits, as many as there are. -/
def takeDigits (least most : Nat) (cs : List Char) : Option (List Char × List Char) :=
  let digits := (cs.take most).takeWhile Char.isDigit
  if digits.length < least then none else some (digits, cs.drop digits.length)

def takeChar (c : Char) : List Char → Option (List Char)
  | d :: cs => if d = c then some cs else none
  | [] => none

/-- The offset at the end of a time. -/
def readZone (cs : List Char) : Option (Option (Option Char × List Char × List Char)) :=
  match cs.dropWhile (fun c => c == ' ' || c == '\t') with
  | [] => if cs.isEmpty then some none else none
  | 'Z' :: [] => some (some (none, [], []))
  | sign :: rest =>
    if sign ≠ '+' ∧ sign ≠ '-' then none
    else do
      let (hours, rest) ← takeDigits 1 2 rest
      match rest with
      | [] => return some (some sign, hours, [])
      | ':' :: rest =>
        let (minutes, rest) ← takeDigits 2 2 rest
        if rest.isEmpty then return some (some sign, hours, minutes) else none
      | _ => none

/-- The parts of a date or of a date with a time of day. -/
def TimeText.read? (cs : List Char) : Option TimeText := do
  let (year, rest) ← takeDigits 4 4 cs
  let (month, rest) ← takeDigits 1 2 (← takeChar '-' rest)
  let (day, rest) ← takeDigits 1 2 (← takeChar '-' rest)
  match rest with
  | [] => return ⟨year, month, day, none, none⟩
  | mark :: after =>
    let rest ←
      if mark = 'T' ∨ mark = 't' then some after
      else if mark = ' ' ∨ mark = '\t' then some (after.dropWhile fun c => c == ' ' || c == '\t')
      else none
    let (hour, rest) ← takeDigits 1 2 rest
    let (minute, rest) ← takeDigits 2 2 (← takeChar ':' rest)
    let (second, rest) ← takeDigits 2 2 (← takeChar ':' rest)
    let (fraction, rest) := match rest with
      | '.' :: rest => (rest.takeWhile Char.isDigit, rest.dropWhile Char.isDigit)
      | _ => ([], rest)
    let zone ← readZone rest
    return ⟨year, month, day, some (hour, minute, second, fraction), zone⟩

/-- A plain date has all its digits; with a time of day, month and day may have one. -/
def isTime (cs : List Char) : Bool :=
  match TimeText.read? cs with
  | some t => t.clock.isSome || (t.month.length == 2 && t.day.length == 2)
  | none => false

/-- The kind of a plain scalar without a tag. -/
def Kind.ofPlain (text : String) : Kind :=
  let cs := text.toList
  if isTruth cs then .truth
  else if isDouble cs then .double
  else if isInteger cs then .integer
  else if text = "<<" then .merge
  else if isNull cs then .null
  else if isTime cs then .time
  else if text = "=" then .whole
  else .text

end PoolFeed.Yaml
