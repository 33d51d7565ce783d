import PoolFeed.Calendar
import PoolFeed.Document.Text

/-!
# Message templates

| here | there |
| --- | --- |
| `fill` | `getMessage`, of a message with arguments |
| `Field`, `fieldOf` | one conversion of a template |
| `TemplateError` | the exceptions that it raises |

A template is a text with fields, each begun by a percent sign: the name of a value, flags, a width,
a precision and a letter that says how the value is written. Values are taken in order, or by name
from a mapping.
-/

namespace PoolFeed.Log

/-- Why a template cannot be filled in. -/
inductive TemplateError where
  /-- The template is broken. -/
  | badTemplate
  /-- A value has the wrong type, or there are too few or too many values. -/
  | badValue
  | missingKey (name : String)
  | notANumber
  | tooLarge
  /-- An integer has more digits than can be written. -/
  | tooManyDigits
  /-- The letter for characters was given half of a surrogate pair, which no text here can hold. -/
  | halfPair
  deriving DecidableEq

/-- What the letter of a field is preceded by. -/
structure Field where
  left : Bool := false
  plus : Bool := false
  space : Bool := false
  alternate : Bool := false
  zero : Bool := false
  width : Nat := 0
  precision : Option Nat := none

/-- The values of a template. -/
structure Values where
  /-- Values that are still to be taken, in order. -/
  items : List Document
  /-- The mapping that names refer to. -/
  named : Option (List (Document × Document)) := none

def Values.next (v : Values) : Except TemplateError (Document × Values) :=
  match v.items, v.named with
  | d :: rest, _ => .ok (d, { v with items := rest })
  | [], _ => .error .badValue

/-! ## Writing values -/

/-- Fills a text up to the width of its field. -/
def pad (f : Field) (sign body : String) : String :=
  let room := f.width - (sign.length + body.length)
  if f.left then sign ++ body ++ "".pushn ' ' room
  else if f.zero then sign ++ "".pushn '0' room ++ body
  else "".pushn ' ' room ++ sign ++ body

/-- A text, cut to the precision. -/
def writeText (f : Field) (s : String) : String :=
  let s := match f.precision with
    | some n => (s.take n).toString
    | none => s
  pad { f with zero := false } "" s

def signText (f : Field) (negative : Bool) : String :=
  if negative then "-" else if f.plus then "+" else if f.space then " " else ""

/-- The digits of a natural number, to base eight, ten or sixteen. -/
def digitsText (base : Nat) (n : Nat) : String := String.ofList (Nat.toDigits base n)

/-- An integer in a base; the precision is its least number of digits. -/
def writeInteger (f : Field) (base : Nat) (upper : Bool) (i : Int) : String :=
  let digits := digitsText base i.natAbs
  let digits := match f.precision with
    | some n => "".pushn '0' (n - digits.length) ++ digits
    | none => digits
  let lead := if f.alternate then (if base = 16 then "0x" else if base = 8 then "0o" else "") else ""
  let change (s : String) : String := if upper then s.map Char.toUpper else s
  pad f (signText f (i < 0) ++ change lead) (change digits)

/-- The integer that a value counts as; a double is cut. -/
def asInteger (whole : Bool) : Document → Except TemplateError Int
  | .int i => .ok i
  | .bool b => .ok (if b then 1 else 0)
  | .float x =>
    if whole then .error .badValue
    else match x.truncate? with
      | some i => .ok i
      | none => .error (if x.isNaN then .notANumber else .tooLarge)
  | _ => .error .badValue

def asDouble : Document → Except TemplateError Binary64
  | .int i => .ok (Binary64.ofInt i)
  | .bool b => .ok (Binary64.ofInt (if b then 1 else 0))
  | .float x => .ok x
  | _ => .error .badValue

/-- The text of a double with a point in it. -/
def withPoint (s : String) : String :=
  if s.contains '.' then s
  else
    let cs := s.toList
    String.ofList (cs.takeWhile (· != 'e') ++ '.' :: cs.dropWhile (· != 'e'))

def writeDouble (f : Field) (letter : Char) (x : Binary64) : String :=
  let places := f.precision.getD 6
  let size : Binary64 := Binary64.ofMagnitude false x.magnitude
  let body := match letter.toLower with
    | 'e' => size.scientific places
    | 'g' => size.general places f.alternate
    | _ => size.fixed places
  let body := if f.alternate && x.isFinite then withPoint body else body
  let body := if letter.isUpper then body.map Char.toUpper else body
  pad { f with zero := f.zero && x.isFinite } (signText f (x.isNegative && !x.isNaN)) body

/-- The characters of a text, those past ASCII escaped. -/
def asciiText (s : String) : String :=
  String.ofList (s.toList.flatMap fun c =>
    if c.toNat < 0x80 then [c]
    else if c.toNat < 0x100 then '\\' :: 'x' :: Text.hexDigits 2 c.toNat
    else if c.toNat < 0x10000 then '\\' :: 'u' :: Text.hexDigits 4 c.toNat
    else '\\' :: 'U' :: Text.hexDigits 8 c.toNat)

def writeCharacter (f : Field) : Document → Except TemplateError String
  | .str s => if s.length = 1 then .ok (writeText { f with precision := none } s) else .error .badValue
  | d => do
    let i ← asInteger true d
    if 0xd800 ≤ i ∧ i < 0xe000 then .error .halfPair
    else if 0 ≤ i ∧ i < 0x110000 then return writeText { f with precision := none } (String.singleton (Char.ofNat i.toNat))
    else .error .tooLarge

/-- The text of a value that is shown, if its integers can be written. -/
def writeShown (f : Field) (d : Document) (text : String) : Except TemplateError String :=
  if d.isWritable then .ok (writeText f text) else .error .tooManyDigits

def writeDecimal (f : Field) (i : Int) : Except TemplateError String :=
  if Text.isWritable i then .ok (writeInteger f 10 false i) else .error .tooManyDigits

/-- A value as a letter asks for. -/
def write (f : Field) (letter : Char) (d : Document) : Except TemplateError String :=
  match letter with
  | 's' => writeShown f d d.plain
  | 'r' => writeShown f d d.shown
  | 'a' => writeShown f d (asciiText d.shown)
  | 'd' | 'i' | 'u' => do writeDecimal f (← asInteger false d)
  | 'o' => return writeInteger f 8 false (← asInteger true d)
  | 'x' => return writeInteger f 16 false (← asInteger true d)
  | 'X' => return writeInteger f 16 true (← asInteger true d)
  | 'e' | 'E' | 'f' | 'F' | 'g' | 'G' => return writeDouble f letter (← asDouble d)
  | 'c' => writeCharacter f d
  | _ => .error .badTemplate

/-! ## Reading fields -/

/-- The name up to its closing bracket, brackets inside counted. -/
def nameFrom : Nat → List Char → List Char → Option (List Char × List Char)
  | _, _, [] => none
  | depth, name, c :: rest =>
    if c = ')' then (if depth = 0 then some (name.reverse, rest) else nameFrom (depth - 1) (c :: name) rest)
    else nameFrom (if c = '(' then depth + 1 else depth) (c :: name) rest

/-- Takes a name in brackets, and makes its value the only one. -/
def takeName (v : Values) (cs : List Char) : Except TemplateError (Values × List Char) :=
  match cs with
  | '(' :: rest => match v.named with
    | none => .error .badValue
    | some entries => match nameFrom 0 [] rest with
      | none => .error .badTemplate
      | some (name, rest) =>
        let name := String.ofList name
        match entries.find? fun (k, _) => k.sameKey (.str name) with
        | none => .error (.missingKey name)
        | some (_, d) => .ok ({ v with items := [d] }, rest)
  | _ => .ok (v, cs)

def takeFlags (f : Field) : List Char → Field × List Char
  | '-' :: rest => takeFlags { f with left := true } rest
  | '+' :: rest => takeFlags { f with plus := true } rest
  | ' ' :: rest => takeFlags { f with space := true } rest
  | '#' :: rest => takeFlags { f with alternate := true } rest
  | '0' :: rest => takeFlags { f with zero := true } rest
  | cs => (f, cs)

/-- A number in the template, or the next value for an asterisk, below a limit. -/
def takeNumber (limit : Nat) (v : Values) (cs : List Char) : Except TemplateError (Option Int × Values × List Char) :=
  match cs with
  | '*' :: rest => do
    let (d, v) ← v.next
    match d with
    | .int i => if -(limit : Int) ≤ i ∧ i < limit then return (some i, v, rest) else .error .tooLarge
    | .bool b => return (some (if b then 1 else 0), v, rest)
    | _ => .error .badValue
  | _ =>
    let digits := cs.takeWhile Char.isDigit
    let number := (String.ofList digits).toNat?
    if number.any (limit ≤ ·) then .error .badTemplate
    else .ok (number.map Int.ofNat, v, cs.dropWhile Char.isDigit)

/-- The limits of a width and of a precision. -/
def widthLimit : Nat := 0x8000000000000000
def precisionLimit : Nat := 0x80000000

/-- One field behind its percent sign: its text, the values left and the rest of the template. -/
def fieldOf (v : Values) (cs : List Char) : Except TemplateError (String × Values × List Char) := do
  let (v, cs) ← takeName v cs
  let (f, cs) := takeFlags {} cs
  let (width, v, cs) ← takeNumber widthLimit v cs
  let f := match width with
    | some w => { f with width := w.natAbs, left := f.left || decide (w < 0) }
    | none => f
  let (f, v, cs) ← match cs with
    | '.' :: rest => do
      let (precision, v, rest) ← takeNumber precisionLimit v rest
      pure ({ f with precision := some (precision.getD 0).toNat }, v, rest)
    | _ => pure (f, v, cs)
  let cs := match cs with
    | c :: rest => if c = 'h' ∨ c = 'l' ∨ c = 'L' then rest else cs
    | [] => cs
  match cs with
  | [] => .error .badTemplate
  | letter :: rest =>
    let (d, v) ← v.next
    return (← write f letter d, v, rest)

/-- What stands behind a percent sign: a second one stands for itself. -/
def field (v : Values) (cs : List Char) : Except TemplateError (String × Values × List Char) :=
  match cs with
  | '%' :: rest => .ok ("%", v, rest)
  | _ => fieldOf v cs

/-- Fills in the fields of a template from its start. -/
def fillFrom : Nat → Values → List Char → String → Except TemplateError String
  | 0, _, _, out => .ok out
  | fuel + 1, v, cs, out =>
    match cs with
    | [] => if v.items.isEmpty || v.named.isSome then .ok out else .error .badValue
    | '%' :: rest => do
      let (s, v, rest) ← field v rest
      fillFrom fuel v rest (out ++ s)
    | c :: rest => fillFrom fuel v rest (out.push c)

/-- A message: a template filled with its values. Without values it is taken as it stands; a single
mapping with members is what names refer to. -/
def fill (template : String) (args : List Document) : Except TemplateError String :=
  let cs := template.toList
  match args with
  | [] => .ok template
  | [.map (e :: entries)] => fillFrom (cs.length + 1) ⟨[.map (e :: entries)], some (e :: entries)⟩ cs ""
  | args => fillFrom (cs.length + 1) ⟨args, none⟩ cs ""

end PoolFeed.Log
