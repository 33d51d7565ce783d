import PoolFeed.Document
import PoolFeed.Text.Integer
import PoolFeed.Text.Quoted

/-!
# Documents as messages show them

| here | there |
| --- | --- |
| `shown`, `plain` | a value in the message of a `ValidationError`, in quotes and without |
| `typeName` | the name of its type |

The text of a document: texts stand between quotes, a collection between its brackets, and each kind
has a name.
-/

namespace PoolFeed

namespace Document

/-- The text of bytes between quotes. -/
def shownBytes (b : Bytes) : String :=
  let cs := b.map fun x => Char.ofNat x.toNat
  let quote := Text.quoteFor cs
  let body := cs.flatMap fun c =>
    if 0x7f ≤ c.toNat then '\\' :: 'x' :: Text.hexDigits 2 c.toNat else Text.quotedChar quote c
  String.ofList ('b' :: quote :: body ++ [quote])

/-- An offset from universal time. -/
def shownOffset (offset : Int) : String :=
  if offset = 0 then "datetime.timezone.utc"
  else
    let days := offset / 86400
    let seconds := offset % 86400
    let parts := (if days = 0 then [] else [s!"days={days}"]) ++ (if seconds = 0 then [] else [s!"seconds={seconds}"])
    "datetime.timezone(datetime.timedelta(" ++ ", ".intercalate parts ++ "))"

/-- A moment; seconds and microseconds are left out where they end in nothing. -/
def shownMoment (m : Moment) : String :=
  let small := if m.microsecond = 0 then (if m.second = 0 then [] else [m.second]) else [m.second, m.microsecond]
  let parts := ([m.year, m.month, m.day, m.hour, m.minute] ++ small).map toString
  let zone := match m.offset with
    | none => []
    | some offset => ["tzinfo=" ++ shownOffset offset]
  "datetime.datetime(" ++ ", ".intercalate (parts ++ zone) ++ ")"

mutual
/-- The text of a document in a report. -/
def shown : Document → String
  | .null => "None"
  | .bool true => "True"
  | .bool false => "False"
  | .int i => toString i
  | .float x => x.shortest
  | .str s => Text.quoted s
  | .bytes b => shownBytes b
  | .date y m d => s!"datetime.date({y}, {m}, {d})"
  | .moment m => shownMoment m
  | .seq items => "[" ++ ", ".intercalate (shownItems items) ++ "]"
  | .pair a b => "(" ++ shown a ++ ", " ++ shown b ++ ")"
  | .map entries => "\x7b" ++ ", ".intercalate (shownEntries entries) ++ "\x7d"
  | .set items => if items.isEmpty then "set()" else "\x7b" ++ ", ".intercalate (shownItems items) ++ "\x7d"

def shownItems : List Document → List String
  | [] => []
  | d :: rest => shown d :: shownItems rest

def shownEntries : List (Document × Document) → List String
  | [] => []
  | (k, v) :: rest => (shown k ++ ": " ++ shown v) :: shownEntries rest
end

mutual
/-- Whether every integer in the document can be written. -/
def isWritable : Document → Bool
  | .null | .bool _ | .float _ | .str _ | .bytes _ | .date _ _ _ | .moment _ => true
  | .int i => Text.isWritable i
  | .seq items | .set items => itemsAreWritable items
  | .pair a b => isWritable a && isWritable b
  | .map entries => entriesAreWritable entries

def itemsAreWritable : List Document → Bool
  | [] => true
  | d :: rest => isWritable d && itemsAreWritable rest

def entriesAreWritable : List (Document × Document) → Bool
  | [] => true
  | (k, v) :: rest => isWritable k && isWritable v && entriesAreWritable rest
end

/-- The type of a document in a report. -/
def typeName : Document → String
  | .null => "NoneType"
  | .bool _ => "bool"
  | .int _ => "int"
  | .float _ => "float"
  | .str _ => "str"
  | .bytes _ => "bytes"
  | .date _ _ _ => "date"
  | .moment _ => "datetime"
  | .seq _ => "list"
  | .pair _ _ => "tuple"
  | .map _ => "dict"
  | .set _ => "set"

/-- The text of a document on its own: a text stands as it is. -/
def plain : Document → String
  | .str s => s
  | d => d.shown

end Document

end PoolFeed
