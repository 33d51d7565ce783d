import PoolFeed.Json
import PoolFeed.Log
import PoolFeed.Log.Template

/-!
# Log lines

| here | there |
| --- | --- |
| `Record` | the log record that `JSONFormatter.format` is given |
| `contextNames` | `CONTEXT_FIELDS` |
| `members`, `jsonLine` | `JSONFormatter.format`: its dictionary, and the line |
| `textLine` | the line under `TEXT_FORMAT` |
| `LineError` | the exceptions of `getMessage`, `fromtimestamp` and `dumps` |

A record is an entry with where and when it was made. It is written on one line, as a JSON object or
as text; the JSON object also has what the entry is about, and the error that it reports.
-/

namespace PoolFeed.Log

/-- A value that comes with an entry: one that JSON has, or any other object, of which only its text is written. -/
inductive Carried where
  | json (v : Json)
  | object (text : String)

/-- How a value is written. -/
def Carried.written : Carried → Json
  | .json v => v
  | .object text => .str text

structure Record where
  logger : String
  level : Int
  path : String := ""
  line : Int := 0
  template : String
  args : List Document := []
  function : Option String := none
  /-- The clock reading at which the record was made. -/
  created : Binary64 := Binary64.zero
  /-- The seconds by which local time is ahead of universal time, at an instant. -/
  zone : Int → Int := fun _ => 0
  /-- Named values that came with the entry. -/
  extra : List (String × Carried) := []
  /-- The error that is reported, as text. -/
  failure : Option String := none

/-- Why a record cannot be written. -/
inductive LineError where
  | date (e : Calendar.DateError)
  | message (e : TemplateError)
  /-- An integer has more digits than can be written. -/
  | digits
  deriving DecidableEq

def levels : List Level := [.debug, .info, .warning, .error, .critical]

/-- The name of a level; one between the known ones is named by its weight. -/
def levelName (weight : Int) : String :=
  if weight = 0 then "NOTSET"
  else match levels.find? fun l => decide ((l.weight : Int) = weight) with
    | some l => l.name
    | none => s!"Level {weight}"

/-- The last part of a path without its extension; leading dots are no extension. -/
def moduleOf (path : String) : String :=
  let base := ((path.splitOn "/").getLast?).getD ""
  let dots := base.toList.takeWhile (· == '.')
  let parts := ((base.drop dots.length).toString).splitOn "."
  if parts.length ≤ 1 then base else String.ofList dots ++ ".".intercalate parts.dropLast

/-- The names of what an entry is about, in the order in which a line has them. -/
def contextNames : List String := ["pool", "signature", "slot", "room", "state", "attempt", "execution_time"]

namespace Record

def message (r : Record) : Except LineError String := (fill r.template r.args).mapError .message

/-- The members of the record's JSON object. -/
def members (r : Record) : Except LineError (List (String × Json)) := do
  let stamp ← (Calendar.isoOfReading r.zone r.created).mapError .date
  let message ← r.message
  let context := contextNames.filterMap fun name => (r.extra.lookup name).map fun v => (name, v.written)
  let failure := match r.failure with
    | some text => [("exception", Json.str text)]
    | none => []
  return [
    ("timestamp", .str stamp),
    ("level", .str (levelName r.level)),
    ("logger", .str r.logger),
    ("message", .str message),
    ("module", .str (moduleOf r.path)),
    ("function", match r.function with | some f => .str f | none => .null),
    ("line", .int r.line)] ++ context ++ failure

/-- The record as a JSON object on one line. -/
def jsonLine (r : Record) : Except LineError String := do
  let object := Json.obj (← r.members)
  if object.isWritable then return object.line else throw .digits

/-- The record as text behind a time stamp; the level takes at least eight columns. -/
def textLine (r : Record) (stamp : String) : Except LineError String := do
  let level := levelName r.level
  return stamp ++ " " ++ level ++ "".pushn ' ' (8 - level.length) ++ " " ++ r.logger ++ ": " ++ (← r.message)

end Record

end PoolFeed.Log
