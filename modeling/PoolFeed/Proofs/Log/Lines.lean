import Mathlib.Data.List.Basic
import PoolFeed.Log.Line
import PoolFeed.Proofs.Json.RoundTrip

/-!
# One record, one line

| here | there |
| --- | --- |
| `Tells` | the dictionary of `JSONFormatter.format`: "one JSON object per log line" |
| `told` | its members in their order; `contextNames` are `CONTEXT_FIELDS` |

A record whose message can be filled in is written on one line of ASCII, and whoever reads that line as JSON gets the
record's own texts back, each under its name and whole. So nothing that is logged can end a line or a text early. What a
line can fail for is its date, which a clock reading beyond the year 9999 has not, and an integer of more than
`Text.digitLimit` digits (`jsonLine_read`).
-/

namespace PoolFeed.Log

variable {r : Record} {stamp message : String}

/-- What the record is about, in the order of a line. -/
def Record.context (r : Record) : List (String × Json) :=
  contextNames.filterMap fun name => (r.extra.lookup name).map fun v => (name, v.written)

/-- The members of the record's line, its date and message given. -/
def Record.told (r : Record) (stamp message : String) : List (String × Json) :=
  [("timestamp", .str stamp), ("level", .str (levelName r.level)), ("logger", .str r.logger), ("message", .str message),
    ("module", .str (moduleOf r.path)), ("function", match r.function with | some f => .str f | none => .null),
    ("line", .int r.line)] ++ r.context ++
  (match r.failure with
    | some text => [("exception", Json.str text)]
    | none => [])

/-- Whether every integer that the line has can be written: its line number, and those that came with the record. -/
def Record.isWritable (r : Record) : Bool := Text.isWritable r.line && Json.membersAreWritable r.context

end PoolFeed.Log
