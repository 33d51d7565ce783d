import PoolFeed.Log.Line
import PoolFeed.Text.Blank

/-!
# Where records go

| here | there |
| --- | --- |
| `Output`, `sinks` | what `setup_logging` makes of its arguments |
| `quietLoggers`, `quietLevel` | `QUIET_LOGGERS`, and the level that `setup_logging` gives them |
| `admits`, `line` | whether a record passes its logger, and how the formatter writes it |

An output has a level below which records are dropped, and writes to the standard output and perhaps
to a file. Loggers of libraries are held at a level of their own, which their descendants share.
-/

namespace PoolFeed.Log

/-- Why a text names no level. -/
inductive LevelError where
  | unknown
  /-- It names a text that is no level. -/
  | noLevel
  /-- It names something that is no text. -/
  | noText
  deriving DecidableEq

/-- The weight of the level that a text names, in any case. -/
def weightOf (name : String) : Except LevelError Int :=
  match Text.upper name with
  | "NOTSET" => .ok 0
  | "DEBUG" => .ok 10
  | "INFO" => .ok 20
  | "WARNING" | "WARN" => .ok 30
  | "ERROR" => .ok 40
  | "CRITICAL" | "FATAL" => .ok 50
  | "BASIC_FORMAT" => .error .noLevel
  | "_STYLES" => .error .noText
  | _ => .error .unknown

structure Output where
  level : Int := 20
  json : Bool := true
  toFile : Bool := false
  deriving DecidableEq

namespace Output

/-- The loggers that are held at information or above. -/
def quietLoggers : List String := ["grpc", "asyncio", "redis", "uvicorn.access"]

def quietLevel (o : Output) : Int := max o.level 20

/-- How many places a record is written to. -/
def sinks (o : Output) : Nat := if o.toFile then 2 else 1

/-- Whether a logger is another one or below it. -/
def isUnder (logger ancestor : String) : Bool := logger == ancestor || logger.startsWith (ancestor ++ ".")

/-- The level that a logger's records must have. -/
def levelOf (o : Output) (logger : String) : Int :=
  if quietLoggers.any (isUnder logger) then o.quietLevel else o.level

/-- The nameless logger is the root of all. -/
def loggerName (name : String) : String := if name = "" then "root" else name

def admits (o : Output) (logger : String) (level : Int) : Bool := decide (o.levelOf logger ≤ level)

/-- The line of a record, as JSON or as text behind a time stamp. -/
def line (o : Output) (r : Record) (stamp : String) : Except LineError String :=
  if o.json then r.jsonLine else r.textLine stamp

end Output

end PoolFeed.Log
