/-!
# Log entries

| here | there |
| --- | --- |
| `Entry`, `Tag` | a call of a logger, and the `extra` that comes with it |
| `Level` | `LogLevel` |

An entry is a level, a message and the tags that say what it is about: a pool, a signature, a slot,
a room, a connection state or an attempt.
-/

namespace PoolFeed.Log

inductive Level where
  | debug
  | info
  | warning
  | error
  | critical
  deriving DecidableEq

/-- Levels in order of weight. -/
def Level.weight : Level → Nat
  | .debug => 10
  | .info => 20
  | .warning => 30
  | .error => 40
  | .critical => 50

def Level.name : Level → String
  | .debug => "DEBUG"
  | .info => "INFO"
  | .warning => "WARNING"
  | .error => "ERROR"
  | .critical => "CRITICAL"

/-- What an entry is about. -/
inductive Tag where
  | pool (address : String)
  | signature (text : String)
  | slot (number : Option Int)
  | room (name : String)
  | state (name : String)
  | attempt (number : Nat)
  deriving DecidableEq

structure Entry where
  level : Level
  message : String
  tags : List Tag := []
  deriving DecidableEq

def debug (message : String) (tags : List Tag := []) : Entry := ⟨.debug, message, tags⟩
def info (message : String) (tags : List Tag := []) : Entry := ⟨.info, message, tags⟩
def warning (message : String) (tags : List Tag := []) : Entry := ⟨.warning, message, tags⟩
def error (message : String) (tags : List Tag := []) : Entry := ⟨.error, message, tags⟩
def critical (message : String) (tags : List Tag := []) : Entry := ⟨.critical, message, tags⟩

end PoolFeed.Log
