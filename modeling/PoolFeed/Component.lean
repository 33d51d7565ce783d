import PoolFeed.Json
import PoolFeed.Log

/-!
# Components

| here | there |
| --- | --- |
| `Component` | `Component` with `_started`, `_started_at` |
| `start`, `stop`, `isStarted` | `Component.start`, `stop`, `is_started` |
| `uptime`, `health`, `shown` | `Component.uptime_seconds`, `health_check`, `__repr__` |

A component has a name, is started and stopped, and reports its health and for how long it has run.
Times are milliseconds of the service's own clock.
-/

namespace PoolFeed

inductive Status where
  | healthy
  | degraded
  | unhealthy
  | stopped
  deriving DecidableEq

def Status.name : Status → String
  | .healthy => "healthy"
  | .degraded => "degraded"
  | .unhealthy => "unhealthy"
  | .stopped => "stopped"

/-- A health report. -/
structure Health where
  component : String
  status : Status
  /-- Milliseconds since the start, zero when stopped. -/
  uptime : Nat
  details : Json := .obj []

structure Component where
  name : String
  /-- When it was started, if it is running. -/
  startedAt : Option Nat := none
  deriving DecidableEq

namespace Component

def isStarted (c : Component) : Bool := c.startedAt.isSome

/-- Starts the component; a second start changes nothing. -/
def start (c : Component) (now : Nat) : Component × List Log.Entry :=
  match c.startedAt with
  | some _ => (c, [Log.warning s!"{c.name} is already started"])
  | none => ({ c with startedAt := some now }, [Log.info s!"Starting {c.name}"])

/-- Stops the component; stopping what does not run changes nothing. -/
def stop (c : Component) : Component × List Log.Entry :=
  match c.startedAt with
  | none => (c, [Log.warning s!"{c.name} was never started"])
  | some _ => ({ c with startedAt := none }, [Log.info s!"Stopping {c.name}"])

def uptime (c : Component) (now : Nat) : Nat :=
  match c.startedAt with
  | none => 0
  | some since => now - since

def health (c : Component) (now : Nat) : Health where
  component := c.name
  status := if c.isStarted then .healthy else .stopped
  uptime := c.uptime now

@[simp] theorem isStarted_start (c : Component) (now : Nat) : (c.start now).1.isStarted = true := by
  unfold start
  cases h : c.startedAt with
  | some since => simp only [isStarted, h, Option.isSome_some]
  | none => rfl

@[simp] theorem isStarted_stop (c : Component) : c.stop.1.isStarted = false := by
  unfold stop
  cases h : c.startedAt with
  | some since => rfl
  | none => simp only [isStarted, h, Option.isSome_none]

/-- How a component of some kind shows itself. -/
def shown (c : Component) (kind : String) : String :=
  let started := if c.isStarted then "True" else "False"
  s!"{kind}(name={c.name}, started={started})"

end Component

end PoolFeed
