/-!
# Tasks

| here | there |
| --- | --- |
| `Tasks`, `Task` | what `create_task` has made and has not ended; a stage is the `await` at which it stands |
| `spawn`, `cancel`, `isLive` | `create_task`, `cancel`, and the test that `done` fails |

What a machine has under way: tasks, each of which stands at a stage and waits there for one outcome.
Tasks are numbered in order of creation. A task counts the stages it has come to, so that an outcome
that comes too late can be told from the one it waits for.
-/

namespace PoolFeed

structure Task (σ : Type) where
  id : Nat
  turn : Nat := 0
  stage : σ
  /-- Whether it has been told to give up; it does so when it is next resumed. -/
  cancelled : Bool := false

/-- How a task ended. -/
inductive Ending where
  | finished
  | raised (reason : String)
  | cancelled
  deriving DecidableEq

/-- The tasks that have not ended, in order of creation. -/
structure Tasks (σ : Type) where
  live : List (Task σ) := []
  /-- The number of the next task. -/
  next : Nat := 0

namespace Tasks

variable {σ : Type}

def find? (ts : Tasks σ) (id : Nat) : Option (Task σ) := ts.live.find? (·.id == id)

/-- Whether a task has not ended. -/
def isLive (ts : Tasks σ) (id : Nat) : Bool := (ts.find? id).isSome

/-- Changes one task. -/
def modify (ts : Tasks σ) (id : Nat) (f : Task σ → Task σ) : Tasks σ :=
  { ts with live := ts.live.map fun t => if t.id = id then f t else t }

/-- Creates a task at a stage. -/
def spawn (ts : Tasks σ) (stage : σ) : Tasks σ where
  live := ts.live ++ [{ id := ts.next, stage := stage }]
  next := ts.next + 1

/-- The turn that a task comes to next. -/
def nextTurn (ts : Tasks σ) (id : Nat) : Nat := (ts.find? id).elim 0 (·.turn + 1)

/-- Brings a task to its next stage. -/
def advance (ts : Tasks σ) (id : Nat) (stage : σ) : Tasks σ :=
  let turn := ts.nextTurn id
  ts.modify id fun t => { t with turn := turn, stage := stage }

/-- Tells a task to give up. -/
def cancel (ts : Tasks σ) (id : Nat) : Tasks σ := ts.modify id fun t => { t with cancelled := true }

/-- Ends a task. -/
def erase (ts : Tasks σ) (id : Nat) : Tasks σ := { ts with live := ts.live.filter (·.id != id) }

/-- Whether a task waits at a turn and has not been told to give up. -/
def waitsAt (ts : Tasks σ) (id turn : Nat) : Bool := (ts.find? id).any fun t => t.turn == turn && !t.cancelled

end Tasks

end PoolFeed
