import PoolFeed.Component
import PoolFeed.Tasks

/-!
# Lookups: their parts

| here | there |
| --- | --- |
| `LookupJob` | `MetadataJob` |
| `Lookups` | the fields of `MetadataQueue`; `queue`, `line`, `unfinished` are what `_queue` holds, the workers that wait in its `get`, and its count of unfinished jobs |
| `isFull` | `full` of `_queue` |
| `stats` | `MetadataQueue.get_stats` |
| `Stage` | the places at which `_worker`, `_process`, `stop` and `join` await |

Jobs that look up the metadata of a mint wait in a bounded queue, and a fixed number of workers takes
them in order of arrival. Who adds a job never waits: a full queue drops it. Workers that find nothing
wait in a line; a new job wakes the first of them. Stopping cancels the workers and keeps what waits.
-/

namespace PoolFeed

/-- A lookup for the mint of a pool. -/
structure LookupJob where
  pool : String
  mint : String
  deriving DecidableEq

namespace Lookups

/-- What a caller can ask for: to stop, or to be told when all jobs are done. -/
inductive Call where
  | stop
  | join
  deriving DecidableEq

/-- Where a task stands. -/
inductive Stage where
  | called (c : Call)
  /-- A worker that has not run yet. -/
  | begun
  /-- A worker in the line. -/
  | waiting
  /-- A worker that has been taken from the line and has not run since. -/
  | woken
  /-- A worker whose job is being resolved. -/
  | resolving (job : LookupJob)
  /-- A stop that waits for workers to end. -/
  | stopping (workers : List Nat)
  /-- Someone who waits until no job is left. -/
  | joining

/-- What a task has waited for. -/
inductive Outcome where
  | done
  | failed (reason : String)

/-- What a turn leaves for the world outside. -/
inductive Action where
  | log (e : Log.Entry)
  /-- A task has to be resumed soon. -/
  | wake (task turn : Nat)
  /-- A worker waits for a job to be resolved. -/
  | resolve (task turn : Nat) (job : LookupJob)
  | ended (task : Nat) (e : Ending)

end Lookups

structure Lookups where
  workerCount : Nat := 2
  /-- How many jobs may wait; without a positive number there is no bound. -/
  capacity : Int := 1000
  /-- Whether there is anyone to resolve jobs; else they are discarded. -/
  resolves : Bool := false
  component : Component := ⟨"metadata_queue", none⟩
  queue : List LookupJob := []
  /-- Workers in the line. -/
  line : List Nat := []
  /-- Jobs that wait or are under way. -/
  unfinished : Nat := 0
  workers : List Nat := []
  enqueued : Nat := 0
  dropped : Nat := 0
  completed : Nat := 0
  failed : Nat := 0
  tasks : Tasks Lookups.Stage := {}

namespace Lookups

def isFull (l : Lookups) : Bool := decide (0 < l.capacity) && decide (l.capacity ≤ l.queue.length)

def stats (l : Lookups) : Json := .obj [
  ("pending", .int l.queue.length),
  ("workers", .int l.workers.length),
  ("jobs_enqueued", .int l.enqueued),
  ("jobs_dropped", .int l.dropped),
  ("jobs_completed", .int l.completed),
  ("jobs_failed", .int l.failed)]

end Lookups

end PoolFeed
