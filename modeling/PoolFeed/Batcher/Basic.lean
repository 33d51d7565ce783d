import PoolFeed.Batches
import PoolFeed.Binary64.Decimal
import PoolFeed.Component
import PoolFeed.Tasks

/-!
# The batcher: its parts

| here | there |
| --- | --- |
| `Batcher` | the fields of `TradeBatcher` and `AlwaysOnComponent`; `running`, `loop` are `_running`, `_task` |
| `patience` | `stop_timeout`, which `TradeBatcher.__init__` sets to five intervals and a second at least |
| `stats`, `health` | `TradeBatcher.get_stats`, `health_check` |
| `Batcher.enqueue` | `TradeBatcher.enqueue` |
| `Stage` | the places at which `_run_loop`, `_flush` and `AlwaysOnComponent.stop` await |

The batcher flushes batches at a fixed interval. Its work is one loop: it rests until the next flush is
due and emits the batch of every key that has records. Stopping lets the loop come to its end, for as
long as patience lasts, and cancels it after that. Callers may flush too. Loops, flushes and stops are
tasks; a batch that is being emitted is out of the buffers already.
-/

namespace PoolFeed

namespace Batcher

/-- Whose flush it is: the loop's, with the time when it was due, or a caller's. -/
inductive Flush where
  | ofLoop (deadline : Nat)
  | ofCaller

/-- What a caller can ask of the batcher. -/
inductive Call where
  | flush
  | stop
  deriving DecidableEq

/-- Where a task stands. -/
inductive Stage where
  | called (c : Call)
  /-- A loop that has not run yet. -/
  | begun
  /-- A loop that waits until the next flush is due. -/
  | resting (deadline : Nat)
  /-- A flush that waits for the emission of a key, with keys to follow. -/
  | emitting (key : String) (rest : List String) (flush : Flush)
  /-- A stop that waits for a loop to end. -/
  | stopping (loop : Nat)
  /-- A stop that has lost its patience with a loop and cancelled it. -/
  | expiring (loop : Nat)
  /-- A stop that waits for the loop it has cancelled last. -/
  | dropping (loop : Nat)

/-- What a task has waited for. -/
inductive Outcome where
  | done
  | failed (reason : String)
  /-- The loop has ended, by itself or cancelled. -/
  | exited (e : Ending)
  /-- Patience is at its end. -/
  | expired

/-- What a task waits for. -/
inductive Request (ρ : Type) where
  | slept (ms : Nat)
  | emitted (batch : Batch ρ)
  /-- The end of a loop, for some milliseconds; none stands for any time. -/
  | exited (patience : Option Nat)

/-- What a turn leaves for the world outside. -/
inductive Action (ρ : Type) where
  | log (e : Log.Entry)
  /-- A task has to be resumed soon. -/
  | wake (task turn : Nat) (o : Outcome)
  /-- A task waits. -/
  | await (task turn : Nat) (r : Request ρ)
  | ended (task : Nat) (e : Ending)

end Batcher

structure Batcher (ρ : Type) where
  /-- Milliseconds between flushes. -/
  interval : Nat := 200
  component : Component := ⟨"trade_batcher", none⟩
  running : Bool := false
  /-- The loop that a stop waits for. -/
  loop : Option Nat := none
  batches : Batches ρ := {}
  tasks : Tasks Batcher.Stage := {}

namespace Batcher

variable {ρ : Type}

/-- Milliseconds that a stop waits for the loop: five intervals, and not less than a second. -/
def patience (b : Batcher ρ) : Nat := max 1000 (b.interval * 5)

/-- The patience in seconds, to one place. -/
def patienceText (b : Batcher ρ) : String :=
  let seconds := if b.interval * 5 ≤ 1000 then Binary64.ofInt 1 else (Binary64.ofIntRatio b.interval 1000).mul (Binary64.ofInt 5)
  seconds.fixed 1

def stats (b : Batcher ρ) : Json := .obj [
  ("running", .bool b.running),
  ("pools", .int b.batches.buffers.length),
  ("buffered", .int b.batches.buffered),
  ("records_enqueued", .int b.batches.enqueued),
  ("records_dropped", .int b.batches.dropped),
  ("batches_emitted", .int b.batches.emitted),
  ("emit_errors", .int b.batches.failed)]

/-- A batcher that has failed and never succeeded is unhealthy. -/
def health (b : Batcher ρ) (now : Nat) : Health :=
  let h := b.component.health now
  let broken := b.batches.failed ≠ 0 ∧ b.batches.emitted = 0
  { h with status := if broken then .unhealthy else h.status, details := b.stats }

/-- Adds records under one key. -/
def enqueue (b : Batcher ρ) (key : String) (records : List ρ) : Batcher ρ × List Log.Entry :=
  let (batches, log) := b.batches.enqueueAll key records
  ({ b with batches := batches }, log)

end Batcher

end PoolFeed
