import PoolFeed.Binary64.Decimal
import PoolFeed.Log

/-!
# Timing

| here | there |
| --- | --- |
| `Timing.between` | `PerformanceLogger.timer`, given the two readings of `perf_counter` |
| `slowFrom` | `slow_threshold_ms` |

A block that took long is reported as slow; the rest is mentioned for debugging only.
-/

namespace PoolFeed

/-- What is said about a timed block. -/
structure Timing where
  entry : Log.Entry
  /-- The time in milliseconds, to three places. -/
  milliseconds : Binary64

namespace Timing

/-- The time from which a block is slow, in milliseconds. -/
def slowFrom : Binary64 := Binary64.ofInt 250

/-- Reports a block between two clock readings in seconds. -/
def between (operation : String) (started ended : Binary64) (threshold : Binary64 := slowFrom) : Timing :=
  let elapsed := (ended.sub started).mul (Binary64.ofInt 1000)
  let entry :=
    if threshold.le elapsed then Log.warning s!"Slow {operation}: {elapsed.fixed 1}ms"
    else Log.debug s!"{operation} took {elapsed.fixed 2}ms"
  ⟨entry, elapsed.rounded 3⟩

end Timing

end PoolFeed
