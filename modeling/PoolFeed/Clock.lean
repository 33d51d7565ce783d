import PoolFeed.Binary64.Basic

/-!
# Wall clock

| here | there |
| --- | --- |
| `millisOf` | `now_ms`, given what `time` answers |

A clock reading is a number of seconds since the epoch; events carry it in whole milliseconds.
-/

namespace PoolFeed

/-- Why a clock reading has no millisecond count. -/
inductive ClockError where
  | notANumber
  | infinite
  deriving DecidableEq

def ClockError.message : ClockError → String
  | .notANumber => "cannot convert float NaN to integer"
  | .infinite => "cannot convert float infinity to integer"

/-- Whole milliseconds of a reading in seconds, cut toward zero after the product is rounded. -/
def millisOf (seconds : Binary64) : Except ClockError Int :=
  let product := seconds.mul (Binary64.ofInt 1000)
  match product.truncate? with
  | some ms => .ok ms
  | none => .error (if product.isNaN then .notANumber else .infinite)

end PoolFeed
