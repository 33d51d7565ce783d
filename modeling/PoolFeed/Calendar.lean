import PoolFeed.Binary64.Basic

/-!
# Calendar

| here | there |
| --- | --- |
| `isoOfReading` | `fromtimestamp` and `isoformat` in `JSONFormatter.format`; the zone is that of the process |
| `microsOfMillis` | `_ms_to_timestamp` of the trade store |
| `millisOfMicros` | the milliseconds that `TradeStore.get_recent_trades` makes of a stored time |

The civil date and time of a number of microseconds since the epoch, for the years one to 9999.
-/

namespace PoolFeed.Calendar

/-- The civil date of a day, counted from the first day of 1970. -/
def dateOfDay (day : Int) : Int × Nat × Nat :=
  let z := day + 719468
  let era := z / 146097
  let dayOfEra := (z % 146097).toNat
  let yearOfEra := (dayOfEra - dayOfEra / 1460 + dayOfEra / 36524 - dayOfEra / 146096) / 365
  let dayOfYear := dayOfEra - (365 * yearOfEra + yearOfEra / 4 - yearOfEra / 100)
  let shifted := (5 * dayOfYear + 2) / 153
  let month := if shifted < 10 then shifted + 3 else shifted - 9
  let year := (yearOfEra : Int) + era * 400 + (if month ≤ 2 then 1 else 0)
  (year, month, dayOfYear - (153 * shifted + 2) / 5 + 1)

/-- A number padded with zeros. -/
def padded (width n : Nat) : String :=
  let digits := toString n
  "".pushn '0' (width - digits.length) ++ digits

/-- Why a clock reading has no date. -/
inductive DateError where
  | notANumber
  | overflow
  | unsupported
  | outOfRange (year : Int)
  deriving DecidableEq

def DateError.message : DateError → String
  | .notANumber => "Invalid value NaN (not a number)"
  | .overflow => "timestamp out of range for platform time_t"
  | .unsupported => "[Errno 75] Value too large for defined data type"
  | .outOfRange year => s!"year {year} is out of range"

/-- The date and time of whole seconds and microseconds; microseconds are left out if there are none. -/
def isoText (seconds : Int) (microseconds : Nat) : Except DateError String :=
  let (year, month, day) := dateOfDay (seconds / 86400)
  if year < 1 ∨ 9999 < year then .error (.outOfRange year)
  else
    let s := (seconds % 86400).toNat
    let fraction := if microseconds = 0 then "" else "." ++ padded 6 microseconds
    .ok (padded 4 year.toNat ++ "-" ++ padded 2 month ++ "-" ++ padded 2 day ++ "T" ++ padded 2 (s / 3600) ++ ":"
      ++ padded 2 (s / 60 % 60) ++ ":" ++ padded 2 (s % 60) ++ fraction)

/-- The nearest integer to a finite double; a half goes to the even one. -/
def nearest (x : Binary64) : Int :=
  let n : Int := Binary64.roundDiv (Binary64.unitsOf x.magnitude) Binary64.one
  if x.isNegative then -n else n

/-- The microseconds since the epoch of a clock reading in seconds, to the nearest one. -/
def microsOfReading (x : Binary64) : Except DateError Int :=
  match x.truncate? with
  | none => .error (if x.isNaN then .notANumber else .overflow)
  | some whole =>
    if whole < -0x8000000000000000 ∨ 0x8000000000000000 ≤ whole then .error .overflow
    else if 67768036191694800 < whole.natAbs then .error .unsupported
    else
      let fraction := x.sub (Binary64.ofInt whole)
      .ok (whole * 1000000 + nearest (fraction.mul (Binary64.ofInt 1000000)))

/-- The local date and time of a clock reading in seconds, its fraction rounded to microseconds. The zone tells by how
many seconds local time is ahead at an instant. The day before has to have a date too, and if the local clock has been
put back since then, so has the instant that much earlier. -/
def isoOfReading (zone : Int → Int) (x : Binary64) : Except DateError String := do
  let micros ← microsOfReading x
  let seconds := micros / 1000000
  let text ← isoText (seconds + zone seconds) (micros % 1000000).toNat
  let dayBefore := seconds - 86400
  let _ ← isoText (dayBefore + zone dayBefore) 0
  let moved := zone seconds - zone dayBefore
  if moved < 0 then
    let earlier := seconds + moved
    let _ ← isoText (earlier + zone earlier) 0
  return text

/-- The microseconds since the epoch of a time in milliseconds, which passes through a reading in
seconds. Only the years one to 9999 have one. -/
def microsOfMillis (ms : Int) : Except DateError Int := do
  let micros ← microsOfReading (Binary64.ofIntRatio ms 1000)
  let (year, _, _) := dateOfDay (micros / 1000000 / 86400)
  if 1 ≤ year ∧ year ≤ 9999 then return micros else throw (.outOfRange year)

/-- The milliseconds nearest to a time in microseconds; a half goes away from the epoch. -/
def millisOfMicros (micros : Int) : Int :=
  if 0 ≤ micros then (micros + 500) / 1000 else -((500 - micros) / 1000)

end PoolFeed.Calendar
