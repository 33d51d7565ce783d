import PoolFeed.Event
import PoolFeed.Json

/-!
# Trade lines

| here | there |
| --- | --- |
| `TradeLine` | `NormalizedTrade` |
| `ofTrade`, `scale`, `priceOf` | `TransactionProcessor.normalize` |
| `payload` | `NormalizedTrade.to_payload` |
| `ScaleError` | the exceptions of the divisions in `normalize` |

A trade as it is stored and shown: its amounts divided by the pool's decimals, and the price as quote
per base. Each quotient is the double nearest to the exact one.
-/

namespace PoolFeed

/-- A trade with its amounts scaled. -/
structure TradeLine where
  txHash : String
  side : Side
  price : Binary64
  baseAmount : Binary64
  quoteAmount : Binary64
  time : Int
  maker : String
  deriving DecidableEq

/-- Why an amount cannot be scaled. -/
inductive ScaleError where
  | divisionByZero
  | overflow
  deriving DecidableEq

def ScaleError.message : ScaleError → String
  | .divisionByZero => "float division by zero"
  | .overflow => "integer division result too large for a float"

namespace TradeLine

/-- The quotient of an integer and a positive integer, refused past the largest double. -/
def quotient (amount : Int) (d : Nat) : Except ScaleError Binary64 :=
  let x := Binary64.ofIntRatio amount d
  if x.isFinite then .ok x else .error .overflow

/-- An amount in units of `10 ^ decimals`. A negative power of ten is itself a double, so there the
amount is rounded first and divided then. -/
def scale (amount decimals : Int) : Except ScaleError Binary64 :=
  if 0 ≤ decimals then quotient amount (Nat.pow 10 decimals.toNat)
  else do
    let numerator ← quotient amount 1
    match numerator.div? (Binary64.ofDecimal false 1 decimals) with
    | none => .error .divisionByZero
    | some x => .ok x

/-- Quote per base, zero if there is no base. -/
def priceOf (base quote : Binary64) : Binary64 :=
  if base.isPositive then (quote.div? base).getD Binary64.zero else Binary64.zero

/-- Scales a trade by the base and quote decimals of its pool. -/
def ofTrade (t : Trade) (baseDecimals quoteDecimals : Int) : Except ScaleError TradeLine := do
  let base ← scale t.tokenAmount baseDecimals
  let quote ← scale t.solAmount quoteDecimals
  return {
    txHash := t.signature
    side := t.side
    price := priceOf base quote
    baseAmount := base
    quoteAmount := quote
    time := t.timestamp
    maker := t.user }

/-- The line as subscribers receive it. -/
def payload (t : TradeLine) : Json := .obj [
  ("txHash", .str t.txHash),
  ("type", .str t.side.name),
  ("price", .float t.price),
  ("baseAmount", .float t.baseAmount),
  ("quoteAmount", .float t.quoteAmount),
  ("time", .int t.time),
  ("maker", .str t.maker)]

end TradeLine

end PoolFeed
