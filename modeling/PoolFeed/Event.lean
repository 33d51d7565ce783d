import PoolFeed.Binary64.Basic

/-!
# Events

| here | there |
| --- | --- |
| `Migration`, `PoolCreation`, `Trade` | `MigrateEvent`, `CreatePoolEvent`, `TradeEvent`, with the fields of `DexEvent` |
| `Side` | `TradeSide` |
| `Trade.confirmed` | `TradeEvent.confirmed` |

What a transaction can tell: a migration of a finished bonding curve into a pool, the creation of a
pool, or a trade. Amounts are raw token units; times are capture times in epoch milliseconds.
-/

namespace PoolFeed

structure Migration where
  signature : String
  slot : Int
  timestamp : Int
  mint : String
  pool : String
  solAmount : Int
  tokenAmount : Int
  deriving DecidableEq

structure PoolCreation where
  signature : String
  slot : Int
  timestamp : Int
  pool : String
  creator : String
  baseMint : String
  quoteMint : String
  baseAmount : Int
  quoteAmount : Int
  baseDecimals : Int := 6
  quoteDecimals : Int := 9
  deriving DecidableEq

/-- Trade direction, as the user sees it. -/
inductive Side where
  | buy
  | sell
  deriving DecidableEq

def Side.name : Side → String
  | .buy => "BUY"
  | .sell => "SELL"

/-- A trade is drafted from the instruction, where the quote amount is only the user's limit; the
program's own event then fills in the executed amount and the fees. -/
structure Trade where
  signature : String
  slot : Int
  timestamp : Int
  side : Side
  pool : String
  user : String
  baseMint : String
  quoteMint : String
  tokenAmount : Int
  solAmount : Int
  limitSolAmount : Int
  protocolFee : Int := 0
  lpFee : Int := 0
  price : Binary64 := Binary64.zero
  deriving DecidableEq

/-- A trade with a price or a fee has been filled in. -/
def Trade.confirmed (t : Trade) : Bool := !(t.price.isZero && t.protocolFee == 0 && t.lpFee == 0)

inductive Event where
  | migration (m : Migration)
  | poolCreation (c : PoolCreation)
  | trade (t : Trade)
  deriving DecidableEq

end PoolFeed
