import PoolFeed.Layout
import PoolFeed.Transaction

/-!
# Layouts and tags of the two programs

| here | there |
| --- | --- |
| `selfCallTag` | `EMIT_CPI_TAG` |
| `migrateCall`, `buyCall`, `sellCall`, `createPoolCall` | `MIGRATE_IX_DISCRIMINATOR`, `BUY_IX_DISCRIMINATOR`, `SELL_IX_DISCRIMINATOR`, `CREATE_POOL_IX_DISCRIMINATOR` |
| `migrateEventTag`, `buyEventTag`, `sellEventTag`, `createPoolEventTag` | `MIGRATE_EVENT_DISCRIMINATOR`, `BUY_EVENT_DISCRIMINATOR`, `SELL_EVENT_DISCRIMINATOR`, `CREATE_POOL_EVENT_DISCRIMINATOR` |
| `migrateEvent`, `tradeEvent`, `createPoolEvent` | `MIGRATE_EVENT`, `TRADE_EVENT`, `CREATE_POOL_EVENT` |
| `buyArgs`, `sellArgs`, `createPoolArgs` | `BUY_ARGS`, `SELL_ARGS`, `CREATE_POOL_ARGS` |
| `migrateMinAccounts`, `swapMinAccounts` | `MIGRATE_MIN_ACCOUNTS`, `AMM_MIN_ACCOUNTS` |
| `findRecord` | `PumpFunMigrationDecoder._find_event`, `PumpSwapDecoder._find_event` |

Argument records start after the 8-byte tag of a call. Event records start at byte 0 of an inner
instruction, with the 8-byte self-call tag and the 8-byte event tag in front. Fees are signed.
-/

namespace PoolFeed.Chain

/-- Starts every event that a program reports by calling itself. -/
def selfCallTag : Bytes := [228, 69, 165, 46, 81, 203, 154, 29]

/-! ## Pump.fun -/

def pumpFunProgram : String := "6EF8rrecthR5Dkzon8Nwu78hRvfCKubJ14M5uBEwF6P"
def migrateCall : Bytes := [155, 234, 231, 146, 236, 158, 162, 30]
def migrateEventTag : Bytes := selfCallTag ++ [189, 233, 93, 185, 92, 148, 234, 148]

/-- The fewest account references of a migrate call; the mint is reference 2. -/
def migrateMinAccounts : Nat := 24

def migrateEvent : Layout := [
  ("discriminator", .raw 16),
  ("user", .raw 32),
  ("mint", .raw 32),
  ("mint_amount", .unsigned 8),
  ("sol_amount", .unsigned 8),
  ("pool_migration_fee", .unsigned 8),
  ("bonding_curve", .raw 32),
  ("timestamp", .signed 8),
  ("pool", .raw 32)]

/-! ## PumpSwap -/

def pumpSwapProgram : String := "pAMMBay6oceH9fJKBRHGP5D4bD4sWpmSwMn52FMfXEA"
def buyCall : Bytes := [102, 6, 61, 18, 1, 218, 235, 234]
def sellCall : Bytes := [51, 230, 133, 164, 1, 127, 131, 173]
def createPoolCall : Bytes := [233, 146, 209, 142, 207, 104, 64, 188]
def buyEventTag : Bytes := selfCallTag ++ [103, 244, 82, 31, 44, 245, 119, 119]
def sellEventTag : Bytes := selfCallTag ++ [62, 47, 55, 10, 165, 3, 220, 42]
def createPoolEventTag : Bytes := selfCallTag ++ [177, 49, 12, 210, 160, 118, 167, 116]

/-- The fewest account references of a call: pool, user or creator, one unused, base and quote mint. -/
def swapMinAccounts : Nat := 5

def createPoolArgs : Layout := [
  ("index", .unsigned 2),
  ("base_amount_in", .unsigned 8),
  ("quote_amount_in", .unsigned 8)]

def buyArgs : Layout := [
  ("base_amount_out", .unsigned 8),
  ("max_quote_amount_in", .unsigned 8)]

def sellArgs : Layout := [
  ("base_amount_in", .unsigned 8),
  ("min_quote_amount_out", .unsigned 8)]

/-- The common front of buy and sell events, up to the user's quote amount. -/
def tradeEvent : Layout := [
  ("discriminator", .raw 16),
  ("timestamp", .signed 8),
  ("base_amount", .unsigned 8),
  ("quote_amount_limit", .unsigned 8),
  ("user_base_token_reserves", .unsigned 8),
  ("user_quote_token_reserves", .unsigned 8),
  ("pool_base_token_reserves", .unsigned 8),
  ("pool_quote_token_reserves", .unsigned 8),
  ("quote_amount", .unsigned 8),
  ("lp_fee_basis_points", .unsigned 8),
  ("lp_fee", .signed 8),
  ("protocol_fee_basis_points", .unsigned 8),
  ("protocol_fee", .signed 8),
  ("quote_amount_with_lp_fee", .unsigned 8),
  ("user_quote_amount", .unsigned 8)]

def createPoolEvent : Layout := [
  ("discriminator", .raw 16),
  ("timestamp", .signed 8),
  ("index", .unsigned 2),
  ("creator", .raw 32),
  ("base_mint", .raw 32),
  ("quote_mint", .raw 32),
  ("base_mint_decimals", .unsigned 1),
  ("quote_mint_decimals", .unsigned 1)]

/-- The layouts by name. -/
def layouts : List (String × Layout) := [
  ("MIGRATE_EVENT", migrateEvent),
  ("CREATE_POOL_ARGS", createPoolArgs),
  ("BUY_ARGS", buyArgs),
  ("SELL_ARGS", sellArgs),
  ("TRADE_EVENT", tradeEvent),
  ("CREATE_POOL_EVENT", createPoolEvent)]

/-! ## Event payloads -/

/-- Looks for the first inner instruction with the tag that is long enough for the layout. Returns
the sizes of those with the tag that were too short before it, and the record. -/
def findRecord (tag : Bytes) (layout : Layout) : List Instruction → List Nat × Option Record
  | [] => ([], none)
  | ix :: rest =>
    if ix.data.take 16 ≠ tag then findRecord tag layout rest
    else if ix.data.length < layout.size then
      let (short, record) := findRecord tag layout rest
      (ix.data.length :: short, record)
    else ([], layout.parse? ix.data)

end PoolFeed.Chain
