import PoolFeed.Calendar
import PoolFeed.Log
import PoolFeed.Roster

/-!
# The ledger

| here | there |
| --- | --- |
| `Ledger` | `TradeStore` with its two tables: `POOLS_TABLE`, `TRADES_TABLE` |
| `savePool`, `saveTrade` | `TradeStore.upsert_pool`, `insert_trade`, with `_execute` and `_run` |
| `pool?`, `recent` | `TradeStore.get_pool`, `get_recent_trades` |
| `close`, `reopen` | `TradeStore.close`, and a new `TradeStore` on the same path |
| `LedgerError` | `StorageError`, and the `ValueError` of `_ms_to_timestamp` |

Two tables that are only ever added to: pools by address and trades by signature. The first row under
a key wins, and a later one is passed over in silence. An entry with a missing field or with decimals
past 32 bits is refused, as is every use of a closed ledger.
-/

namespace PoolFeed

structure PoolRow where
  address : String
  baseMint : String
  quoteMint : String
  baseDecimals : Int
  quoteDecimals : Int
  deriving DecidableEq

/-- A trade as stored, its time in microseconds since the epoch. -/
structure TradeRow where
  txHash : String
  time : Int
  pool : String
  side : String
  price : Binary64
  baseAmount : Binary64
  quoteAmount : Binary64
  deriving DecidableEq

/-- A pool as it is handed in; fields may be missing. -/
structure PoolEntry where
  address : Option String
  baseMint : Option String
  quoteMint : Option String
  baseDecimals : Option Int
  quoteDecimals : Option Int
  deriving DecidableEq

/-- A trade as it is handed in, its time in milliseconds since the epoch; fields may be missing. -/
structure TradeEntry where
  txHash : Option String
  time : Option Int
  pool : Option String
  side : Option String
  price : Option Binary64
  baseAmount : Option Binary64
  quoteAmount : Option Binary64
  deriving DecidableEq

/-- Why the ledger did not do as told. -/
inductive LedgerError where
  | closed
  /-- An entry breaks a rule of its table, or a limit is negative. -/
  | violation
  /-- A time has no date. -/
  | date (e : Calendar.DateError)
  /-- A time is missing. -/
  | noTime
  deriving DecidableEq

/-- What is said of an error; the engine under the tables has its own words for a broken rule. -/
def LedgerError.message : LedgerError → String
  | .closed => "TradeStore is closed"
  | .violation => "constraint violated"
  | .date e => e.message
  | .noTime => "time is missing"

/-- Whether a failed write counts as one: a time that has no date never reaches the tables. -/
def LedgerError.counts : LedgerError → Bool
  | .closed | .violation => true
  | .date _ | .noTime => false

def PoolRow.entry (r : PoolRow) : PoolEntry :=
  ⟨some r.address, some r.baseMint, some r.quoteMint, some r.baseDecimals, some r.quoteDecimals⟩

/-- Whether a number fits 32 bits. -/
def fits32 (i : Int) : Bool := -0x80000000 ≤ i && i < 0x80000000

/-- The row of a pool entry that keeps the rules of its table. -/
def PoolEntry.row? (e : PoolEntry) : Option PoolRow := do
  let row : PoolRow := ⟨← e.address, ← e.baseMint, ← e.quoteMint, ← e.baseDecimals, ← e.quoteDecimals⟩
  if fits32 row.baseDecimals && fits32 row.quoteDecimals then some row else none

/-- The row of a trade entry at a time, if no field is missing. -/
def TradeEntry.row? (e : TradeEntry) (micros : Int) : Option TradeRow := do
  return ⟨← e.txHash, micros, ← e.pool, ← e.side, ← e.price, ← e.baseAmount, ← e.quoteAmount⟩

structure Ledger where
  path : String := ":memory:"
  isOpen : Bool := true
  pools : Roster PoolRow := []
  trades : Roster TradeRow := []
  poolsWritten : Nat := 0
  tradesWritten : Nat := 0
  writeErrors : Nat := 0

namespace Ledger

/-- What is logged when a ledger is opened. -/
def openLog (l : Ledger) : List Log.Entry := [
  Log.debug "Created pools table",
  Log.debug "Created trades table and index",
  Log.info "All tables created successfully",
  Log.info s!"TradeStore initialized with database: {l.path}"]

/-! ## Writing -/

/-- A failed write. -/
def failed (l : Ledger) (e : LedgerError) : Except LedgerError Unit × Ledger :=
  (.error e, if e.counts then { l with writeErrors := l.writeErrors + 1 } else l)

/-- Adds a pool, unless its address is known. -/
def savePool (l : Ledger) (e : PoolEntry) : Except LedgerError Unit × Ledger :=
  if l.isOpen then
    match e.row? with
    | none => l.failed .violation
    | some row =>
      if l.pools.has row.address then (.ok (), l)
      else (.ok (), { l with pools := l.pools.put row.address row, poolsWritten := l.poolsWritten + 1 })
  else l.failed .closed

/-- Adds a trade, unless its signature is known. -/
def saveTrade (l : Ledger) (e : TradeEntry) : Except LedgerError Unit × Ledger :=
  match e.time with
  | none => l.failed .noTime
  | some ms => match Calendar.microsOfMillis ms with
    | .error d => l.failed (.date d)
    | .ok micros =>
      if l.isOpen then
        match e.row? micros with
        | none => l.failed .violation
        | some row =>
          if l.trades.has row.txHash then (.ok (), l)
          else (.ok (), { l with trades := l.trades.put row.txHash row, tradesWritten := l.tradesWritten + 1 })
      else l.failed .closed

/-- Adds trades until one is refused. -/
def saveTrades (l : Ledger) : List TradeEntry → Except LedgerError Unit × Ledger
  | [] => (.ok (), l)
  | e :: rest => match l.saveTrade e with
    | (.ok (), l) => l.saveTrades rest
    | (.error e, l) => (.error e, l)

/-! ## Reading -/

def pool? (l : Ledger) (address : Option String) : Except LedgerError (Option PoolRow) :=
  if l.isOpen then .ok (address.bind l.pools.get?) else .error .closed

/-- The largest limit that a reading may have. -/
def maxLimit : Int := 0x4000000000000000

/-- The trades of a pool from the newest to the oldest, at most so many if a limit is given. -/
def recent (l : Ledger) (pool : Option String) (limit : Option Int) : Except LedgerError (List TradeRow) :=
  if l.isOpen then
    let rows := (l.trades.map (·.2)).filter fun row => some row.pool == pool
    let rows := rows.mergeSort fun a b => decide (b.time ≤ a.time)
    match limit with
    | none => .ok rows
    | some n => if n < 0 ∨ maxLimit < n then .error .violation else .ok (rows.take n.toNat)
  else .error .closed

/-! ## Closing and opening again -/

def close (l : Ledger) : Ledger × List Log.Entry :=
  if l.isOpen then ({ l with isOpen := false }, [Log.info s!"Closed DuckDB connection: {l.path}"]) else (l, [])

/-- The ledger that is found under the same path: what was written to a file is still there. -/
def reopened (l : Ledger) : Ledger :=
  if l.path = ":memory:" then { path := l.path }
  else { path := l.path, pools := l.pools, trades := l.trades }

/-- Closes a ledger and opens it again. -/
def reopen (l : Ledger) : Ledger × List Log.Entry :=
  let (closed, log) := l.close
  (closed.reopened, log ++ closed.reopened.openLog)

end Ledger

end PoolFeed
