import PoolFeed.Chain.Migrations
import PoolFeed.Chain.Swaps
import PoolFeed.Ledger
import PoolFeed.Lookups.Basic
import PoolFeed.Registry
import PoolFeed.TradeLine

/-!
# The intake

| here | there |
| --- | --- |
| `Intake` | `TransactionProcessor` with its two decoders and its counters |
| `begin` | `TransactionProcessor.process`, up to the first write that is awaited |
| `Turn.migration`, `Turn.creation`, `Turn.trade` | `_on_migrate`, `_on_create_pool`, `_on_trade`, up to it |
| `resume`, `Turn.saved` | what they do after it; `saved` is their `except` |
| `announcement` | the payload of `POOL_NEW_EVENT` in `_on_migrate` |
| `Fault` | the exceptions that `process` lets through |

The intake turns each transaction into its effects: a migration makes its pool tracked, stored, looked
up and announced; the creation of a pool does so without the announcement, and only if creations are
tracked; a trade of a tracked pool is scaled, stored and batched. A transaction waits while the ledger
writes and while a pool is announced. What the registry has to say is asked and told before the first
wait. A ledger that fails is noted and changes nothing else.
-/

namespace PoolFeed

structure Intake where
  migrationsReader : Chain.Migrations := {}
  swapsReader : Chain.Swaps := {}
  /-- Whether the creation of a pool makes it tracked. -/
  tracksCreations : Bool := false
  /-- The quote mint of pools that have migrated. -/
  wrappedSol : String := "So11111111111111111111111111111111111111112"
  migrations : Nat := 0
  creations : Nat := 0
  forwarded : Nat := 0
  untracked : Nat := 0
  storageErrors : Nat := 0

namespace Intake

/-- What a transaction waits for. -/
inductive Wait where
  /-- A pool is written; one that has migrated is announced after that. -/
  | savingPool (row : PoolRow) (migration : Option Migration)
  | savingTrade (pool : String) (line : TradeLine)
  | announcing (m : Migration)

/-- Why a transaction came to no end. -/
inductive Fault where
  | scale (e : ScaleError)
  | announcement (reason : String)
  deriving DecidableEq

def Fault.message : Fault → String
  | .scale e => e.message
  | .announcement reason => reason

inductive Progress where
  | waits (w : Wait)
  | finished
  | failed (f : Fault)

/-- What a turn leaves for the world outside. -/
inductive Action where
  | log (e : Log.Entry)
  /-- The mint of a pool is to be looked up. -/
  | lookUp (job : LookupJob)
  /-- A trade goes to the batch of its pool. -/
  | batch (pool : String) (line : TradeLine)

/-- One turn of a transaction. -/
structure Turn where
  intake : Intake
  registry : Registry
  actions : List Action := []
  progress : Progress := .finished

namespace Turn

def act (t : Turn) (a : Action) : Turn := { t with actions := t.actions ++ [a] }

def log (t : Turn) (e : Log.Entry) : Turn := t.act (.log e)

def change (t : Turn) (f : Intake → Intake) : Turn := { t with intake := f t.intake }

def wait (t : Turn) (w : Wait) : Turn := { t with progress := .waits w }

/-- Makes a pool tracked. -/
def register (t : Turn) (pool : String) (decimals : Int) : Turn :=
  let (_, registry, log) := t.registry.register pool (some decimals)
  log.foldl Turn.log { t with registry := registry }

/-! ## Beginnings -/

/-- A pool that is tracked already keeps its decimals. -/
def migration (t : Turn) (m : Migration) : Turn :=
  let t := t.change fun i => { i with migrations := i.migrations + 1 }
  let decimals := t.registry.defaultBase
  let t := if t.registry.isTracked m.pool then t else t.register m.pool decimals
  let message := s!"Pool migration: mint {m.mint} -> pool {m.pool} (sol {m.solAmount}, tokens {m.tokenAmount})"
  let t := t.log (Log.info message [.pool m.pool, .signature m.signature, .slot m.slot])
  t.wait (.savingPool ⟨m.pool, m.mint, t.intake.wrappedSol, decimals, t.registry.quote⟩ (some m))

/-- The decimals that a creation carries correct those of a tracked pool. -/
def creation (t : Turn) (c : PoolCreation) : Turn :=
  if t.intake.tracksCreations then
    let t := t.change fun i => { i with creations := i.creations + 1 }
    let t := t.register c.pool c.baseDecimals
    let message := s!"Pool created: {c.pool} (base {c.baseMint}, decimals {c.baseDecimals})"
    let t := t.log (Log.info message [.pool c.pool, .signature c.signature, .slot c.slot])
    t.wait (.savingPool ⟨c.pool, c.baseMint, c.quoteMint, c.baseDecimals, c.quoteDecimals⟩ none)
  else t

def trade (t : Turn) (e : Trade) : Turn :=
  if t.registry.isTracked e.pool then
    let scale := t.registry.decimalsOf e.pool
    match TradeLine.ofTrade e scale.base scale.quote with
    | .error fault => { t with progress := .failed (.scale fault) }
    | .ok line => t.wait (.savingTrade e.pool line)
  else t.change fun i => { i with untracked := i.untracked + 1 }

/-! ## Going on -/

/-- Notes a write that failed. -/
def saved (t : Turn) (what : String) (tags : List Log.Tag) : Option String → Turn
  | none => t
  | some reason =>
    (t.change fun i => { i with storageErrors := i.storageErrors + 1 }).log (Log.error s!"Failed to save {what}: {reason}" tags)

end Turn

/-- Begins with a transaction: migrations come first, and exclude all else. -/
def begin (i : Intake) (r : Registry) (now : Except ClockError Int) (t : Transaction) : Option Event × Turn :=
  match i.migrationsReader.read now t with
  | (some m, reader, log) =>
    (some (.migration m), (log.foldl Turn.log ⟨{ i with migrationsReader := reader }, r, [], .finished⟩).migration m)
  | (none, reader, log) =>
    let turn := log.foldl Turn.log ⟨{ i with migrationsReader := reader }, r, [], .finished⟩
    let (event, reader, log) := i.swapsReader.read now t
    let turn := log.foldl Turn.log (turn.change fun i => { i with swapsReader := reader })
    (event, match event with
      | some (.poolCreation c) => turn.creation c
      | some (.trade e) => turn.trade e
      | some (.migration _) | none => turn)

/-- Goes on after a wait, which may have failed for a reason. -/
def resume (i : Intake) (r : Registry) (w : Wait) (failure : Option String) : Turn :=
  let t : Turn := ⟨i, r, [], .finished⟩
  match w with
  | .savingPool row migration =>
    let t := (t.saved s!"pool {row.address}" [.pool row.address] failure).act (.lookUp ⟨row.address, row.baseMint⟩)
    match migration with
    | none => t
    | some m => t.wait (.announcing m)
  | .savingTrade pool line =>
    let t := (t.saved s!"trade {line.txHash}" [.pool pool, .signature line.txHash] failure).act (.batch pool line)
    t.change fun i => { i with forwarded := i.forwarded + 1 }
  | .announcing _ => match failure with
    | none => t
    | some reason => { t with progress := .failed (.announcement reason) }

/-- What is announced of a pool that has migrated. -/
def announcement (m : Migration) : Json := .obj [
  ("address", .str m.pool),
  ("mint", .str m.mint),
  ("solAmount", .int m.solAmount),
  ("tokenAmount", .int m.tokenAmount),
  ("timestamp", .int m.timestamp)]

end Intake

end PoolFeed
