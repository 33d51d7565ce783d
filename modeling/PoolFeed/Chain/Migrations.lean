import PoolFeed.Chain.Layouts
import PoolFeed.Clock
import PoolFeed.Event
import PoolFeed.Log

/-!
# Reading migrations

| here | there |
| --- | --- |
| `Migrations` | `PumpFunMigrationDecoder` with its counters |
| `read`, `scan` | `PumpFunMigrationDecoder.decode`, and its loop over the calls of the program |
| `report` | the `MigrateEvent` that `decode` makes of the event record |

A migrate call is reported only when its inner instructions carry the program's own event, which has
the last word on the pool and the amounts. A call that cannot be used is passed over for the next.
-/

namespace PoolFeed.Chain

/-- A reader of migrations and what it has counted. -/
structure Migrations where
  program : String := pumpFunProgram
  successes : Nat := 0
  failures : Nat := 0
  deriving DecidableEq

namespace Migrations

/-- What one transaction gave: the migration, how many payloads were confirmed or refused, and the
log. -/
structure Scan where
  event : Option Migration := none
  confirmed : Nat := 0
  refused : Nat := 0
  log : List Log.Entry := []
  deriving DecidableEq

/-- A scan that had something to note before it. -/
def Scan.after (s : Scan) (log : List Log.Entry) (refused : Nat) : Scan :=
  { s with refused := refused + s.refused, log := log ++ s.log }

/-- The scan that stops at a fault. -/
def Scan.broken (slot : Int) (reason : String) (confirmed : Nat) : Scan :=
  ⟨none, confirmed, 1, [Log.debug s!"Pump.fun decode error: {reason}" [.slot slot]]⟩

/-- The migration that an event record reports. -/
def report (t : Transaction) (mint : String) (timestamp : Int) (r : Record) : Migration where
  signature := t.signatureText
  slot := t.slot
  timestamp := timestamp
  mint := mint
  pool := Base58.encode (r.raw "pool")
  solAmount := r.number "sol_amount"
  tokenAmount := r.number "mint_amount"

/-- Walks the calls of the program in order. -/
def scan (t : Transaction) (now : Except ClockError Int) : List (Nat × Instruction) → Scan
  | [] => {}
  | (position, ix) :: rest =>
    if ix.data.take 8 ≠ migrateCall then scan t now rest
    else if ix.accounts.length < migrateMinAccounts then
      (scan t now rest).after
        [Log.debug s!"Migrate instruction has {ix.accounts.length} accounts" [.signature t.signatureText]] 0
    else match t.account ix 2 with
      | .error e => .broken t.slot e.message 0
      | .ok none =>
        (scan t now rest).after
          [Log.debug "Migrate mint index out of range" [.signature t.signatureText]] 0
      | .ok (some mint) =>
        let (short, record) := findRecord migrateEventTag migrateEvent (t.innerOf position)
        let log := short.map fun n => Log.debug s!"Migrate event too short: {n} bytes"
        match record with
        | none => (scan t now rest).after log short.length
        | some r => match now with
          | .error e => (Scan.broken t.slot e.message 1).after log short.length
          | .ok ms => ⟨some (report t mint ms r), 1, short.length, log⟩

/-- The first confirmed migration of a transaction. -/
def read (d : Migrations) (now : Except ClockError Int) (t : Transaction) :
    Option Migration × Migrations × List Log.Entry :=
  let s := scan t now (t.callsTo d.program)
  (s.event, { d with successes := d.successes + s.confirmed, failures := d.failures + s.refused }, s.log)

end Migrations

end PoolFeed.Chain
