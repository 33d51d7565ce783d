import PoolFeed.Log
import PoolFeed.Roster

/-!
# Registry of tracked pools

| here | there |
| --- | --- |
| `Registry` | `PoolRegistry`; `Scale` is `PoolRecord` |
| `register`, `startWrite` | `PoolRegistry.register`, and the task that it creates |
| `load`, `loadFailed`, `loadNothing` | `PoolRegistry.load`: with what the mirror answers, with its failure, and without a mirror |
| `writeDone`, `writeFailed` | a step of `PoolRegistry._write_through`, and its `except` |
| `isTracked`, `decimalsOf`, `size` | `is_tracked`, `decimals_of`, `__len__` |

The registry is the truth while the service runs. A change shows at once; where there is a shared
store it is also written through to it, pool by pool, without waiting: first the membership of a new
pool, then its decimals. Several writes may be under way together, and a write that fails is only
counted.
-/

namespace PoolFeed

/-- The decimals that scale a pool's amounts. -/
structure Scale where
  base : Int
  quote : Int
  deriving DecidableEq

/-- What a write-through does next. -/
inductive WriteStage where
  | tracking
  | scaling
  deriving DecidableEq

/-- A write-through under way. -/
structure PoolWrite where
  ticket : Nat
  address : String
  decimals : Int
  stage : WriteStage
  deriving DecidableEq

structure Registry where
  defaultBase : Int := 6
  quote : Int := 9
  /-- Whether there is a shared store to write to. -/
  shared : Bool := false
  pools : Roster Scale := []
  loaded : Bool := false
  /-- Writes under way, oldest first. -/
  writes : List PoolWrite := []
  nextTicket : Nat := 0
  written : Nat := 0
  failed : Nat := 0

namespace Registry

def isTracked (r : Registry) (address : String) : Bool := r.pools.has address

def size (r : Registry) : Nat := r.pools.length

/-- Base and quote decimals of a pool; an unknown one has the defaults. -/
def decimalsOf (r : Registry) (address : String) : Scale := (r.pools.get? address).getD ⟨r.defaultBase, r.quote⟩

/-- Starts the write-through of a change. -/
def startWrite (r : Registry) (address : String) (decimals : Int) (isNew : Bool) : Registry :=
  if r.shared then
    { r with
      writes := r.writes ++ [⟨r.nextTicket, address, decimals, if isNew then .tracking else .scaling⟩]
      nextTicket := r.nextTicket + 1 }
  else r

/-- Tracks a pool, with the default decimals if none are given; says whether anything changed. -/
def register (r : Registry) (address : String) (decimals : Option Int := none) : Bool × Registry × List Log.Entry :=
  let decimals := decimals.getD r.defaultBase
  let old := r.pools.get? address
  if old.map Scale.base = some decimals then (false, r, [])
  else
    let message :=
      if old.isNone then s!"Tracking pool {address} (base decimals {decimals})"
      else s!"Pool {address} decimals corrected to {decimals}"
    let r := { r with pools := r.pools.put address ⟨decimals, r.quote⟩ }
    (true, r.startWrite address decimals old.isNone, [Log.info message [.pool address]])

/-- Takes in what the shared store knows: the tracked addresses and the decimals of some of them. -/
def load (r : Registry) (tracked : List String) (decimals : Roster Int) : Nat × Registry × List Log.Entry :=
  let pools := tracked.foldl
    (fun pools address => pools.put address ⟨(decimals.get? address).getD r.defaultBase, r.quote⟩) r.pools
  (tracked.length, { r with pools := pools, loaded := true },
    [Log.info s!"Loaded {tracked.length} tracked pools ({decimals.length} with decimals)"])

/-- A load that failed leaves the pools as they are. -/
def loadFailed (r : Registry) (reason : String) : Nat × Registry × List Log.Entry :=
  (0, { r with loaded := true }, [Log.error s!"Failed to load pools from mirror, starting empty: {reason}"])

/-- A load without a shared store. -/
def loadNothing (r : Registry) : Nat × Registry × List Log.Entry := (0, { r with loaded := true }, [])

/-! ## Write-through -/

/-- The oldest write that a predicate picks. -/
def write? (r : Registry) (ticket : Nat) : Option PoolWrite := r.writes.find? (·.ticket == ticket)

def dropWrite (r : Registry) (ticket : Nat) : Registry :=
  { r with writes := r.writes.filter (·.ticket != ticket) }

/-- The command of a write has succeeded: after the membership come the decimals. -/
def writeDone (r : Registry) (ticket : Nat) : Registry :=
  match r.write? ticket with
  | none => r
  | some w => match w.stage with
    | .tracking =>
      { r with writes := r.writes.map fun w => if w.ticket = ticket then { w with stage := .scaling } else w }
    | .scaling => { r.dropWrite ticket with written := r.written + 1 }

/-- The command of a write has failed: the write is given up. -/
def writeFailed (r : Registry) (ticket : Nat) (reason : String) : Registry × List Log.Entry :=
  match r.write? ticket with
  | none => (r, [])
  | some w =>
    ({ r.dropWrite ticket with failed := r.failed + 1 },
      [Log.error s!"Mirror write failed for pool {w.address}: {reason}" [.pool w.address]])

end Registry

end PoolFeed
