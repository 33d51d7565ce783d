import PoolFeed.Registry
import PoolFeed.Text.Integer
import PoolFeed.Text.Quoted

/-!
# The shared key-value store

| here | there |
| --- | --- |
| `SharedStore` | `RedisPoolMirror` with the server behind it |
| `ping`, `close` | `RedisPoolMirror.ping`, `close` |
| `track`, `allTracked`, `isTracked` | `add_tracked_pool`, `get_all_tracked_pools`, `is_pool_tracked` |
| `setDecimals`, `decimals?`, `allDecimals` | `set_pool_decimals`, `get_pool_decimals`, `get_all_pool_decimals` |
| `warm` | `PoolRegistry.load` |
| `writeOne`, `settle` | `PoolRegistry._write_through`, `flush_pending` |
| `PoolBook` | a `PoolRegistry` with its `PoolMirror` |

The store that outlives the service holds, under a common start of their keys, the set of tracked
pools and a table of their decimals as text. Every command may be refused, and the writing ones may be
held back. Through it a registry is filled on start and written to on every change.
-/

namespace PoolFeed

/-- The commands that the service gives. -/
inductive StoreCommand where
  | ping
  | sadd
  | smembers
  | sismember
  | hset
  | hget
  | hgetall
  deriving DecidableEq

def StoreCommand.name : StoreCommand → String
  | .ping => "ping"
  | .sadd => "sadd"
  | .smembers => "smembers"
  | .sismember => "sismember"
  | .hset => "hset"
  | .hget => "hget"
  | .hgetall => "hgetall"

/-- A command that the store refused. -/
structure StoreRefusal where
  command : StoreCommand
  key : String
  reason : String
  deriving DecidableEq

def StoreRefusal.message (r : StoreRefusal) : String := s!"{r.command.name} {r.key} failed: {r.reason}"

structure SharedStore where
  keyPrefix : String := "pumpswap"
  tracked : List String := []
  decimals : Roster String := []
  /-- Names of the commands that are refused. -/
  down : List String := []
  /-- Writes wait while this holds. -/
  held : Bool := false
  closed : Bool := false

namespace SharedStore

def trackedKey (s : SharedStore) : String := s!"{s.keyPrefix}:tracked_pools"

def decimalsKey (s : SharedStore) : String := s!"{s.keyPrefix}:pool_decimals"

def refusal? (s : SharedStore) (c : StoreCommand) : Option String :=
  if s.down.contains c.name then some s!"{c.name} refused" else none

/-- Lets a command on a key through, unless it is refused. -/
def permit (s : SharedStore) (c : StoreCommand) (key : String) : Except StoreRefusal Unit :=
  match s.refusal? c with
  | some reason => .error ⟨c, key, reason⟩
  | none => .ok ()

/-- Whether the store at an address answers. -/
def ping (s : SharedStore) (address : String) : Bool × List Log.Entry :=
  match s.refusal? .ping with
  | none => (true, [Log.info s!"Redis connected: {address}"])
  | some reason => (false, [Log.warning s!"Redis ping failed ({address}): {reason}"])

/-! ## Tracked pools -/

def track (s : SharedStore) (address : String) : Except StoreRefusal SharedStore := do
  s.permit .sadd s.trackedKey
  return if s.tracked.contains address then s else { s with tracked := s.tracked ++ [address] }

/-- The tracked pools in order of their characters. -/
def allTracked (s : SharedStore) : Except StoreRefusal (List String) := do
  s.permit .smembers s.trackedKey
  return s.tracked.mergeSort fun a b => decide (a ≤ b)

def isTracked (s : SharedStore) (address : String) : Except StoreRefusal Bool := do
  s.permit .sismember s.trackedKey
  return s.tracked.contains address

/-! ## Decimals -/

def setDecimals (s : SharedStore) (address : String) (decimals : Int) : Except StoreRefusal SharedStore := do
  s.permit .hset s.decimalsKey
  return { s with decimals := s.decimals.put address (toString decimals) }

/-- Why the decimals of a pool cannot be told. -/
inductive DecimalsError where
  | refused (r : StoreRefusal)
  | notInteger (text : String)

/-- The decimals of a pool; an empty text counts as none. -/
def decimals? (s : SharedStore) (address : String) : Except DecimalsError (Option Int) :=
  match s.permit .hget s.decimalsKey with
  | .error r => .error (.refused r)
  | .ok () => match s.decimals.get? address with
    | none => .ok none
    | some text =>
      if text.isEmpty then .ok none
      else match Text.integer? text with
        | some i => .ok (some i)
        | none => .error (.notInteger text)

/-- Splits a table of texts into the integers in it and notes on the rest. -/
def readDecimals : Roster String → Roster Int × List Log.Entry
  | [] => ([], [])
  | (pool, text) :: rest =>
    let (known, log) := readDecimals rest
    match Text.integer? text with
    | some i => ((pool, i) :: known, log)
    | none => (known, Log.warning s!"Ignoring non-integer decimals for {pool}: {Text.quoted text}" [.pool pool] :: log)

def allDecimals (s : SharedStore) : Except StoreRefusal (Roster Int × List Log.Entry) := do
  s.permit .hgetall s.decimalsKey
  return readDecimals s.decimals

def close (s : SharedStore) : SharedStore := { s with closed := true }

/-! ## Warming a registry -/

/-- Fills a registry from the store; a refused command leaves its pools as they are. -/
def warm (s : SharedStore) (r : Registry) : Nat × Registry × List Log.Entry :=
  match s.allTracked, s.allDecimals with
  | .error e, _ => r.loadFailed e.message
  | _, .error e => r.loadFailed e.message
  | .ok tracked, .ok (decimals, notes) =>
    let (n, r, log) := r.load tracked decimals
    (n, r, notes ++ log)

/-! ## Writing through -/

/-- Gives the next command of a write. -/
def command (s : SharedStore) (w : PoolWrite) : Except StoreRefusal SharedStore :=
  match w.stage with
  | .tracking => s.track w.address
  | .scaling => s.setDecimals w.address w.decimals

/-- Gives the commands of one write until it is done or refused. -/
def writeOne (s : SharedStore) (r : Registry) (w : PoolWrite) : SharedStore × Registry × List Log.Entry :=
  match s.command w with
  | .error e =>
    let (r, log) := r.writeFailed w.ticket e.message
    (s, r, log)
  | .ok s =>
    let r := r.writeDone w.ticket
    match w.stage with
    | .scaling => (s, r, [])
    | .tracking => match s.command { w with stage := .scaling } with
      | .error e =>
        let (r, log) := r.writeFailed w.ticket e.message
        (s, r, log)
      | .ok s => (s, r.writeDone w.ticket, [])

/-- Carries out the writes under way, oldest first, unless the store holds them back. -/
def settle (s : SharedStore) (r : Registry) : SharedStore × Registry × List Log.Entry :=
  if s.held then (s, r, [])
  else r.writes.foldl (fun (s, r, log) w =>
    let (s, r, more) := s.writeOne r w
    (s, r, log ++ more)) (s, r, [])

end SharedStore

/-- A registry with the store that it shares, if it shares one. -/
structure PoolBook where
  registry : Registry
  store : SharedStore

namespace PoolBook

def load (b : PoolBook) : Nat × PoolBook × List Log.Entry :=
  let (n, r, log) := if b.registry.shared then b.store.warm b.registry else b.registry.loadNothing
  (n, { b with registry := r }, log)

def register (b : PoolBook) (address : String) (decimals : Option Int) : Bool × PoolBook × List Log.Entry :=
  let (changed, r, log) := b.registry.register address decimals
  (changed, { b with registry := r }, log)

/-- Registers several pools before any write is carried out. -/
def registerAll (b : PoolBook) : List (String × Option Int) → List Bool × PoolBook × List Log.Entry
  | [] => ([], b, [])
  | (address, decimals) :: rest =>
    let (changed, b, log) := b.register address decimals
    let (more, b, moreLog) := b.registerAll rest
    (changed :: more, b, log ++ moreLog)

/-- Carries out one write, if it is under way and the store does not hold it back. -/
def write (b : PoolBook) (ticket : Nat) : PoolBook × List Log.Entry :=
  match b.registry.write? ticket with
  | none => (b, [])
  | some w =>
    if b.store.held then (b, [])
    else
      let (s, r, log) := b.store.writeOne b.registry w
      ({ registry := r, store := s }, log)

/-- Carries out the writes under way. -/
def settle (b : PoolBook) : PoolBook × List Log.Entry :=
  let (s, r, log) := b.store.settle b.registry
  ({ registry := r, store := s }, log)

end PoolBook

end PoolFeed
