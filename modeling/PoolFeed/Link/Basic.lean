import PoolFeed.Binary64.Decimal
import PoolFeed.Component
import PoolFeed.Tasks

/-!
# The upstream link: its parts

| here | there |
| --- | --- |
| `Link` | the fields of `StreamConnectionManager`; `retry`, `reader`, `keeper` are `_retry_task`, `_reader_task`, `_ping_task` |
| `LinkState` | `ConnectionState` |
| `Stage` | the places at which `connect`, `_close_client`, `_delayed_connect`, `_read_loop`, `_keepalive_loop` and `_process_record` await |
| `inflight` | `_inflight` |
| `stats`, `health` | `StreamConnectionManager.get_stats`, `health_check` |

The link keeps one subscription to the upstream service open. It runs as a number of tasks: callers
that start, stop or connect it, one that waits to try again, one that reads the subscription, one that
keeps it alive, and one for each record that was read. A task always stands at a stage, where it waits
for one outcome; a turn takes it from one stage to the next, changes the link and leaves a list of
actions for the world outside. Clients are numbered in order of creation, and a subscription has the
number of the client that opened it.
-/

namespace PoolFeed

inductive LinkState where
  | disconnected
  | connecting
  | connected
  | reconnecting
  deriving DecidableEq

def LinkState.name : LinkState → String
  | .disconnected => "disconnected"
  | .connecting => "connecting"
  | .connected => "connected"
  | .reconnecting => "reconnecting"

namespace Link

structure Options where
  programs : List String
  commitment : String := "processed"
  /-- Milliseconds between keepalive pings. -/
  pingInterval : Nat := 5000
  /-- Milliseconds before a retry. -/
  retryDelay : Nat := 3000
  /-- Retries in a row before the link gives up. -/
  maxRetries : Nat := 3

/-- A record read from a subscription, with the slot it belongs to. -/
structure Incoming (ρ : Type) where
  body : ρ
  slot : Option Int

/-- What a caller can ask of the link. -/
inductive Call where
  | start
  | stop
  | connect
  | handleDisconnect
  deriving DecidableEq

/-- What follows the closing of a client. -/
inductive AfterClose where
  /-- A teardown, which goes on to a retry. -/
  | teardown
  /-- A connection that was stopped while it opened. -/
  | abandoned
  /-- A stop. -/
  | stop
  deriving DecidableEq

/-- Where a task stands. The stages that begin a task have not run yet. -/
inductive Stage (ρ : Type) where
  | called (c : Call)
  | opening (client : Nat)
  | greeting (client : Nat)
  | subscribing (client : Nat)
  | closing (client : Nat) (next : AfterClose)
  | toRetry
  | pausing
  | toRead (sub : Nat)
  | reading (sub : Nat)
  | toKeep (sub : Nat)
  | keeping (sub : Nat)
  | pinging (sub : Nat)
  | toProcess (record : Incoming ρ)
  | processing (record : Incoming ρ)

/-- What a task has waited for. -/
inductive Outcome (ρ : Type) where
  | done
  | version (text : String)
  | failed (reason : String)
  | record (r : Incoming ρ)
  | ended

/-- Who is told of a change of state: at once, a moment later, or someone who fails at it. -/
inductive Listener where
  | direct
  | deferred
  | broken (reason : String)
  deriving DecidableEq

/-- What a task waits for. -/
inductive Request (ρ : Type) where
  | opened (client : Nat)
  | version (client : Nat)
  | subscribed (client : Nat)
  | closed (client : Nat)
  | next (sub : Nat)
  | pinged (sub : Nat)
  | slept (ms : Nat)
  | processed (record : Incoming ρ)

/-- What a turn leaves for the world outside. -/
inductive Action (ρ : Type) where
  | log (e : Log.Entry)
  /-- A client was asked for. -/
  | create (client : Nat)
  /-- A subscription was cancelled. -/
  | cancel (sub : Nat)
  /-- A listener was told of a change. -/
  | tell (l : Listener) (old new : LinkState)
  /-- A task was created, or told to give up: it has to be resumed soon. -/
  | wake (task turn : Nat)
  /-- A task waits. -/
  | await (task turn : Nat) (r : Request ρ)
  | ended (task : Nat) (e : Ending)

/-- How the calls that answer at once turn out in one turn: for each number, the reason for which
creating that client or cancelling that subscription fails, if it does. -/
structure Luck where
  create : Nat → Option String := fun _ => none
  cancel : Nat → Option String := fun _ => none

end Link

structure Link (ρ : Type) where
  options : Link.Options
  listeners : List Link.Listener := []
  component : Component := ⟨"stream_manager", none⟩
  state : LinkState := .disconnected
  retries : Nat := 0
  stopping : Bool := false
  client : Option Nat := none
  subscription : Option Nat := none
  keeper : Option Nat := none
  reader : Option Nat := none
  retry : Option Nat := none
  tasks : Tasks (Link.Stage ρ) := {}
  /-- Clients asked for so far. -/
  clients : Nat := 0
  connections : Nat := 0
  disconnects : Nat := 0
  received : Nat := 0
  processed : Nat := 0
  processingErrors : Nat := 0
  pingFailures : Nat := 0
  version : Option String := none

namespace Link

variable {ρ : Type}

/-- Whether a stage is one of a record under way. -/
def Stage.isRecord : Stage ρ → Bool
  | .toProcess _ | .processing _ => true
  | _ => false

/-- Records under way. -/
def inflight (l : Link ρ) : Nat := (l.tasks.live.filter (·.stage.isRecord)).length

def isStarted (l : Link ρ) : Bool := l.component.isStarted

def stats (l : Link ρ) : Json := .obj [
  ("state", .str l.state.name),
  ("retry_count", .int l.retries),
  ("server_version", match l.version with | some v => .str v | none => .null),
  ("connections", .int l.connections),
  ("disconnects", .int l.disconnects),
  ("records_received", .int l.received),
  ("records_processed", .int l.processed),
  ("processing_errors", .int l.processingErrors),
  ("inflight", .int l.inflight),
  ("ping_failures", .int l.pingFailures)]

/-- The health of a link that is started shows its state. -/
def health (l : Link ρ) (now : Nat) : Health :=
  let h := l.component.health now
  let status :=
    if l.isStarted then
      match l.state with
      | .connected => .healthy
      | .disconnected => .unhealthy
      | .connecting | .reconnecting => .degraded
    else h.status
  { h with status := status, details := l.stats }

end Link

end PoolFeed
