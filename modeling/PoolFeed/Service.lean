import PoolFeed.Batcher.Turn
import PoolFeed.Gateway.Basic
import PoolFeed.Launch
import PoolFeed.Link.Turn
import PoolFeed.Lookups.Turn
import PoolFeed.Report

/-!
# The service

| here | there |
| --- | --- |
| `ofSettings` | `StreamApplication.__init__`, and `_create_client` |
| `healthPage`, `healths`, `overall` | `StreamApplication.health_check` |
| `statsPage` | `StreamApplication.get_stats` |
| `frontPage`, `page?` | the routes of `create_app` |

All parts of the service, as the settings ask for them, and its monitoring pages: the front page, its
health and its counters.
-/

namespace PoolFeed

structure Service where
  /-- Where the shared store is, as the log shows it. -/
  storeAddress : String
  book : PoolBook
  ledger : Ledger := {}
  rooms : Rooms := {}
  batcher : Batcher Json
  lookups : Lookups
  intake : Intake
  /-- What every new client is like. -/
  gateway : Gateway
  link : Link Transaction

namespace Service

open Config

def addressOf (s : Sharing) : String := s!"{s.host}:{s.port}/{s.db}"

def gatewayOf (s : Geyser) : Gateway where
  endpoint := s.endpoint
  token := s.token
  useTls := s.useTls
  maxMessageSize := s.maxMessageSize

def intakeOf (p : Programs) (t : Tracking) : Intake where
  migrationsReader := { program := p.pumpFun }
  swapsReader := { program := p.pumpSwap }
  tracksCreations := t.trackPoolCreation
  wrappedSol := p.wrappedSolMint

def linkOptions (p : Programs) (g : Geyser) : Link.Options where
  programs := p.followed
  commitment := showCommitment g.commitment
  pingInterval := g.pingIntervalMs.toNat
  retryDelay := g.reconnectDelayMs.toNat
  maxRetries := g.maxReconnectAttempts.toNat

/-- The service that some settings ask for, over a shared store and with a ledger under a path. -/
def ofSettings (s : Settings) (store : SharedStore) (ledgerPath : String := s.storage.databasePath) : Service where
  storeAddress := addressOf s.redis
  book := {
    registry := { defaultBase := s.registry.defaultBaseDecimals, quote := s.registry.quoteDecimals, shared := true }
    store := { store with keyPrefix := s.redis.keyPrefix } }
  ledger := { path := ledgerPath }
  batcher := { interval := s.fanout.flushIntervalMs.toNat, batches := { limit := s.fanout.maxBufferSize } }
  lookups := { workerCount := s.metadata.workers.toNat, capacity := s.metadata.queueSize }
  intake := intakeOf s.programs s.registry
  gateway := gatewayOf s.geyser
  link := { options := linkOptions s.programs s.geyser }

/-! ## Pages -/

/-- The health of the parts that report it, by their names on the page. -/
def healths (s : Service) (now : Nat) : List (String × Health) := [
  ("stream", s.link.health now),
  ("batcher", s.batcher.health now),
  ("metadata_queue", s.lookups.component.health now)]

/-- The health of a whole: that of its parts if all are healthy or one is unhealthy, else degraded. -/
def overall (parts : List Status) : Status :=
  if parts.all (· = .healthy) then .healthy
  else if parts.contains .unhealthy then .unhealthy
  else .degraded

def frontPage (s : Service) : Json := .obj [
  ("name", .str serviceName),
  ("version", .str serviceVersion),
  ("stream_state", .str s.link.state.name),
  ("tracked_pools", .int s.book.registry.size)]

def healthPage (s : Service) (now : Nat) : Json :=
  let parts := s.healths now
  .obj [("status", .str (overall (parts.map (·.2.status))).name),
    ("components", .obj (parts.map fun (name, h) => (name, h.report)))]

def statsPage (s : Service) : Json := .obj [("components", .obj [
  ("stream", s.link.stats),
  ("processor", s.intake.stats),
  ("registry", s.book.registry.stats),
  ("batcher", s.batcher.stats),
  ("broadcaster", s.rooms.stats),
  ("metadata_queue", s.lookups.stats),
  ("store", s.ledger.stats)])]

/-- The page under a path, if there is one. -/
def page? (s : Service) (now : Nat) : String → Option Json
  | "/" => some s.frontPage
  | "/health" => some (s.healthPage now)
  | "/stats" => some s.statsPage
  | _ => none

end Service

end PoolFeed
