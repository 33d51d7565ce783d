import PoolFeed.Chain.Migrations
import PoolFeed.Chain.Swaps
import PoolFeed.Component
import PoolFeed.Config.Issue
import PoolFeed.Config.Settings
import PoolFeed.Intake
import PoolFeed.Ledger
import PoolFeed.Registry
import PoolFeed.Rooms
import PoolFeed.SharedStore
import PoolFeed.TradeLine

/-!
# Reports

| here | there |
| --- | --- |
| `Intake.stats`, `Registry.stats`, `Rooms.stats`, `Ledger.stats` | `get_stats` of `TransactionProcessor`, `PoolRegistry`, `RoomBroadcaster`, `TradeStore` |
| `Chain.Migrations.stats`, `Chain.Swaps.stats` | `get_stats` of the two decoders |
| `Health.report` | the answer of `Component.health_check` |
| `Event.report`, `TradeLine.report`, `Settings.report` | the fields of the events, of `NormalizedTrade` and of `AppConfig` |

What the service tells about itself and about what it has read, as JSON values.
-/

namespace PoolFeed

def Json.ofText : Option String → Json
  | some s => .str s
  | none => .null

def Json.ofNumber : Option Int → Json
  | some i => .int i
  | none => .null

/-- A list of texts. -/
def Json.texts (l : List String) : Json := .arr (l.map .str)

/-! ## Transactions -/

def Instruction.report (ix : Instruction) : Json :=
  .obj [("program_id_index", .int ix.programIndex), ("data", .str ix.data.toHex), ("accounts", .arr (ix.accounts.map .int))]

/-- A transaction, its groups of inner instructions in order of position. -/
def Transaction.report (t : Transaction) : Json :=
  let groups := t.inner.mergeSort fun a b => a.1 ≤ b.1
  .obj [("signature", .str t.signatureText), ("slot", .int t.slot), ("account_keys", .texts t.keys),
    ("instructions", .arr (t.instructions.map Instruction.report)),
    ("inner", .arr (groups.map fun (i, l) => .arr [.int i, .arr (l.map Instruction.report)]))]

/-! ## Log entries -/

def Log.Tag.report : Log.Tag → String × Json
  | .pool a => ("pool", .str a)
  | .signature s => ("signature", .str s)
  | .slot n => ("slot", .ofNumber n)
  | .room r => ("room", .str r)
  | .state s => ("state", .str s)
  | .attempt n => ("attempt", .int n)

def Log.Entry.report (e : Log.Entry) : Json := .arr [.str e.level.name, .str e.message, .obj (e.tags.map Log.Tag.report)]

/-! ## Events and rows -/

def Migration.report (m : Migration) : Json := .obj [
  ("kind", .str "MigrateEvent"), ("signature", .str m.signature), ("slot", .int m.slot), ("timestamp", .int m.timestamp),
  ("mint", .str m.mint), ("pool", .str m.pool), ("sol_amount", .int m.solAmount), ("token_amount", .int m.tokenAmount)]

def PoolCreation.report (c : PoolCreation) : Json := .obj [
  ("kind", .str "CreatePoolEvent"), ("signature", .str c.signature), ("slot", .int c.slot), ("timestamp", .int c.timestamp),
  ("pool", .str c.pool), ("creator", .str c.creator), ("base_mint", .str c.baseMint), ("quote_mint", .str c.quoteMint),
  ("base_amount", .int c.baseAmount), ("quote_amount", .int c.quoteAmount),
  ("base_decimals", .int c.baseDecimals), ("quote_decimals", .int c.quoteDecimals)]

def Trade.report (t : Trade) : Json := .obj [
  ("kind", .str "TradeEvent"), ("signature", .str t.signature), ("slot", .int t.slot), ("timestamp", .int t.timestamp),
  ("side", .str t.side.name), ("pool", .str t.pool), ("user", .str t.user),
  ("base_mint", .str t.baseMint), ("quote_mint", .str t.quoteMint),
  ("token_amount", .int t.tokenAmount), ("sol_amount", .int t.solAmount), ("limit_sol_amount", .int t.limitSolAmount),
  ("protocol_fee", .int t.protocolFee), ("lp_fee", .int t.lpFee), ("price", .float t.price), ("confirmed", .bool t.confirmed)]

def Event.report : Event → Json
  | .migration m => m.report
  | .poolCreation c => c.report
  | .trade t => t.report

def TradeLine.report (t : TradeLine) : Json := .obj [
  ("tx_hash", .str t.txHash), ("type", .str t.side.name), ("price", .float t.price),
  ("base_amount", .float t.baseAmount), ("quote_amount", .float t.quoteAmount), ("time", .int t.time), ("maker", .str t.maker)]

def PoolRow.report (r : PoolRow) : Json := .obj [
  ("address", .str r.address), ("base_mint", .str r.baseMint), ("quote_mint", .str r.quoteMint),
  ("base_decimals", .int r.baseDecimals), ("quote_decimals", .int r.quoteDecimals)]

/-- A stored trade, its time in milliseconds. -/
def TradeRow.report (r : TradeRow) : Json := .obj [
  ("tx_hash", .str r.txHash), ("time", .int (Calendar.millisOfMicros r.time)), ("type", .str r.side),
  ("price", .float r.price), ("base_amount", .float r.baseAmount), ("quote_amount", .float r.quoteAmount)]

/-! ## Settings -/

namespace Config

def System.report (s : System) : Json := .obj [
  ("environment", .str s.deployment.value.name), ("log_level", .str s.logLevel.name), ("json_logs", .bool s.jsonLogs),
  ("log_file", .ofText s.logFile), ("api_enabled", .bool s.apiEnabled), ("api_host", .str s.apiHost), ("api_port", .int s.apiPort)]

def Geyser.report (s : Geyser) : Json := .obj [
  ("endpoint", .str s.endpoint), ("x_token", .ofText s.token), ("use_tls", .bool s.useTls),
  ("commitment", .str s.commitment.value.name), ("max_message_size", .int s.maxMessageSize),
  ("ping_interval_ms", .int s.pingIntervalMs), ("reconnect_delay_ms", .int s.reconnectDelayMs),
  ("max_reconnect_attempts", .int s.maxReconnectAttempts)]

def Settings.report (s : Settings) : Json := .obj [
  ("system", s.system.report),
  ("geyser", s.geyser.report),
  ("programs", .obj [("pump_fun", .str s.programs.pumpFun), ("pump_swap", .str s.programs.pumpSwap),
    ("wrapped_sol_mint", .str s.programs.wrappedSolMint)]),
  ("registry", .obj [("default_base_decimals", .int s.registry.defaultBaseDecimals),
    ("quote_decimals", .int s.registry.quoteDecimals), ("track_pool_creation", .bool s.registry.trackPoolCreation)]),
  ("redis", .obj [("host", .str s.redis.host), ("port", .int s.redis.port), ("db", .int s.redis.db),
    ("password", .ofText s.redis.password), ("key_prefix", .str s.redis.keyPrefix)]),
  ("storage", .obj [("database_path", .str s.storage.databasePath)]),
  ("fanout", .obj [("flush_interval_ms", .int s.fanout.flushIntervalMs), ("max_buffer_size", .ofNumber s.fanout.maxBufferSize)]),
  ("metadata", .obj [("workers", .int s.metadata.workers), ("queue_size", .int s.metadata.queueSize)])]

/-- An issue; only a key that cannot be read is told in words. -/
def Issue.report (i : Issue) : Json :=
  let fields := [("loc", .texts i.place), ("type", .str i.problem.code)]
  .obj (match i.problem with
    | .badKey _ _ => ("msg", .str i.problem.message) :: fields
    | _ => fields)

end Config

/-! ## The shared store -/

/-- What the store holds, without what is empty. -/
def SharedStore.report (s : SharedStore) : Json :=
  let sets := if s.tracked.isEmpty then [] else
    [(s.trackedKey, Json.texts (s.tracked.mergeSort fun a b => decide (a ≤ b)))]
  let hashes := if s.decimals.isEmpty then [] else
    [(s.decimalsKey, Json.obj (s.decimals.map fun (k, v) => (k, .str v)))]
  .obj [("sets", .obj sets), ("hashes", .obj hashes), ("closed", .bool s.closed)]

/-! ## Counters -/

def Health.report (h : Health) : Json := .obj [
  ("component", .str h.component), ("status", .str h.status.name), ("uptime_ms", .int h.uptime), ("details", h.details)]

def Chain.Migrations.stats (d : Chain.Migrations) : Json := .obj [
  ("program_id", .str d.program), ("parse_success_count", .int d.successes), ("parse_failure_count", .int d.failures)]

def Chain.Swaps.stats (d : Chain.Swaps) : Json := .obj [
  ("program_id", .str d.program), ("parse_success_count", .int d.successes), ("parse_failure_count", .int d.failures),
  ("unconfirmed_count", .int d.unconfirmed)]

def Intake.stats (i : Intake) : Json := .obj [
  ("migrations", .int i.migrations), ("pools_created", .int i.creations), ("trades_forwarded", .int i.forwarded),
  ("trades_untracked", .int i.untracked), ("storage_errors", .int i.storageErrors),
  ("pump_fun", i.migrationsReader.stats), ("pump_swap", i.swapsReader.stats)]

def Scale.report (s : Scale) : Json := .arr [.int s.base, .int s.quote]

def Registry.stats (r : Registry) : Json := .obj [
  ("loaded", .bool r.loaded), ("tracked_pools", .int r.size), ("pending_mirror_writes", .int r.writes.length),
  ("mirror_writes", .int r.written), ("mirror_failures", .int r.failed)]

/-- The calls of handlers that completed, by client. -/
def HandlerCall.reports (calls : List HandlerCall) : Json :=
  .arr (((Rooms.completed calls).mergeSort fun a b => decide (a.client ≤ b.client)).map fun c =>
    .arr [.str c.client, .str c.event, c.payload])

def Rooms.stats (r : Rooms) : Json := .obj [
  ("room_emits", .int r.roomEmits), ("global_emits", .int r.globalEmits), ("deliveries", .int r.deliveries),
  ("handler_errors", .int r.handlerErrors), ("last_emit_ms", .ofNumber (r.lastEmit.map Int.ofNat)),
  ("clients", .int r.clients.length), ("rooms", .int r.rooms.length)]

/-- The counters of a ledger; a closed one has no tables. -/
def Ledger.stats (l : Ledger) : Json :=
  let tables := if l.isOpen then [("pools", Json.int l.pools.length), ("trades", Json.int l.trades.length)] else []
  .obj [("database_path", .str l.path), ("pools_written", .int l.poolsWritten), ("trades_written", .int l.tradesWritten),
    ("write_errors", .int l.writeErrors), ("tables", .obj tables)]

end PoolFeed
