import PoolFeed.Log

/-!
# Settings

| here | there |
| --- | --- |
| `Settings` | `AppConfig` |
| `System`, `Geyser`, `Programs`, `Tracking` | `SystemConfig`, `GeyserConfig`, `ProgramsConfig`, `RegistryConfig`, with their defaults |
| `Sharing`, `Storage`, `Fanout`, `Metadata` | `RedisConfig`, `StorageConfig`, `FanoutConfig`, `MetadataConfig`, likewise |
| `Deployment`, `Commitment` | `Environment`, `Commitment`; `LogLevel` is `Log.Level` |

What the service can be told, section by section, with the value that each setting has when nothing
is written for it.
-/

namespace PoolFeed.Config

/-- A choice, and whether it was written down or is the default. -/
structure Chosen (α : Type) where
  value : α
  written : Bool
  deriving DecidableEq

inductive Deployment where
  | development
  | staging
  | production
  deriving DecidableEq

def Deployment.name : Deployment → String
  | .development => "development"
  | .staging => "staging"
  | .production => "production"

/-- A choice as the log shows it: an untouched default by its full name. -/
def showDeployment (c : Chosen Deployment) : String :=
  if c.written then c.value.name else "Environment." ++ c.value.name.map Char.toUpper

/-- How settled a transaction must be before it is sent. -/
inductive Commitment where
  | processed
  | confirmed
  | finalized
  deriving DecidableEq

def Commitment.name : Commitment → String
  | .processed => "processed"
  | .confirmed => "confirmed"
  | .finalized => "finalized"

def showCommitment (c : Chosen Commitment) : String :=
  if c.written then c.value.name else "Commitment." ++ c.value.name.map Char.toUpper

structure System where
  deployment : Chosen Deployment := ⟨.development, false⟩
  logLevel : Log.Level := .info
  jsonLogs : Bool := true
  logFile : Option String := none
  apiEnabled : Bool := true
  apiHost : String := "0.0.0.0"
  apiPort : Int := 8000
  deriving DecidableEq

/-- The connection to the transaction source. -/
structure Geyser where
  endpoint : String := "solana-yellowstone-grpc.publicnode.com:443"
  token : Option String := none
  useTls : Bool := true
  commitment : Chosen Commitment := ⟨.processed, false⟩
  maxMessageSize : Int := 67108864
  pingIntervalMs : Int := 5000
  reconnectDelayMs : Int := 3000
  maxReconnectAttempts : Int := 3
  deriving DecidableEq

structure Programs where
  pumpFun : String := "6EF8rrecthR5Dkzon8Nwu78hRvfCKubJ14M5uBEwF6P"
  pumpSwap : String := "pAMMBay6oceH9fJKBRHGP5D4bD4sWpmSwMn52FMfXEA"
  wrappedSolMint : String := "So11111111111111111111111111111111111111112"
  deriving DecidableEq

structure Tracking where
  defaultBaseDecimals : Int := 6
  quoteDecimals : Int := 9
  trackPoolCreation : Bool := false
  deriving DecidableEq

/-- The shared store of tracked pools. -/
structure Sharing where
  host : String := "localhost"
  port : Int := 6379
  db : Int := 0
  password : Option String := none
  keyPrefix : String := "pumpswap"
  deriving DecidableEq

structure Storage where
  databasePath : String := "data/pumpswap.duckdb"
  deriving DecidableEq

structure Fanout where
  flushIntervalMs : Int := 200
  maxBufferSize : Option Int := none
  deriving DecidableEq

structure Metadata where
  workers : Int := 2
  queueSize : Int := 1000
  deriving DecidableEq

structure Settings where
  system : System := {}
  geyser : Geyser := {}
  programs : Programs := {}
  registry : Tracking := {}
  redis : Sharing := {}
  storage : Storage := {}
  fanout : Fanout := {}
  metadata : Metadata := {}
  deriving DecidableEq

end PoolFeed.Config
