/-!
# The file as it comes

| here | there |
| --- | --- |
| `defaultFile` | the `config.yaml` of the service, which `get_app_config` loads |

The configuration file that the service is installed with.
-/

namespace PoolFeed.Config

/-- The lines of the installed file. -/
def defaultLines : List String := [
  "# PumpSwap stream service configuration",
  "# Values of the form $\x7bVAR:default\x7d are read from the environment (or .env).",
  "",
  "system:",
  "  environment: $\x7bENVIRONMENT:development\x7d",
  "  log_level: INFO",
  "  json_logs: true",
  "  log_file: null",
  "  api_enabled: true",
  "  api_host: 0.0.0.0",
  "  api_port: $\x7bAPI_PORT:8000\x7d",
  "",
  "geyser:",
  "  endpoint: $\x7bGRPC_ENDPOINT:solana-yellowstone-grpc.publicnode.com:443\x7d",
  "  x_token: $\x7bGRPC_X_TOKEN:\x7d",
  "  use_tls: true",
  "  commitment: processed",
  "  max_message_size: 67108864",
  "  ping_interval_ms: 5000",
  "  reconnect_delay_ms: 3000",
  "  max_reconnect_attempts: 3",
  "",
  "programs:",
  "  pump_fun: 6EF8rrecthR5Dkzon8Nwu78hRvfCKubJ14M5uBEwF6P",
  "  pump_swap: pAMMBay6oceH9fJKBRHGP5D4bD4sWpmSwMn52FMfXEA",
  "  wrapped_sol_mint: So11111111111111111111111111111111111111112",
  "",
  "registry:",
  "  default_base_decimals: 6",
  "  quote_decimals: 9",
  "  # Also track pools first seen via CreatePool (default: Migrate only)",
  "  track_pool_creation: false",
  "",
  "redis:",
  "  host: $\x7bREDIS_HOST:localhost\x7d",
  "  port: $\x7bREDIS_PORT:6379\x7d",
  "  db: 0",
  "  key_prefix: pumpswap",
  "",
  "storage:",
  "  database_path: $\x7bDATABASE_PATH:data/pumpswap.duckdb\x7d",
  "",
  "fanout:",
  "  flush_interval_ms: 200",
  "  max_buffer_size: null",
  "",
  "metadata:",
  "  workers: 2",
  "  queue_size: 1000"]

/-- The text of the installed file. -/
def defaultFile : String := String.join (defaultLines.map (· ++ "\n"))

end PoolFeed.Config
