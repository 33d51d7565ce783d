import PoolFeed.Config.Settings

/-!
# Launch plans

| here | there |
| --- | --- |
| `LaunchPlan.ofSettings` | `main`: the arguments of `setup_logging`, and then `create_app` or `run_headless` |
| `followed` | the `program_ids` of `StreamApplication.__init__` |
| `serviceVersion` | `__version__` |

How the service is started by its settings: where the log goes, and whether it serves the monitoring
pages or runs without them.
-/

namespace PoolFeed

/-- The name of the service, and its version. -/
def serviceName : String := "PumpSwap Stream"

def serviceVersion : String := "0.1.0"

inductive LaunchMode where
  /-- Serves the monitoring pages, with a level for the server's own log. -/
  | monitored (host : String) (port : Int) (serverLevel : String)
  /-- Follows the programs until it is told to stop. -/
  | headless (programs : List String)
  deriving DecidableEq

structure LaunchPlan where
  logLevel : String
  logFile : Option String
  jsonLogs : Bool
  mode : LaunchMode
  deriving DecidableEq

/-- The programs whose transactions the service follows. -/
def Config.Programs.followed (p : Config.Programs) : List String := [p.pumpSwap, p.pumpFun]

def LaunchPlan.ofSettings (s : Config.Settings) : LaunchPlan where
  logLevel := s.system.logLevel.name
  logFile := s.system.logFile
  jsonLogs := s.system.jsonLogs
  mode :=
    if s.system.apiEnabled then
      .monitored s.system.apiHost s.system.apiPort (s.system.logLevel.name.map Char.toLower)
    else .headless s.programs.followed

end PoolFeed
