import PoolFeed.Config.Loader
import PoolFeed.Rehearsal.Stage

/-!
# The command line

| here | there |
| --- | --- |
| `logOf` | `StreamApplication.start`, the stream, and `StreamApplication.stop`, as `run_headless` runs them |
| `outputOf` | `main` with the configuration from the first lines |

Standard input holds the settings as a document, up to a line of three dots, and after that updates in
hexadecimal, one a line. The service is run over the updates, and its log is printed, one entry a line.
The first argument is the time of the wall clock in seconds.
-/

namespace PoolFeed

/-- The lines before the first line of three dots, and those after it. -/
def splitAtDots (lines : List String) : List String × List String :=
  (lines.takeWhile (· != "..."), (lines.dropWhile (· != "...")).drop 1)

/-- An update as an item of the stream. -/
def itemOf (line : String) : StreamItem :=
  (((Bytes.ofHex? line).bind Wire.StreamUpdate.ofBytes?).map StreamItem.update).getD .unreadable

/-- The log of the service from its start to its stop, with some items in between. -/
def logOf (s : Config.Settings) (clock : Binary64) (items : List StreamItem) : List Log.Entry :=
  let world : Rehearsal.Stage := { service := .ofSettings s {}, clock := clock }
  let d := Rehearsal.Stage.start { world := world }
  let d := items.foldl (fun d item => (Rehearsal.Stage.feed d [item]).2) d
  (Rehearsal.Stage.look (Rehearsal.Stage.stop d)).1.log

/-- An entry as it is printed. -/
def printed (e : Log.Entry) : String := e.level.name ++ " " ++ e.message

/-- What is printed for some lines of input, and whether the settings were accepted. -/
def outputOf (env : Config.Env) (clock : Binary64) (lines : List String) : Bool × List String :=
  let (document, updates) := splitAtDots lines
  match (Config.Loader.start "." env none).load (some ("\n".intercalate document)) with
  | (.ok loaded, _, log) =>
    let weight := loaded.settings.system.logLevel.weight
    let log := log ++ logOf loaded.settings clock (updates.map itemOf)
    (true, (log.filter fun e => weight ≤ e.level.weight).map printed)
  | (.error e, _, log) => (false, log.map printed ++ [e.message])

end PoolFeed

open PoolFeed

/-- The lines of a stream that are still to come. -/
partial def readLines (input : IO.FS.Stream) : IO (List String) := do
  let line ← input.getLine
  if line.isEmpty then return []
  return (line.trimAsciiEnd.toString) :: (← readLines input)

/-- The variables that override settings, as the environment has them. -/
def readEnvironment : IO Config.Env := do
  let values ← Config.overrides.mapM fun o => do return (o.variable_, ← IO.getEnv o.variable_)
  return values.filterMap fun (name, value) => value.map fun v => (name, v)

def main (args : List String) : IO UInt32 := do
  let clock := Binary64.ofInt ((args.head?.bind Text.integer?).getD 0)
  let lines ← readLines (← IO.getStdin)
  let (accepted, output) := outputOf (← readEnvironment) clock lines
  output.forM IO.println
  return if accepted then 0 else 1
