import PoolFeed.Config.Dotenv
import PoolFeed.Config.Override

/-!
# Loading the settings

| here | there |
| --- | --- |
| `Loader`, `start` | `ConfigLoader` with `config_dir` and `_cache`; `ConfigLoader.__init__` |
| `document` | `ConfigLoader.load_yaml`, of a file that is there or not |
| `settingsOf`, `build` | `ConfigLoader.load_app_config` without the cache |
| `load`, `reload`, `clear` | `load_app_config`, `reload`, `clear_cache` |
| `LoadError` | the exceptions that they raise |

The settings come from three layers, of which the last one wins: the defaults, the document with its
placeholders resolved, and the overrides of the environment. Loaded settings are kept until they are
dropped; each build of settings has a number of its own.
-/

namespace PoolFeed.Config

/-- Why no settings could be loaded. -/
inductive LoadError where
  /-- There is no file. -/
  | missing (path : String)
  /-- The file's text is no document. -/
  | unreadable (fault : Yaml.Fault)
  /-- The document is no mapping. -/
  | notMapping
  /-- The document has a key that is no text. -/
  | keyNotText
  /-- The port in the environment is no integer. -/
  | badPort (text : String)
  | invalid (issues : List Issue)

def LoadError.message : LoadError → String
  | .missing path => s!"Config file not found: {path}"
  | .unreadable _ => "Invalid YAML"
  | .notMapping => "the document is no mapping"
  | .keyNotText => "keywords must be strings"
  | .badPort text => s!"REDIS_PORT must be an integer, got {Text.quoted text}"
  | .invalid issues => s!"Invalid configuration: {report issues}"

/-- Settings with the number of their build. -/
structure Loaded where
  settings : Settings
  build : Nat

structure Loader where
  /-- Where the file is looked for. -/
  directory : String
  env : Env
  cached : Option Loaded := none
  builds : Nat := 0

namespace Loader

/-- A loader whose environment has the variables of a file added. -/
def start (directory : String) (env : Env) (dotenv : Option String) : Loader :=
  { directory, env := match dotenv with | some file => Dotenv.extend env file | none => env }

/-- The document of a file's text, with its placeholders resolved. A blank document is an empty
mapping. -/
def readDocument (env : Env) (text : String) : Except LoadError (Document × List Log.Entry) :=
  match Yaml.load text with
  | .error fault => .error (.unreadable fault)
  | .ok d => .ok (resolve env (if d.isBlank then .map [] else d))

/-- The document of the file. -/
def document (l : Loader) (file : Option String) : Except LoadError (Document × List Log.Entry) :=
  match file with
  | none => .error (.missing (l.directory ++ "/config.yaml"))
  | some text => readDocument l.env text

/-- Settings from a mapping, with the overrides applied. -/
def settingsOf (env : Env) (d : Document) : Except LoadError Settings :=
  match d with
  | .map entries => match applyOverrides env entries with
    | .error text => .error (.badPort text)
    | .ok entries =>
      if entries.all fun (k, _) => match k with | .str _ => true | _ => false then
        (Settings.ofEntries entries).mapError .invalid
      else .error .keyNotText
  | _ => .error .notMapping

/-- What the log says about a build. -/
def entryOf : Except LoadError Settings → List Log.Entry
  | .ok s => [Log.info (s!"Configuration loaded ({showDeployment s.system.deployment}, endpoint " ++
      s!"{s.geyser.endpoint}, commitment {showCommitment s.geyser.commitment})")]
  | .error (.invalid issues) => [Log.error ("Configuration validation failed: " ++ report issues)]
  | .error _ => []

/-- Builds settings from the file, or from the defaults if there is none. -/
def build (l : Loader) (file : Option String) : Except LoadError Settings × List Log.Entry :=
  let missing := Log.warning s!"No config.yaml in {l.directory}; using defaults"
  match l.document file with
  | .error (.missing _) =>
    let result := settingsOf l.env (.map [])
    (result, missing :: entryOf result)
  | .error e => (.error e, [])
  | .ok (d, log) =>
    let result := settingsOf l.env d
    (result, log ++ entryOf result)

/-- Loads the settings: the kept ones if they may be used and there are any, else newly built ones,
which are then kept. -/
def load (l : Loader) (file : Option String) (useCache : Bool := true) :
    Except LoadError Loaded × Loader × List Log.Entry :=
  match (if useCache then l.cached else none) with
  | some loaded => (.ok loaded, l, [])
  | none => match l.build file with
    | (.error e, log) => (.error e, l, log)
    | (.ok settings, log) =>
      let loaded : Loaded := ⟨settings, l.builds⟩
      let l := { l with builds := l.builds + 1 }
      (.ok loaded, if useCache then { l with cached := some loaded } else l, log)

/-- Drops the kept settings. -/
def clear (l : Loader) : Loader := { l with cached := none }

/-- Drops the kept settings and builds new ones, which are not kept. -/
def reload (l : Loader) (file : Option String) : Except LoadError Loaded × Loader × List Log.Entry :=
  l.clear.load file false

/-- Sets a variable, or unsets it. -/
def setVariable (l : Loader) (name : String) (value : Option String) : Loader :=
  { l with env := match value with | some v => l.env.put name v | none => l.env.erase name }

end Loader

end PoolFeed.Config
