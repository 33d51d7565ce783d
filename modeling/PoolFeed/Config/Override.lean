import PoolFeed.Config.Check
import PoolFeed.Config.Environment
import PoolFeed.Text.UpperCase

/-!
# Direct overrides

| here | there |
| --- | --- |
| `overrideSections`, `withSection` | `_OVERRIDE_SECTIONS`, and the first loop of `ConfigLoader._apply_env_overrides` |
| `overrides`, `Override.apply` | the eight variables of `_apply_env_overrides`, one after the other |
| `saysYes` | `_TRUE_VALUES` |
| `applyOverrides` | `_apply_env_overrides` |

Eight variables override a setting directly, whatever the document says. The sections that they write
into exist afterwards: one that is missing or no mapping becomes an empty mapping.
-/

namespace PoolFeed.Config

/-- A setting that a variable overrides, and how the variable's text becomes its value. -/
structure Override where
  variable_ : String
  section_ : String
  setting : String
  convert : String → Option Document

/-- The sections that overrides write into. -/
def overrideSections : List String := ["system", "geyser", "registry", "redis", "storage"]

/-- Whether a text says yes. -/
def saysYes (s : String) : Bool := ["1", "true", "yes", "on"].contains (Text.lower (Text.trim s))

def overrides : List Override := [
  ⟨"ENVIRONMENT", "system", "environment", fun s => some (.str s)⟩,
  ⟨"LOG_LEVEL", "system", "log_level", fun s => some (.str (Text.upperCase s))⟩,
  ⟨"GRPC_ENDPOINT", "geyser", "endpoint", fun s => some (.str s)⟩,
  ⟨"GRPC_X_TOKEN", "geyser", "x_token", fun s => some (.str s)⟩,
  ⟨"REDIS_HOST", "redis", "host", fun s => some (.str s)⟩,
  ⟨"REDIS_PORT", "redis", "port", fun s => (Text.integer? s).map .int⟩,
  ⟨"DATABASE_PATH", "storage", "database_path", fun s => some (.str s)⟩,
  ⟨"TRACK_POOL_CREATION", "registry", "track_pool_creation", fun s => some (.bool (saysYes s))⟩]

/-- A section of a mapping, empty if it is missing or no mapping. -/
def sectionOf (e : Entries) (name : String) : Entries :=
  match member? e name with
  | some (.map members) => members
  | _ => []

/-- Makes sure that a section is there. -/
def withSection (e : Entries) (name : String) : Entries :=
  Document.putEntry e (.str name) (.map (sectionOf e name))

/-- Writes a value into a section. -/
def write (e : Entries) (section_ setting : String) (value : Document) : Entries :=
  Document.putEntry e (.str section_) (.map (Document.putEntry (sectionOf e section_) (.str setting) value))

/-- Applies one override; a variable whose text has no value of the setting's kind is an error. -/
def Override.apply (o : Override) (env : Env) (e : Entries) : Except String Entries :=
  match nonEmpty? env o.variable_ with
  | none => .ok e
  | some text => match o.convert text with
    | some value => .ok (write e o.section_ o.setting value)
    | none => .error text

/-- Applies all overrides; the error is the text that could not be converted. -/
def applyOverrides (env : Env) (e : Entries) : Except String Entries :=
  overrides.foldlM (fun e o => o.apply env e) (overrideSections.foldl withSection e)

end PoolFeed.Config
