import PoolFeed.Config.Issue
import PoolFeed.Config.Settings
import PoolFeed.Text.Integer

/-!
# Checking a document

| here | there |
| --- | --- |
| `Settings.ofEntries` | `AppConfig(**data)`, as `ConfigLoader.load_app_config` calls it |
| `System.read`, `Geyser.read`, `Programs.read`, `Tracking.read` | the checks of `SystemConfig`, `GeyserConfig`, `ProgramsConfig`, `RegistryConfig` |
| `Sharing.read`, `Storage.read`, `Fanout.read`, `Metadata.read` | the checks of `RedisConfig`, `StorageConfig`, `FanoutConfig`, `MetadataConfig` |
| `readPublicKey` | `ProgramsConfig.valid_pubkey` |
| `readBounded`, `readChosen`, `readBoolean`, `readPath` | the lax conversions to the types of the fields, with the bounds that `Field` gives |

Settings are read from a mapping of sections. A value of a near type is converted where nothing is
lost; all issues are collected, in the order of the settings.
-/

namespace PoolFeed.Config

/-! ## Collecting issues -/

/-- A value, unless there are issues. -/
structure Checked (α : Type) where
  value : Option α
  issues : List Issue

instance : Functor Checked where
  map f c := ⟨c.value.map f, c.issues⟩

instance : Applicative Checked where
  pure a := ⟨some a, []⟩
  seq f c := let c := c (); ⟨f.value.bind fun f => c.value.map f, f.issues ++ c.issues⟩

abbrev Entries := List (Document × Document)

/-- The member of a mapping under a name. -/
def member? (entries : Entries) (name : String) : Option Document :=
  (entries.find? fun (k, _) => match k with | .str s => s == name | _ => false).map (·.2)

/-- A setting of a section: the default if nothing is written. -/
def setting {α : Type} (section_ : String) (entries : Entries) (name : String) (default : α)
    (read : Document → Except Problem α) : Checked α :=
  match member? entries name with
  | none => pure default
  | some d => match read d with
    | .ok a => pure a
    | .error p => ⟨none, [⟨[section_, name], p, d⟩]⟩

/-- A section: the defaults if it is missing, and an issue of its own if it is no mapping. -/
def group {α : Type} (entries : Entries) (name settings : String) (read : Entries → Checked α) : Checked α :=
  match member? entries name with
  | none => read []
  | some (.map members) => read members
  | some d => ⟨none, [⟨[name], .notMapping settings, d⟩]⟩

/-! ## Texts -/

def readText : Document → Except Problem String
  | .str s => .ok s
  | .bytes b => match String.fromUTF8? ⟨b.toArray⟩ with
    | some s => .ok s
    | none => .error .notUnicode
  | _ => .error .notText

/-- A value that may be left blank. -/
def readOptional {α : Type} (read : Document → Except Problem α) : Document → Except Problem (Option α)
  | .null => .ok none
  | d => (read d).map some

def readPublicKey (d : Document) : Except Problem String := do
  let s ← readText d
  match Base58.publicKey? s with
  | .ok _ => return s
  | .error e => .error (.badKey s e)

/-- One of a few named values. -/
def readChoice {α : Type} (choices : List α) (name : α → String) (d : Document) : Except Problem α :=
  let found := match readText d with
    | .ok s => choices.find? fun a => name a == s
    | .error _ => none
  match found with
  | some a => .ok a
  | none => .error (.notOneOf (choices.map name))

/-- A choice that counts as written down. -/
def readChosen {α : Type} (choices : List α) (name : α → String) (d : Document) : Except Problem (Chosen α) :=
  (readChoice choices name d).map fun a => ⟨a, true⟩

/-- The parts of a path: empty ones and single dots say nothing. -/
def pathParts (s : String) : List String := (s.splitOn "/").filter fun p => p != "" && p != "."

/-- The root that a path starts from: exactly two slashes are a root of their own. -/
def pathRoot (s : String) : String :=
  match s.toList.takeWhile (· == '/') with
  | [] => ""
  | ['/', '/'] => "//"
  | _ => "/"

/-- A path without what says nothing. -/
def cleanPath (s : String) : String :=
  let path := pathRoot s ++ "/".intercalate (pathParts s)
  if path = "" then "." else path

def readPath : Document → Except Problem String
  | .str s => .ok (cleanPath s)
  | _ => .error .notPath

/-! ## Integers -/

/-- White space around a number: the blanks without the four separators of information. -/
def isSpace (c : Char) : Bool := Text.isBlank c && !(0x1c ≤ c.toNat && c.toNat ≤ 0x1f)

/-- A number without the zeros in front of it, and the underscores among these; a zero stays if it is
all there is or if a point follows. A number with a minus sign keeps its zeros. -/
def dropZeros? (cs : List Char) : Option (List Char) :=
  let isZero (c : Char) : Bool := c == '0' || c == '_'
  match cs with
  | '-' :: _ => some cs
  | '0' :: _ => match cs.dropWhile isZero with
    | [] => some (cs.drop (cs.length - 1))
    | '.' :: _ => some (cs.drop ((cs.takeWhile isZero).length - 1))
    | c :: rest => if c.isDigit then some (c :: rest) else none
  | c :: _ => if c.isDigit then some cs else none
  | [] => none

/-- A number without the point and the zeros behind it. -/
def dropFraction (cs : List Char) : List Char :=
  if (cs.dropWhile (· != '.')).tail.all (· == '0') then cs.takeWhile (· != '.') else cs

/-- A number without the single underscores inside it. -/
def dropUnderscores (cs : List Char) : List Char :=
  if Text.underscoresBetween cs then cs.filter (· != '_') else cs

/-- The sign and the digits that count of an integer in text. -/
def significant? (s : String) : Option (Bool × List Char) := do
  let cs := Text.trimWhere isSpace s.toList
  let cs ← match cs with
    | '+' :: '-' :: _ => none
    | '+' :: rest => some rest
    | _ => some cs
  match dropUnderscores (dropFraction (← dropZeros? cs)) with
  | '-' :: digits => some (true, digits)
  | digits => some (false, digits)

/-- An integer in text: digits of ASCII without a zero in front. -/
def readIntegerText (s : String) : Except Problem Int :=
  match significant? s with
  | none => .error .unreadableInteger
  | some (negative, digits) =>
    let plain := digits.all Char.isDigit && (digits == ['0'] || digits.headD '0' != '0')
    if !plain then .error .unreadableInteger
    else if Text.digitLimit < digits.length then .error .tooManyDigits
    else
      let n : Int := digits.foldl (fun n c => 10 * n + (c.toNat - '0'.toNat : Int)) 0
      .ok (if negative then -n else n)

/-- The signed words of 64 bits reach from `-wordLimit` up to, and without, `wordLimit`. -/
def wordLimit : Int := 0x8000000000000000

/-- A double that is a whole number of 64 bits. -/
def readIntegerDouble (x : Binary64) : Except Problem Int :=
  if !x.isFinite then .error .notFinite
  else match x.toInt? with
    | none => .error .fractional
    | some i => if -wordLimit < i ∧ i < wordLimit then .ok i else .error .fractional

def readInteger : Document → Except Problem Int
  | .int i => .ok i
  | .bool b => .ok (if b then 1 else 0)
  | .float x => readIntegerDouble x
  | .str s => readIntegerText s
  | .bytes b => match String.fromUTF8? ⟨b.toArray⟩ with
    | some s => readIntegerText s
    | none => .error .unreadableInteger
  | _ => .error .notInteger

/-- The bounds of an integer. -/
structure Bounds where
  least : Option Int := none
  most : Option Int := none
  above : Option Int := none

def Bounds.check (b : Bounds) (i : Int) : Except Problem Int :=
  match b.most.filter (· < i), b.least.filter (i < ·), b.above.filter (i ≤ ·) with
  | some n, _, _ => .error (.above n)
  | none, some n, _ => .error (.below n)
  | none, none, some n => .error (.notAbove n)
  | none, none, none => .ok i

def readBounded (b : Bounds) (d : Document) : Except Problem Int := do b.check (← readInteger d)

/-! ## Booleans -/

def readBooleanText (s : String) : Except Problem Bool :=
  let word := Text.lower s
  if ["1", "t", "true", "y", "yes", "on"].contains word then .ok true
  else if ["0", "f", "false", "n", "no", "off"].contains word then .ok false
  else .error .unreadableBoolean

def readBooleanInteger (i : Int) : Except Problem Bool :=
  if i = 0 then .ok false else if i = 1 then .ok true else .error .unreadableBoolean

def readBoolean : Document → Except Problem Bool
  | .bool b => .ok b
  | .str s => readBooleanText s
  | .bytes b => match String.fromUTF8? ⟨b.toArray⟩ with
    | some s => readBooleanText s
    | none => .error .unreadableBoolean
  | .int i => if -wordLimit ≤ i ∧ i < wordLimit then readBooleanInteger i else .error .notBoolean
  | .float x => match readIntegerDouble x with
    | .ok i => readBooleanInteger i
    | .error _ => .error .notBoolean
  | _ => .error .notBoolean

/-! ## Sections -/

def System.read (e : Entries) : Checked System :=
  let default : System := {}
  System.mk
    <$> setting "system" e "environment" default.deployment (readChosen [.development, .staging, .production] Deployment.name)
    <*> setting "system" e "log_level" default.logLevel
      (readChoice [.debug, .info, .warning, .error, .critical] Log.Level.name)
    <*> setting "system" e "json_logs" default.jsonLogs readBoolean
    <*> setting "system" e "log_file" default.logFile (readOptional readText)
    <*> setting "system" e "api_enabled" default.apiEnabled readBoolean
    <*> setting "system" e "api_host" default.apiHost readText
    <*> setting "system" e "api_port" default.apiPort (readBounded { least := some 1024, most := some 65535 })

def Geyser.read (e : Entries) : Checked Geyser :=
  let default : Geyser := {}
  Geyser.mk
    <$> setting "geyser" e "endpoint" default.endpoint readText
    <*> setting "geyser" e "x_token" default.token (readOptional readText)
    <*> setting "geyser" e "use_tls" default.useTls readBoolean
    <*> setting "geyser" e "commitment" default.commitment (readChosen [.processed, .confirmed, .finalized] Commitment.name)
    <*> setting "geyser" e "max_message_size" default.maxMessageSize (readBounded { above := some 0 })
    <*> setting "geyser" e "ping_interval_ms" default.pingIntervalMs (readBounded { above := some 0 })
    <*> setting "geyser" e "reconnect_delay_ms" default.reconnectDelayMs (readBounded { least := some 0 })
    <*> setting "geyser" e "max_reconnect_attempts" default.maxReconnectAttempts (readBounded { least := some 0 })

def Programs.read (e : Entries) : Checked Programs :=
  let default : Programs := {}
  Programs.mk
    <$> setting "programs" e "pump_fun" default.pumpFun readPublicKey
    <*> setting "programs" e "pump_swap" default.pumpSwap readPublicKey
    <*> setting "programs" e "wrapped_sol_mint" default.wrappedSolMint readPublicKey

def Tracking.read (e : Entries) : Checked Tracking :=
  let default : Tracking := {}
  let decimals : Bounds := { least := some 0, most := some 18 }
  Tracking.mk
    <$> setting "registry" e "default_base_decimals" default.defaultBaseDecimals (readBounded decimals)
    <*> setting "registry" e "quote_decimals" default.quoteDecimals (readBounded decimals)
    <*> setting "registry" e "track_pool_creation" default.trackPoolCreation readBoolean

def Sharing.read (e : Entries) : Checked Sharing :=
  let default : Sharing := {}
  Sharing.mk
    <$> setting "redis" e "host" default.host readText
    <*> setting "redis" e "port" default.port (readBounded { least := some 1, most := some 65535 })
    <*> setting "redis" e "db" default.db (readBounded { least := some 0 })
    <*> setting "redis" e "password" default.password (readOptional readText)
    <*> setting "redis" e "key_prefix" default.keyPrefix readText

def Storage.read (e : Entries) : Checked Storage :=
  let default : Storage := {}
  Storage.mk <$> setting "storage" e "database_path" default.databasePath readPath

def Fanout.read (e : Entries) : Checked Fanout :=
  let default : Fanout := {}
  Fanout.mk
    <$> setting "fanout" e "flush_interval_ms" default.flushIntervalMs (readBounded { above := some 0 })
    <*> setting "fanout" e "max_buffer_size" default.maxBufferSize (readOptional (readBounded { above := some 0 }))

def Metadata.read (e : Entries) : Checked Metadata :=
  let default : Metadata := {}
  Metadata.mk
    <$> setting "metadata" e "workers" default.workers (readBounded { least := some 1, most := some 32 })
    <*> setting "metadata" e "queue_size" default.queueSize (readBounded { above := some 0 })

/-- All settings of a mapping of sections. -/
def Settings.read (e : Entries) : Checked Settings :=
  Settings.mk
    <$> group e "system" "SystemConfig" System.read
    <*> group e "geyser" "GeyserConfig" Geyser.read
    <*> group e "programs" "ProgramsConfig" Programs.read
    <*> group e "registry" "RegistryConfig" Tracking.read
    <*> group e "redis" "RedisConfig" Sharing.read
    <*> group e "storage" "StorageConfig" Storage.read
    <*> group e "fanout" "FanoutConfig" Fanout.read
    <*> group e "metadata" "MetadataConfig" Metadata.read

/-- The settings of a mapping, or all its issues. -/
def Settings.ofEntries (e : Entries) : Except (List Issue) Settings :=
  match Settings.read e with
  | ⟨some s, []⟩ => .ok s
  | ⟨_, issues⟩ => .error issues

end PoolFeed.Config
