import PoolFeed.Document
import PoolFeed.Log
import PoolFeed.Roster
import PoolFeed.Text.Blank

/-!
# Environment variables

| here | there |
| --- | --- |
| `Placeholder.read?` | the test of `ConfigLoader._replace_env_vars` for a placeholder, and its cut at the colon |
| `Placeholder.value?` | `getenv` with the default, in `_replace_env_vars`; an empty value is none |
| `resolve`, `resolveItems`, `resolveEntries` | `_replace_env_vars` on any node, on a list and on a mapping |
| `nonEmpty?` | the tests of `_apply_env_overrides` for a variable that is set |

An environment is a roster of variables. A placeholder in a document is a text that is nothing but
one variable, with a default behind a colon or without one; it is replaced by the variable's value,
and an empty value counts as nothing. The replacement is never read again.
-/

namespace PoolFeed.Config

abbrev Env := Roster String

/-- A variable's value; an empty one counts as unset. -/
def nonEmpty? (env : Env) (name : String) : Option String :=
  match env.get? name with
  | some v => if v = "" then none else some v
  | none => none

/-! ## Placeholders -/

/-- A placeholder's variable, and the default behind its first colon. -/
structure Placeholder where
  name : String
  default : Option String
  deriving DecidableEq

/-- The body of a placeholder: a text between a dollar sign with an opening brace and a closing
brace. -/
def placeholderBody? (cs : List Char) : Option (List Char) :=
  match cs with
  | '$' :: '\x7b' :: rest => if rest.getLast? = some '\x7d' then some rest.dropLast else none
  | _ => none

def Placeholder.ofBody (body : List Char) : Placeholder :=
  let trimmed (cs : List Char) : String := String.ofList (Text.trimChars cs)
  if body.contains ':' then
    ⟨trimmed (body.takeWhile (· != ':')), some (trimmed ((body.dropWhile (· != ':')).drop 1))⟩
  else ⟨trimmed body, none⟩

def Placeholder.read? (s : String) : Option Placeholder := (placeholderBody? s.toList).map .ofBody

/-- The value of a placeholder: that of its variable or else its default. -/
def Placeholder.value? (p : Placeholder) (env : Env) : Option String :=
  match env.get? p.name with
  | some v => some v
  | none => p.default

/-- What stands in the place of a value. -/
def ofValue : Option String → Document
  | some v => if v = "" then .null else .str v
  | none => .null

/-- A text with its placeholder resolved; an unset variable without a default is reported. -/
def resolveText (env : Env) (s : String) : Document × List Log.Entry :=
  match Placeholder.read? s with
  | none => (.str s, [])
  | some p =>
    let log := if (p.value? env).isNone then [Log.warning s!"{p.name} is not set; {s} resolves to empty"] else []
    (ofValue (p.value? env), log)

mutual
/-- A document with all its placeholders resolved; keys and shapes stay as they are. -/
def resolve (env : Env) : Document → Document × List Log.Entry
  | .str s => resolveText env s
  | .seq items => let (items, log) := resolveItems env items; (.seq items, log)
  | .map entries => let (entries, log) := resolveEntries env entries; (.map entries, log)
  | d => (d, [])

def resolveItems (env : Env) : List Document → List Document × List Log.Entry
  | [] => ([], [])
  | d :: rest =>
    let (d, log) := resolve env d
    let (rest, more) := resolveItems env rest
    (d :: rest, log ++ more)

def resolveEntries (env : Env) : List (Document × Document) → List (Document × Document) × List Log.Entry
  | [] => ([], [])
  | (k, v) :: rest =>
    let (v, log) := resolve env v
    let (rest, more) := resolveEntries env rest
    ((k, v) :: rest, log ++ more)
end

end PoolFeed.Config
