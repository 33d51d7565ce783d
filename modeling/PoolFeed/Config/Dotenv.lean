import PoolFeed.Config.Environment
import PoolFeed.Yaml.Load

/-!
# Files of variables

| here | there |
| --- | --- |
| `binding`, `bindings` | what `load_dotenv` reads of the file that `ConfigLoader.__init__` gives it |
| `expand` | its replacement of variables in a value |
| `extend` | what it adds to the environment |

A file of variables has one binding a line: a key, an equals sign and a value, plain or between
quotes. A value may use variables that are set already. A line that is no binding is passed over, and
a variable that the environment has is never changed.
-/

namespace PoolFeed.Config.Dotenv

open Text (isBlank)

def isInnerBlank (c : Char) : Bool := isBlank c && c != '\n'

/-- The characters up to a closing quote and what follows it. A quote behind a backslash closes only
if no other one does. -/
def untilQuote (quote : Char) (cs : List Char) : Option (List Char × List Char) :=
  let positions := (List.range cs.length).filter fun i => cs[i]? == some quote
  let free := positions.find? fun i => i == 0 || cs[i - 1]? != some '\\'
  (free <|> positions.getLast?).map fun i => (cs.take i, cs.drop (i + 1))

/-- Resolves escapes; a backslash before any other character stays. -/
def unescape (escape? : Char → Option Char) : List Char → List Char
  | [] => []
  | [c] => [c]
  | c :: d :: rest =>
    if c = '\\' then
      match escape? d with
      | some e => e :: unescape escape? rest
      | none => c :: unescape escape? (d :: rest)
    else c :: unescape escape? (d :: rest)
termination_by cs => cs.length

def singleEscape? (c : Char) : Option Char := if c = '\\' ∨ c = '\'' then some c else none

def doubleEscape? : Char → Option Char
  | '\\' => some '\\'
  | '\'' => some '\''
  | '"' => some '"'
  | 'a' => some '\x07'
  | 'b' => some '\x08'
  | 'f' => some '\x0c'
  | 'n' => some '\n'
  | 'r' => some '\r'
  | 't' => some '\t'
  | 'v' => some '\x0b'
  | _ => none

/-- A plain value without its comment, which stands behind a blank. -/
def cutComment : List Char → List Char
  | [] => []
  | c :: rest =>
    if isBlank c && (rest.dropWhile isBlank).head? == some '#' then [] else c :: cutComment rest

/-- A value and what follows it. -/
def value? (cs : List Char) : Option (List Char × List Char) :=
  match cs with
  | '\'' :: rest => (untilQuote '\'' rest).map fun (v, after) => (unescape singleEscape? v, after)
  | '"' :: rest => (untilQuote '"' rest).map fun (v, after) => (unescape doubleEscape? v, after)
  | _ =>
    let part := cs.takeWhile (· != '\n')
    some (((cutComment part).reverse.dropWhile isBlank).reverse, cs.dropWhile (· != '\n'))

/-- The rest of a line may hold only a comment. -/
def endLine? (cs : List Char) : Option (List Char) :=
  let cs := cs.dropWhile isInnerBlank
  let cs := if cs.head? = some '#' then cs.dropWhile (· != '\n') else cs
  match cs with
  | [] => some []
  | c :: rest => if c = '\n' then some rest else none

/-- The word in front of a key that is passed over. -/
def dropExport (cs : List Char) : List Char :=
  if cs.take 6 = "export".toList ∧ ((cs.drop 6).headD '\n' |> isInnerBlank) then (cs.drop 6).dropWhile isInnerBlank
  else cs

/-- A key and what follows it; a comment has no key. -/
def key? (cs : List Char) : Option (Option (List Char) × List Char) :=
  match cs with
  | '#' :: _ => some (none, cs)
  | '\'' :: rest =>
    let key := rest.takeWhile (· != '\'')
    if key.isEmpty || key.length = rest.length then none else some (some key, rest.drop (key.length + 1))
  | _ =>
    let key := cs.takeWhile fun c => !(c == '=' || c == '#' || isBlank c)
    if key.isEmpty then none else some (some key, cs.drop key.length)

/-- A part of a line, or the place where it should have stood. -/
def orAt {α : Type} (place : List Char) : Option α → Except (List Char) α
  | some a => .ok a
  | none => .error place

/-- One binding and what follows its line; the error is the place where the reading stopped. -/
def binding (cs : List Char) : Except (List Char) (Option (String × Option String) × List Char) := do
  let start := dropExport cs
  let (key, rest) ← orAt start (key? start)
  let (value, rest) ← match rest.dropWhile isInnerBlank with
    | '=' :: after =>
      let start := after.dropWhile isInnerBlank
      (orAt start (value? start)).map fun (v, rest) => (some v, rest)
    | rest => .ok (none, rest)
  let rest ← orAt rest (endLine? rest)
  return (key.map fun k => (String.ofList k, value.map String.ofList), rest)

/-- The bindings of a file, in order. Where a line is no binding, the reading goes on behind the line
on which it stopped. -/
def bindings : Nat → List Char → List (String × Option String)
  | 0, _ => []
  | fuel + 1, cs =>
    let cs := cs.dropWhile isBlank
    if cs.isEmpty then []
    else match binding cs with
      | .ok (some b, rest) => b :: bindings fuel rest
      | .ok (none, rest) => bindings fuel rest
      | .error place => bindings fuel ((place.dropWhile (· != '\n')).drop 1)

/-- The name of a variable in braces, its default behind a colon and a dash, and what follows. -/
def braced? (cs : List Char) : Option (List Char × List Char × List Char) :=
  let name := cs.takeWhile fun c => c != '\x7d' && c != ':'
  match cs.drop name.length with
  | '\x7d' :: rest => some (name, [], rest)
  | ':' :: '-' :: rest =>
    let default := rest.takeWhile (· != '\x7d')
    match rest.drop default.length with
    | _ :: rest => some (name, default, rest)
    | [] => none
  | _ => none

/-- A value with the variables in braces replaced. -/
def expand (get? : String → Option String) : Nat → List Char → List Char
  | 0, cs => cs
  | _, [] => []
  | fuel + 1, c :: rest =>
    match c, rest with
    | '$', '\x7b' :: body => match braced? body with
      | some (name, default, after) => ((get? (String.ofList name)).map String.toList).getD default ++ expand get? fuel after
      | none => c :: expand get? fuel rest
    | _, _ => c :: expand get? fuel rest

/-- The environment with a file's variables added. -/
def extend (env : Env) (file : String) : Env :=
  let cs := Yaml.unifyLines file.toList
  let values : Roster (Option String) := (bindings (cs.length + 1) cs).foldl (fun out (key, value) =>
    let get? (name : String) : Option String :=
      match env.get? name with
      | some v => some v
      | none => (Roster.get? out name).map (·.getD "")
    Roster.put out key (value.map fun v => String.ofList (expand get? (v.length + 1) v.toList))) []
  values.foldl (fun env (key, value) => match value with
    | some v => if env.has key then env else env.put key v
    | none => env) env

end PoolFeed.Config.Dotenv
