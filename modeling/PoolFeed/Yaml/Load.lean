import PoolFeed.Document
import PoolFeed.Yaml.Lexing
import PoolFeed.Yaml.Node

/-!
# Documents from YAML text

| here | there |
| --- | --- |
| `load` | `safe_load`, as `ConfigLoader.load_yaml` calls it |
| `construct` | the constructors of `safe_load` |
| `readInteger`, `readDouble`, `readTruth`, `readTime`, `readBinary` | those of scalars |

A node becomes a document as its kind says. A text without a document is null.
-/

namespace PoolFeed.Yaml

/-! ## Numbers -/

/-- Digits of a base up to eight, with a sign. -/
def readBase (base : Nat) (cs : List Char) : Result Int :=
  let digits := dropSign cs
  if digits.isEmpty || !digits.all (fun c => '0' ≤ c && decide (c.toNat < '0'.toNat + base)) then .error .badLiteral
  else
    let n := digits.foldl (fun n c => base * n + (c.toNat - '0'.toNat)) 0
    .ok (if cs.head? = some '-' then -(n : Int) else n)

def readHex (cs : List Char) : Result Int :=
  match cs.isEmpty, hexNumber? cs with
  | false, some n => .ok n
  | _, _ => .error .badLiteral

def readDecimal (cs : List Char) : Result Int :=
  match Text.integer? (String.ofList cs) with
  | some n => .ok n
  | none => .error .badLiteral

/-- Pieces to base sixty, the last one the smallest. -/
def readSixties (pieces : List (List Char)) : Result Int := do
  let digits ← pieces.mapM readDecimal
  return digits.foldl (fun n d => 60 * n + d) 0

/-- An integer: binary, octal behind a zero, hexadecimal, to base sixty or decimal. -/
def readInteger (text : String) : Result Int := do
  let cs := text.toList.filter (· != '_')
  let sign : Int := if cs.head? = some '-' then -1 else 1
  let body := dropSign cs
  if cs.isEmpty then .error .emptyLiteral
  let magnitude ← match body with
    | ['0'] => pure 0
    | '0' :: 'b' :: rest => readBase 2 rest
    | '0' :: 'x' :: rest => readHex rest
    | '0' :: 'o' :: rest => readBase 8 rest
    | '0' :: rest => readBase 8 ('0' :: rest)
    | [] => .error .emptyLiteral
    | _ => if body.contains ':' then readSixties (colonPieces body) else readDecimal body
  return sign * magnitude

/-- Pieces to base sixty as doubles, added from the smallest up. -/
def addSixties : List Binary64 → Int → Binary64 → Binary64
  | [], _, sum => sum
  | d :: rest, base, sum => addSixties rest (60 * base) (sum.add (d.mul (Binary64.ofInt base)))

def readDoublePiece (cs : List Char) : Result Binary64 :=
  match Binary64.read? (Text.trimChars cs) with
  | some x => .ok x
  | none => .error .badLiteral

def readDouble (text : String) : Result Binary64 := do
  let cs := (text.toList.filter (· != '_')).map Char.toLower
  if cs.isEmpty then .error .emptyLiteral
  let body := dropSign cs
  let x ←
    if body = ".inf".toList then pure (Binary64.infinity false)
    else if body = ".nan".toList then pure Binary64.nan
    else if body.contains ':' then do
      let pieces ← (colonPieces body).mapM readDoublePiece
      pure (addSixties pieces.reverse 1 Binary64.zero)
    else readDoublePiece body
  return if cs.head? = some '-' then x.neg else x

/-! ## Truth, bytes and times -/

def readTruth (text : String) : Result Bool :=
  let word := Text.lower text
  if ["yes", "true", "on"].contains word then .ok true
  else if ["no", "false", "off"].contains word then .ok false
  else .error (.badTruth word)

/-- The value of a digit to base sixty-four. -/
def digit64? (c : Char) : Option Nat :=
  if 'A' ≤ c ∧ c ≤ 'Z' then some (c.toNat - 'A'.toNat)
  else if 'a' ≤ c ∧ c ≤ 'z' then some (c.toNat - 'a'.toNat + 26)
  else if '0' ≤ c ∧ c ≤ '9' then some (c.toNat - '0'.toNat + 52)
  else if c = '+' then some 62
  else if c = '/' then some 63
  else none

/-- Six bits a digit, up to the padding; `held` bits of `left` wait for the next digit. What is no
digit is passed over. -/
def bytesOf64 : List Char → (count left pads : Nat) → Bytes → Result Bytes
  | [], count, _, _, bytes => if count = 0 then .ok bytes else .error .malformed
  | c :: rest, count, left, pads, bytes =>
    if c = '=' then
      if 2 ≤ count ∧ 4 ≤ count + (pads + 1) then .ok bytes else bytesOf64 rest count left (pads + 1) bytes
    else match digit64? c with
      | none => bytesOf64 rest count left pads bytes
      | some d => match count with
        | 0 => bytesOf64 rest 1 d 0 bytes
        | 1 => bytesOf64 rest 2 (d % 16) 0 (bytes ++ [UInt8.ofNat (left * 4 + d / 16)])
        | 2 => bytesOf64 rest 3 (d % 4) 0 (bytes ++ [UInt8.ofNat (left * 16 + d / 4)])
        | _ => bytesOf64 rest 0 0 0 (bytes ++ [UInt8.ofNat (left * 64 + d)])

def readBinary (text : String) : Result Bytes :=
  if text.toList.all (·.toNat < 128) then bytesOf64 text.toList 0 0 0 [] else .error .malformed

def number (cs : List Char) : Nat := cs.foldl (fun n c => 10 * n + (c.toNat - '0'.toNat)) 0

def isLeap (year : Nat) : Bool := year % 4 == 0 && (year % 100 != 0 || year % 400 == 0)

def daysIn (year month : Nat) : Nat :=
  if month = 2 then (if isLeap year then 29 else 28) else if [4, 6, 9, 11].contains month then 30 else 31

/-- Six digits of a second's fraction. -/
def microseconds (fraction : List Char) : Nat := number ((fraction ++ List.replicate 6 '0').take 6)

def readTime (text : String) : Result Document := do
  match TimeText.read? text.toList with
  | none => .error .badTime
  | some t =>
    let (year, month, day) := (number t.year, number t.month, number t.day)
    if year = 0 ∨ month = 0 ∨ 12 < month ∨ day = 0 ∨ daysIn year month < day then .error .badLiteral
    match t.clock with
    | none => return .date year month day
    | some (h, m, s, fraction) =>
      let (hour, minute, second) := (number h, number m, number s)
      if 24 ≤ hour ∨ 60 ≤ minute ∨ 60 ≤ second then .error .badLiteral
      let offset ← match t.zone with
        | none => pure none
        | some (none, _, _) => pure (some 0)
        | some (some sign, hours, minutes) =>
          let size : Nat := 60 * (60 * number hours + number minutes)
          if 86400 ≤ size then .error .badLiteral
          else pure (some (if sign = '-' then -(size : Int) else size))
      return .moment ⟨year, month, day, hour, minute, second, microseconds fraction, offset⟩

/-! ## Nodes -/

def readScalar (kind : Kind) (text : String) : Result Document :=
  match kind with
  | .null => .ok .null
  | .truth => return .bool (← readTruth text)
  | .integer => return .int (← readInteger text)
  | .double => return .float (← readDouble text)
  | .binary => return .bytes (← readBinary text)
  | .time => readTime text
  | .text => .ok (.str text)
  | _ => .error .malformed

mutual
/-- The text of a node that stands for a scalar: of a mapping, that of the member that stands for the whole. -/
def wholeText : Node → Result String
  | .scalar _ text => .ok text
  | .seq _ _ => .error .malformed
  | .map _ entries => wholeOf entries
  | .cycle _ => .error .endless

def wholeOf : List (Node × Node) → Result String
  | [] => .error .malformed
  | (.scalar .whole _, v) :: _ => wholeText v
  | _ :: rest => wholeOf rest
end

mutual
/-- The document that a node describes; nothing stands in the place of a cycle. -/
def construct : Node → Result Document
  | .cycle _ => .ok .null
  | .scalar kind text => readScalar kind text
  | .seq kind items => do
    match kind with
    | .seq => return .seq (← constructItems items)
    | .ordered | .pairs => return .seq (← constructPairs items)
    | _ => .error .malformed
  | .map kind entries => do
    match kind with
    | .map => return .map (← constructEntries entries [])
    | .set => return .set ((← constructEntries entries []).map (·.1))
    | kind =>
      if !kind.isScalar then .error .malformed
      -- A time is looked for in the node itself, which is no text.
      let text ← wholeOf entries
      if kind = .time then .error .badTime else readScalar kind text

def constructItems : List Node → Result (List Document)
  | [] => .ok []
  | n :: rest => return (← construct n) :: (← constructItems rest)

/-- Each item is a mapping of one member. -/
def constructPairs : List Node → Result (List Document)
  | [] => .ok []
  | .map _ [(k, v)] :: rest => return .pair (← construct k) (← construct v) :: (← constructPairs rest)
  | _ => .error .malformed

/-- Members in order; a later one of the same key wins. -/
def constructEntries : List (Node × Node) → List (Document × Document) → Result (List (Document × Document))
  | [], out => .ok out
  | (.cycle _, _) :: _, _ => .error .malformed
  | (k, v) :: rest, out => do
    let key ← construct k
    if !key.isScalar then .error .malformed
    let value ← construct v
    constructEntries rest (Document.putEntry out key value)
end

mutual
/-- Whether a cycle is reached from a node through lists and mappings, and through pairs if these are looked into. -/
def reachesCycle (pairs : Bool) : Node → Bool
  | .cycle _ => true
  | .scalar _ _ => false
  | .seq kind items => if kind = .seq then itemsReachCycle pairs items else pairs && pairsReachCycle pairs items
  | .map kind entries => kind == .map && entriesReachCycle pairs entries

def itemsReachCycle (pairs : Bool) : List Node → Bool
  | [] => false
  | n :: rest => reachesCycle pairs n || itemsReachCycle pairs rest

def pairsReachCycle (pairs : Bool) : List Node → Bool
  | [] => false
  | .map _ entries :: rest => entriesReachCycle pairs entries || pairsReachCycle pairs rest
  | _ :: rest => pairsReachCycle pairs rest

def entriesReachCycle (pairs : Bool) : List (Node × Node) → Bool
  | [] => false
  | (k, v) :: rest => reachesCycle pairs k || reachesCycle pairs v || entriesReachCycle pairs rest
end

/-- Every kind of line end in a file counts as one line feed. -/
def unifyLines : List Char → List Char
  | [] => []
  | '\r' :: '\n' :: rest => '\n' :: unifyLines rest
  | c :: rest => (if c = '\r' then '\n' else c) :: unifyLines rest

/-- The document that a file's text holds. -/
def load (text : String) : Result Document := do
  let tokens ← tokensOf (unifyLines text.toList)
  match ← Node.ofTokens? tokens with
  | none => return .null
  | some n =>
    let d ← construct n
    if reachesCycle false n then .error .endless
    if reachesCycle true n then .error .beyond
    return d

end PoolFeed.Yaml
