import PoolFeed.Text.Integer
import PoolFeed.Yaml.Cursor

/-!
# Scalars in text

| here | there |
| --- | --- |
| `plainScalar`, `quotedScalar`, `blockScalar` | how the scanner of `safe_load` reads a scalar of each style |

The four ways to write a scalar: plain, between single quotes, between double quotes, and as a block
of indented lines, literal or folded. A line break inside the first three is a blank, and a blank
line is a line break.
-/

namespace PoolFeed.Yaml

open Cursor

/-- What a line break followed by `breaks` further ones stands for. -/
def foldBreak (first breaks : List Char) : List Char :=
  if first ≠ ['\n'] then first ++ breaks else if breaks.isEmpty then [' '] else breaks

/-! ## Plain -/

/-- Whether a plain scalar ends at `c`, with `after` behind it. -/
def endsPlain (flow : Bool) (c after : Char) : Bool :=
  isGap c || (c == ':' && (isGap after || (flow && [',', '[', ']', '{', '}'].contains after)))
    || (flow && [',', '?', '[', ']', '{', '}'].contains c)

/-- The part of a plain scalar up to a blank. -/
def plainRun (flow : Bool) : List Char → List Char
  | [] => []
  | c :: rest => if endsPlain flow c (rest.headD stop) then [] else c :: plainRun flow rest

/-- Blanks and line breaks inside a plain scalar, unless a document mark cuts it off. -/
def plainBreaks : Nat → Cursor → List Char → Option (List Char) × Cursor
  | 0, c, breaks => (some breaks, c)
  | fuel + 1, c, breaks =>
    if c.peek = ' ' then plainBreaks fuel c.next breaks
    else if isBreak c.peek then
      let (b, c) := c.lineBreak
      if c.seesMark then (none, c) else plainBreaks fuel c (breaks ++ b)
    else (some breaks, c)

/-- What separates two runs of a plain scalar, whether it crossed a line, and where it ends. -/
def plainGap (c : Cursor) : List Char × Bool × Cursor :=
  let blanks := c.run (· == ' ')
  let c := c.skipSpaces
  if isBreak c.peek then
    let (first, c) := c.lineBreak
    if c.seesMark then ([], true, c)
    else match plainBreaks c.rest.length c [] with
      | (none, c) => ([], true, c)
      | (some breaks, c) => (foldBreak first breaks, true, c)
  else (blanks, false, c)

/-- A plain scalar from here; says whether a line was crossed at its end. -/
def plainFrom (flow : Bool) (indent : Int) : Nat → Cursor → List Char → List Char → Bool → List Char × Bool × Cursor
  | 0, c, text, _, crossed => (text, crossed, c)
  | fuel + 1, c, text, gap, crossed =>
    let run := plainRun flow c.rest
    if c.peek = '#' ∨ run.isEmpty then (text, crossed, c)
    else
      let text := text ++ gap ++ run
      let (gap, crossed, c) := plainGap (c.skip run.length)
      if gap.isEmpty || c.peek == '#' || (!flow && decide ((c.column : Int) < indent)) then (text, crossed, c)
      else plainFrom flow indent fuel c text gap crossed

def plainScalar (flow : Bool) (indent : Int) (c : Cursor) : List Char × Bool × Cursor :=
  plainFrom flow indent (c.rest.length + 1) c [] [] false

/-! ## Quoted -/

/-- The character that a one-letter escape stands for. -/
def escape? : Char → Option Char
  | '0' => some (Char.ofNat 0)
  | 'a' => some '\x07'
  | 'b' => some '\x08'
  | 't' => some '\t'
  | '\t' => some '\t'
  | 'n' => some '\n'
  | 'v' => some '\x0b'
  | 'f' => some '\x0c'
  | 'r' => some '\r'
  | 'e' => some '\x1b'
  | ' ' => some ' '
  | '"' => some '"'
  | '\\' => some '\\'
  | '/' => some '/'
  | 'N' => some '\x85'
  | '_' => some '\xa0'
  | 'L' => some '\u2028'
  | 'P' => some '\u2029'
  | _ => none

/-- How many hexadecimal digits follow an escape letter. -/
def escapeWidth? : Char → Option Nat
  | 'x' => some 2
  | 'u' => some 4
  | 'U' => some 8
  | _ => none

def hexDigit? (c : Char) : Option Nat :=
  if '0' ≤ c ∧ c ≤ '9' then some (c.toNat - '0'.toNat)
  else if 'a' ≤ c ∧ c ≤ 'f' then some (c.toNat - 'a'.toNat + 10)
  else if 'A' ≤ c ∧ c ≤ 'F' then some (c.toNat - 'A'.toNat + 10)
  else none

/-- The number that hexadecimal digits spell. -/
def hexNumber? (cs : List Char) : Option Nat :=
  (cs.mapM hexDigit?).map fun ds => ds.foldl (fun n d => 16 * n + d) 0

/-- Line breaks inside a quoted scalar, with the blanks around them dropped. -/
def quotedBreaks : Nat → Cursor → List Char → Result (List Char × Cursor)
  | 0, c, breaks => .ok (breaks, c)
  | fuel + 1, c, breaks =>
    if c.seesMark then .error .malformed
    else
      let c := c.skipWhile fun ch => ch == ' ' || ch == '\t'
      if isBreak c.peek then
        let (b, c) := c.lineBreak
        quotedBreaks fuel c (breaks ++ b)
      else .ok (breaks, c)

/-- The text of an escape; the cursor stands behind the backslash. -/
def escapeFrom (c : Cursor) : Result (List Char × Cursor) :=
  match escape? c.peek, escapeWidth? c.peek with
  | some ch, _ => .ok ([ch], c.next)
  | none, some width =>
    let c := c.next
    let digits := c.rest.take width
    if digits.length < width then .error .malformed
    else match hexNumber? digits with
      | none => .error .malformed
      | some n =>
        if 0x110000 ≤ n then .error .badLiteral
        else if 0xd800 ≤ n ∧ n < 0xe000 then .error .beyond
        else .ok ([Char.ofNat n], c.skip width)
  | none, none =>
    if isBreak c.peek then
      let (_, c) := c.lineBreak
      quotedBreaks (c.rest.length + 1) c []
    else .error .malformed

/-- The text of a quoted scalar up to its closing quote. -/
def quotedFrom (double : Bool) : Nat → Cursor → List Char → Result (List Char × Cursor)
  | 0, _, _ => .error .malformed
  | fuel + 1, c, text =>
    let ch := c.peek
    if ch = stop then .error .malformed
    else if !double && ch == '\'' then
      if c.peekAt 1 = '\'' then quotedFrom double fuel (c.skip 2) (text ++ ['\'']) else .ok (text, c.next)
    else if double && ch == '"' then .ok (text, c.next)
    else if double && ch == '\\' then do
      let (piece, c) ← escapeFrom c.next
      quotedFrom double fuel c (text ++ piece)
    else if ch == ' ' || ch == '\t' || isBreak ch then
      let isBlank := fun ch => ch == ' ' || ch == '\t'
      let blanks := c.run isBlank
      let c := c.skipWhile isBlank
      if isBreak c.peek then do
        let (first, c) := c.lineBreak
        let (breaks, c) ← quotedBreaks (c.rest.length + 1) c []
        quotedFrom double fuel c (text ++ foldBreak first breaks)
      else quotedFrom double fuel c (text ++ blanks)
    else quotedFrom double fuel c.next (text ++ [ch])

/-- A quoted scalar; the cursor stands on the opening quote. -/
def quotedScalar (double : Bool) (c : Cursor) : Result (List Char × Cursor) :=
  quotedFrom double (c.rest.length + 1) c.next []

/-! ## Block -/

/-- What happens to the line breaks at the end of a block. -/
inductive Chomping where
  | strip
  | clip
  | keep
  deriving DecidableEq

def chomping? : Char → Option Chomping
  | '+' => some .keep
  | '-' => some .strip
  | _ => none

/-- The indicators behind the block's sign, in either order. -/
def blockIndicators (c : Cursor) : Result (Chomping × Option Nat × Cursor) := do
  let digit? (c : Cursor) : Result (Option Nat × Cursor) :=
    if c.peek = '0' then .error .malformed
    else if c.peek.isDigit then .ok (some (c.peek.toNat - '0'.toNat), c.next)
    else .ok (none, c)
  let (chomping, increment, c) ←
    match chomping? c.peek with
    | some ch => do
      let (n, c) ← digit? c.next
      pure (ch, n, c)
    | none => do
      let (n, c) ← digit? c
      match n, chomping? c.peek with
      | some _, some ch => pure (ch, n, c.next)
      | _, _ => pure (.clip, n, c)
  if c.peek = ' ' ∨ isBreakOrEnd c.peek then return (chomping, increment, c) else .error .malformed

/-- Skips blanks up to a column. -/
def skipTo (indent : Nat) : Nat → Cursor → Cursor
  | 0, c => c
  | fuel + 1, c => if c.column < indent ∧ c.peek = ' ' then skipTo indent fuel c.next else c

/-- Blank lines in front of a block without a given indentation, and its deepest column. -/
def leadingLines : Nat → Cursor → List Char → Nat → List Char × Nat × Cursor
  | 0, c, breaks, deepest => (breaks, deepest, c)
  | fuel + 1, c, breaks, deepest =>
    if c.peek = ' ' then
      let c := c.next
      leadingLines fuel c breaks (max deepest c.column)
    else if isBreak c.peek then
      let (b, c) := c.lineBreak
      leadingLines fuel c (breaks ++ b) deepest
    else (breaks, deepest, c)

/-- Blank lines inside a block. -/
def blankLines (indent : Nat) : Nat → Cursor → List Char → List Char × Cursor
  | 0, c, breaks => (breaks, c)
  | fuel + 1, c, breaks =>
    let c := skipTo indent indent c
    if isBreak c.peek then
      let (b, c) := c.lineBreak
      blankLines indent fuel c (breaks ++ b)
    else (breaks, c)

/-- The lines of a block: their text, the last line break and the blank lines at the end. -/
def blockLines (folded : Bool) (indent : Nat) :
    Nat → Cursor → List Char → List Char → List Char × List Char × List Char × Cursor
  | 0, c, text, breaks => (text, [], breaks, c)
  | fuel + 1, c, text, breaks =>
    let indented (c : Cursor) : Bool := c.column == indent && c.peek != stop
    let startsBlank (c : Cursor) : Bool := c.peek == ' ' || c.peek == '\t'
    let firstBlank := startsBlank c
    let line := c.run (!isBreak ·)
    let text := text ++ breaks ++ line
    let (last, c) := (c.skip line.length).lineBreak
    let (breaks, c) := blankLines indent (c.rest.length + 1) c []
    if indented c then
      let join :=
        if folded && last == ['\n'] && !firstBlank && !startsBlank c then (if breaks.isEmpty then [' '] else [])
        else last
      blockLines folded indent fuel c (text ++ join) breaks
    else (text, last, breaks, c)

/-- A block scalar; the cursor stands on its sign, inside a collection indented by `outer`. -/
def blockScalar (folded : Bool) (outer : Int) (c : Cursor) : Result (List Char × Cursor) := do
  let (chomping, increment, c) ← blockIndicators c.next
  let c ← c.endLine
  let least := (max 1 (outer + 1)).toNat
  let (indent, breaks, c) :=
    match increment with
    | some n =>
      let indent := least + n - 1
      let (breaks, c) := blankLines indent (c.rest.length + 1) c []
      (indent, breaks, c)
    | none =>
      let (breaks, deepest, c) := leadingLines c.rest.length c [] 0
      (max least deepest, breaks, c)
  let (text, last, breaks, c) :=
    if c.column = indent ∧ c.peek ≠ stop then blockLines folded indent (c.rest.length + 1) c [] breaks
    else ([], [], breaks, c)
  return match chomping with
    | .strip => (text, c)
    | .clip => (text ++ last, c)
    | .keep => (text ++ last ++ breaks, c)

end PoolFeed.Yaml
