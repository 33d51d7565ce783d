import PoolFeed.Bytes
import PoolFeed.Yaml.Scalar
import PoolFeed.Yaml.Token

/-!
# From text to tokens

| here | there |
| --- | --- |
| `tokensOf` | the scanner of `safe_load` |
| `KeyPlace` | its possible simple keys |

The lexer keeps the indentation of the open block collections and, for each depth of flow
collections, the place where a key may have begun: when a colon follows on the same line and close
enough, the key's token goes in front of that place.
-/

namespace PoolFeed.Yaml

/-- A place where a key may have begun. -/
structure KeyPlace where
  depth : Nat
  tokenIndex : Nat
  required : Bool
  index : Nat
  line : Nat
  column : Nat

structure Lexing where
  cursor : Cursor
  tokens : Array Token := #[]
  depth : Nat := 0
  indent : Int := -1
  indents : List Int := []
  keyAllowed : Bool := true
  places : List KeyPlace := []

namespace Lexing

/-! ## Indentation and key places -/

def push (s : Lexing) (t : Token) : Lexing := { s with tokens := s.tokens.push t }

/-- Puts a token in front of the one at a position. -/
def insert (s : Lexing) (i : Nat) (t : Token) : Lexing :=
  { s with tokens := s.tokens.extract 0 i ++ #[t] ++ s.tokens.extract i s.tokens.size }

/-- Closes the block collections that are indented deeper than a column. -/
def unwindTo (column : Int) : List Int → Lexing → Lexing
  | [], s => s
  | outer :: rest, s =>
    if column < s.indent then unwindTo column rest ({ s with indent := outer, indents := rest }.push .blockEnd) else s

def unwind (s : Lexing) (column : Int) : Lexing :=
  if s.depth = 0 then unwindTo column s.indents s else s

/-- Opens a block collection at a column if it is deeper than the open ones. -/
def indentTo (s : Lexing) (column : Nat) : Bool × Lexing :=
  if s.indent < column then (true, { s with indents := s.indent :: s.indents, indent := column })
  else (false, s)

/-- Forgets the key places that a colon can no longer reach. -/
def forgetStale (s : Lexing) : Result Lexing :=
  let stale (k : KeyPlace) : Bool := k.line != s.cursor.line || decide (1024 < s.cursor.index - k.index)
  if s.places.any fun k => stale k && k.required then .error .malformed
  else .ok { s with places := s.places.filter (!stale ·) }

/-- Forgets the key place of the present depth. -/
def forgetPlace (s : Lexing) : Result Lexing :=
  if s.places.any fun k => k.depth == s.depth && k.required then .error .malformed
  else .ok { s with places := s.places.filter (·.depth != s.depth) }

/-- Notes that a key may begin here. -/
def notePlace (s : Lexing) : Result Lexing := do
  if !s.keyAllowed then return s
  let required := s.depth == 0 && s.indent == s.cursor.column
  let s ← s.forgetPlace
  return { s with
    places := ⟨s.depth, s.tokens.size, required, s.cursor.index, s.cursor.line, s.cursor.column⟩ :: s.places }

/-! ## Small lexemes -/

def isWordChar (c : Char) : Bool := c.isAlphanum || c == '-' || c == '_'

def isTagChar (c : Char) : Bool := c.isAlphanum || "-;/?:@&=+$,_.!~*'()[]%".toList.contains c

/-- Reads the bytes of percent escapes as one text. -/
def escapedBytes : Nat → Cursor → Bytes → Result (Bytes × Cursor)
  | 0, c, bytes => .ok (bytes, c)
  | fuel + 1, c, bytes =>
    if c.peek = '%' then
      match (if (c.rest.drop 1).length < 2 then none else hexNumber? ((c.rest.drop 1).take 2)) with
      | none => .error .malformed
      | some n => escapedBytes fuel (c.skip 3) (bytes ++ [UInt8.ofNat n])
    else .ok (bytes, c)

/-- The characters of a tag, percent escapes resolved. -/
def tagChars : Nat → Cursor → List Char → Result (List Char × Cursor)
  | 0, c, text => .ok (text, c)
  | fuel + 1, c, text =>
    if !isTagChar c.peek then .ok (text, c)
    else if c.peek = '%' then do
      let (bytes, c) ← escapedBytes c.rest.length c []
      match String.fromUTF8? ⟨bytes.toArray⟩ with
      | none => .error .malformed
      | some s => tagChars fuel c (text ++ s.toList)
    else tagChars fuel c.next (text ++ [c.peek])

/-- A part of a tag, which is not empty. -/
def tagText (c : Cursor) : Result (String × Cursor) := do
  let start := c.index
  let (text, c) ← tagChars (c.rest.length + 1) c []
  if c.index = start then .error .malformed else return (String.ofList text, c)

/-- A tag handle: an exclamation mark, or a word between two. -/
def tagHandle (c : Cursor) : Result (String × Cursor) :=
  if c.peek ≠ '!' then .error .malformed
  else if c.peekAt 1 = ' ' then .ok ("!", c.next)
  else
    let word := c.next.run isWordChar
    let c := c.next.skip word.length
    if c.peek = '!' then .ok (String.ofList ('!' :: word ++ ['!']), c.next) else .error .malformed

def blankOrEnd (c : Char) : Bool := c == ' ' || isBreakOrEnd c

/-- A tag; the cursor stands on its exclamation mark. -/
def tagToken (c : Cursor) : Result (Token × Cursor) := do
  let (t, c) ←
    if c.peekAt 1 = '<' then do
      let (suffix, c) ← tagText (c.skip 2)
      if c.peek = '>' then pure (Token.tag none suffix, c.next) else .error .malformed
    else if isGap (c.peekAt 1) then pure (Token.tag none "!", c.next)
    else do
      let word := c.next.run (!blankOrEnd ·)
      let (handle, c) ← if word.contains '!' then tagHandle c else pure ("!", c.next)
      let (suffix, c) ← tagText c
      pure (Token.tag (some handle) suffix, c)
  if blankOrEnd c.peek then return (t, c) else .error .malformed

/-- An anchor or an alias; the cursor stands on its sign. -/
def named (make : String → Token) (c : Cursor) : Result (Token × Cursor) :=
  let name := c.next.run isWordChar
  let c := c.next.skip name.length
  if name.isEmpty then .error .malformed
  else if isGap c.peek || "?:,]\x7d%@\x60".toList.contains c.peek then .ok (make (String.ofList name), c)
  else .error .malformed

/-- The number of digits in front of the cursor. -/
def versionPart (c : Cursor) : Result (Nat × Cursor) :=
  let digits := c.run Char.isDigit
  if digits.isEmpty then .error .malformed
  else if Text.digitLimit < digits.length then .error .badLiteral
  else .ok (((String.ofList digits).toNat?).getD 0, c.skip digits.length)

/-- A directive; the cursor stands on its percent sign. -/
def directiveToken (c : Cursor) : Result (Token × Cursor) := do
  let name := c.next.run isWordChar
  let c := c.next.skip name.length
  if name.isEmpty || !blankOrEnd c.peek then .error .malformed
  let (t, c) ←
    if name = "YAML".toList then do
      let (major, c) ← versionPart c.skipSpaces
      if c.peek ≠ '.' then .error .malformed
      let (_, c) ← versionPart c.next
      if blankOrEnd c.peek then pure (Token.version major, c) else .error .malformed
    else if name = "TAG".toList then do
      let (handle, c) ← tagHandle c.skipSpaces
      if c.peek ≠ ' ' then .error .malformed
      let (lead, c) ← tagText c.skipSpaces
      if blankOrEnd c.peek then pure (Token.shorthand handle lead, c) else .error .malformed
    else pure (Token.otherDirective, c.skipWhile (!isBreak ·))
  let c ← c.endLine
  return (t, c)

/-! ## Fetching tokens -/

/-- Skips blanks, comments and line breaks; says whether a line was crossed. -/
def skipGap : Nat → Cursor → Bool → Bool × Cursor
  | 0, c, crossed => (crossed, c)
  | fuel + 1, c, crossed =>
    let c := c.skipComment
    if isBreak c.peek then skipGap fuel c.lineBreak.2 true else (crossed, c)

/-- Takes one character as a token. -/
def take (s : Lexing) (t : Token) : Lexing := { s with cursor := s.cursor.next }.push t

/-- A mark between documents, or a directive, closes all collections. -/
def boundary (s : Lexing) : Result Lexing := do
  let s ← (s.unwind (-1)).forgetPlace
  return { s with keyAllowed := false }

def openFlow (s : Lexing) (t : Token) : Result Lexing := do
  let s ← s.notePlace
  return { s with depth := s.depth + 1, keyAllowed := true }.take t

/-- Closes a flow collection; one that was never open is the grammar's to refuse. -/
def closeFlow (s : Lexing) (t : Token) : Result Lexing := do
  let s ← s.forgetPlace
  if s.depth = 0 then .error .malformed
  return { s with depth := s.depth - 1, keyAllowed := false }.take t

def flowComma (s : Lexing) : Result Lexing := do
  let s ← { s with keyAllowed := true }.forgetPlace
  return s.take .flowEntry

/-- Opens a block collection here, where one may begin. -/
def openBlock (s : Lexing) (t : Token) : Result Lexing :=
  if s.depth ≠ 0 then .ok s
  else if !s.keyAllowed then .error .malformed
  else
    let (deeper, s) := s.indentTo s.cursor.column
    .ok (if deeper then s.push t else s)

def blockDash (s : Lexing) : Result Lexing := do
  let s ← s.openBlock .blockSequenceStart
  let s ← { s with keyAllowed := true }.forgetPlace
  return s.take .blockEntry

def keyMark (s : Lexing) : Result Lexing := do
  let s ← s.openBlock .blockMappingStart
  let s ← { s with keyAllowed := s.depth == 0 }.forgetPlace
  return s.take .key

/-- A colon makes the noted place a key; without one it stands for a key of its own. -/
def colon (s : Lexing) : Result Lexing := do
  match s.places.find? (·.depth == s.depth) with
  | some k =>
    let s := { s with places := s.places.filter (·.depth != s.depth) }
    let s := s.insert k.tokenIndex .key
    let s :=
      if s.depth = 0 then
        let (deeper, s) := s.indentTo k.column
        if deeper then s.insert k.tokenIndex .blockMappingStart else s
      else s
    return { s with keyAllowed := false }.take .value
  | none =>
    let s ← s.openBlock .blockMappingStart
    let s ← { s with keyAllowed := s.depth == 0 }.forgetPlace
    return s.take .value

/-- A lexeme that may be a key. -/
def lexeme (s : Lexing) (read : Cursor → Result (Token × Cursor)) : Result Lexing := do
  let s ← s.notePlace
  let (t, c) ← read s.cursor
  return { s with keyAllowed := false, cursor := c }.push t

def block (s : Lexing) (folded : Bool) : Result Lexing := do
  let s ← { s with keyAllowed := true }.forgetPlace
  let (text, c) ← blockScalar folded s.indent s.cursor
  return { s with cursor := c }.push (.scalar (String.ofList text) false)

def quote (s : Lexing) (double : Bool) : Result Lexing :=
  s.lexeme fun c => do
    let (text, c) ← quotedScalar double c
    return (.scalar (String.ofList text) false, c)

def plain (s : Lexing) : Result Lexing := do
  let s ← s.notePlace
  let (text, crossed, c) := plainScalar (s.depth != 0) (s.indent + 1) s.cursor
  return { s with keyAllowed := crossed, cursor := c }.push (.scalar (String.ofList text) true)

/-- Whether a plain scalar can begin here. -/
def beginsPlain (s : Lexing) : Bool :=
  let c := s.cursor.peek
  !(isGap c || "-?:,[]\x7b\x7d#&*!|>'\"%@\x60".toList.contains c)
    || (!isGap (s.cursor.peekAt 1) && (c == '-' || (s.depth == 0 && (c == '?' || c == ':'))))

/-- Fetches the next tokens; at the end of the text there is nothing more to fetch. -/
def step (s : Lexing) : Result (Lexing × Bool) := do
  let (crossed, c) := skipGap (s.cursor.rest.length + 1) s.cursor false
  let s ← { s with cursor := c, keyAllowed := s.keyAllowed || (crossed && s.depth == 0) }.forgetStale
  let s := s.unwind c.column
  let gapAfter := isGap (c.peekAt 1)
  let ch := c.peek
  let more (r : Result Lexing) : Result (Lexing × Bool) := return (← r, true)
  if ch = stop then
    let s ← s.boundary
    return (s.push .streamEnd, false)
  else if ch = '%' ∧ c.column = 0 then more do
    let s ← s.boundary
    let (t, c) ← directiveToken s.cursor
    return { s with cursor := c }.push t
  else if c.column = 0 ∧ c.seesMark then more do
    let s ← s.boundary
    return { s with cursor := c.skip 3 }.push (if ch = '-' then .documentStart else .documentEnd)
  else if ch = '[' then more (s.openFlow .flowSequenceStart)
  else if ch = '{' then more (s.openFlow .flowMappingStart)
  else if ch = ']' then more (s.closeFlow .flowSequenceEnd)
  else if ch = '}' then more (s.closeFlow .flowMappingEnd)
  else if ch = ',' then more s.flowComma
  else if ch = '-' ∧ gapAfter then more s.blockDash
  else if ch = '?' ∧ (s.depth ≠ 0 ∨ gapAfter) then more s.keyMark
  else if ch = ':' ∧ (s.depth ≠ 0 ∨ gapAfter) then more s.colon
  else if ch = '*' then more (s.lexeme (named .alias))
  else if ch = '&' then more (s.lexeme (named .anchor))
  else if ch = '!' then more (s.lexeme tagToken)
  else if ch = '|' ∧ s.depth = 0 then more (s.block false)
  else if ch = '>' ∧ s.depth = 0 then more (s.block true)
  else if ch = '\'' then more (s.quote false)
  else if ch = '"' then more (s.quote true)
  else if s.beginsPlain then more s.plain
  else .error .malformed

def run : Nat → Lexing → Result (List Token)
  | 0, _ => .error .malformed
  | fuel + 1, s => do
    let (s, more) ← s.step
    if more then run fuel s else return s.tokens.toList

end Lexing

/-- Whether a text may hold a character. -/
def isAllowed (c : Char) : Bool :=
  let n := c.toNat
  n == 0x9 || n == 0xa || n == 0xd || (0x20 ≤ n && n ≤ 0x7e) || n == 0x85 || (0xa0 ≤ n && n ≤ 0xd7ff)
    || (0xe000 ≤ n && n ≤ 0xfffd) || (0x10000 ≤ n && n ≤ 0x10ffff)

/-- The tokens of a text; a byte order mark at its start is skipped. -/
def tokensOf (cs : List Char) : Result (List Token) :=
  if !cs.all isAllowed then .error .malformed
  else
    let c : Cursor := ⟨cs, 0, 0, 0⟩
    let c := if c.peek = '\ufeff' then c.next else c
    Lexing.run (cs.length + 2) { cursor := c }

end PoolFeed.Yaml
