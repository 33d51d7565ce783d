/-!
# Reading position

| here | there |
| --- | --- |
| `Cursor` | where the reader behind `safe_load` stands |
| `Fault` | what `safe_load` raises: a `YAMLError` (`malformed`), and all else that `ConfigLoader.load_yaml` does not catch |

A cursor is the text still to be read with the line and the column it stands in. Past the end it
sees the character zero, which no readable text holds.
-/

namespace PoolFeed.Yaml

/-- Why a file yields no document. -/
inductive Fault where
  /-- The file is no text. -/
  | undecodable
  /-- The text breaks the grammar, or asks for a type that is not known. -/
  | malformed
  /-- Its collections are nested deeper than the stack has room for. -/
  | tooDeep
  /-- A number, a time or a code point is outside what its type holds. -/
  | badLiteral
  /-- A number has no characters. -/
  | emptyLiteral
  /-- A text that was tagged as a truth value is none. -/
  | badTruth (text : String)
  /-- A text that was tagged as a time is none. -/
  | badTime
  /-- A collection holds itself. -/
  | endless
  /-- The text can be read, but it spells half of a surrogate pair, or a list holds itself through one of its pairs: no
  document here is like that. -/
  | beyond
  deriving DecidableEq

abbrev Result := Except Fault

/-- What a cursor sees past the end. -/
def stop : Char := Char.ofNat 0

def isBreak (c : Char) : Bool := c == '\n' || c == '\x85' || c == '\u2028' || c == '\u2029'

def isBreakOrEnd (c : Char) : Bool := c == stop || isBreak c

/-- A blank, a line break or the end. -/
def isGap (c : Char) : Bool := isBreakOrEnd c || c == ' ' || c == '\t'

structure Cursor where
  rest : List Char
  index : Nat := 0
  line : Nat := 0
  column : Nat := 0

namespace Cursor

def peek (c : Cursor) : Char := c.rest.headD stop

def peekAt (c : Cursor) (n : Nat) : Char := c.rest.getD n stop

/-- One character on; a byte order mark takes no column. -/
def next (c : Cursor) : Cursor :=
  match c.rest with
  | [] => c
  | ch :: rest =>
    if isBreak ch then ⟨rest, c.index + 1, c.line + 1, 0⟩
    else ⟨rest, c.index + 1, c.line, if ch = '\ufeff' then c.column else c.column + 1⟩

def skip (c : Cursor) : Nat → Cursor
  | 0 => c
  | n + 1 => c.next.skip n

/-- The characters from here that a predicate holds of. -/
def run (c : Cursor) (p : Char → Bool) : List Char := c.rest.takeWhile p

def skipWhile (c : Cursor) (p : Char → Bool) : Cursor := c.skip (c.run p).length

/-- Skips blanks and no tabs. -/
def skipSpaces (c : Cursor) : Cursor := c.skipWhile (· == ' ')

/-- Takes a line break, if one stands here; most kinds of it count as a line feed. -/
def lineBreak (c : Cursor) : List Char × Cursor :=
  if c.peek = '\n' ∨ c.peek = '\x85' then (['\n'], c.next)
  else if isBreak c.peek then ([c.peek], c.next)
  else ([], c)

/-- Whether the next three characters mark the start or the end of a document. -/
def seesMark (c : Cursor) : Bool :=
  (c.rest.take 3 == ['-', '-', '-'] || c.rest.take 3 == ['.', '.', '.']) && isGap (c.peekAt 3)

/-- Skips blanks and a comment. -/
def skipComment (c : Cursor) : Cursor :=
  let c := c.skipSpaces
  if c.peek = '#' then c.skipWhile (!isBreak ·) else c

/-- The end of a line that may hold only a comment more. -/
def endLine (c : Cursor) : Result Cursor :=
  let c := c.skipComment
  if isBreakOrEnd c.peek then .ok c.lineBreak.2 else .error .malformed

end Cursor

end PoolFeed.Yaml
