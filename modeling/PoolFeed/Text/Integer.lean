import PoolFeed.Text.Blank

/-!
# Integers in text

| here | there |
| --- | --- |
| `integer?` | `int` of a text: `REDIS_PORT` in `_apply_env_overrides`, the decimals in `RedisPoolMirror` |
| `digitLimit`, `isWritable` | the most digits of an integer that is read or written as text |

A decimal integer may stand between blanks, have a sign, and have single underscores between its
digits; a digit of any script counts.
-/

namespace PoolFeed.Text

/-- The zero of each script that has decimal digits; its nine others follow it. -/
def zeros : List Nat := [
  0x30, 0x660, 0x6f0, 0x7c0, 0x966, 0x9e6, 0xa66, 0xae6, 0xb66, 0xbe6, 0xc66, 0xce6, 0xd66, 0xde6,
  0xe50, 0xed0, 0xf20, 0x1040, 0x1090, 0x17e0, 0x1810, 0x1946, 0x19d0, 0x1a80, 0x1a90, 0x1b50,
  0x1bb0, 0x1c40, 0x1c50, 0xa620, 0xa8d0, 0xa900, 0xa9d0, 0xa9f0, 0xaa50, 0xabf0, 0xff10, 0x104a0,
  0x10d30, 0x11066, 0x110f0, 0x11136, 0x111d0, 0x112f0, 0x11450, 0x114d0, 0x11650, 0x116c0, 0x11730,
  0x118e0, 0x11950, 0x11c50, 0x11d50, 0x11da0, 0x16a60, 0x16ac0, 0x16b50, 0x1d7ce, 0x1d7d8, 0x1d7e2,
  0x1d7ec, 0x1d7f6, 0x1e140, 0x1e2f0, 0x1e950, 0x1fbf0]

/-- The value of a decimal digit of any script. -/
def digit? (c : Char) : Option Nat :=
  (zeros.find? fun z => decide (z ≤ c.toNat ∧ c.toNat < z + 10)).map (c.toNat - ·)

/-- Whether single underscores stand only between digits: none at the ends, no two together. -/
def underscoresBetween (cs : List Char) : Bool :=
  cs.head? != some '_' && cs.getLast? != some '_' && !(cs.zip (cs.drop 1)).contains ('_', '_')

/-- The most digits that are read or written. -/
def digitLimit : Nat := 4300

/-- Whether an integer has no more digits than can be written. -/
def isWritable (i : Int) : Bool := decide ((Nat.toDigits 10 i.natAbs).length ≤ digitLimit)

/-- The number that decimal digits spell, underscores between them left out. -/
def natural? (cs : List Char) : Option Nat :=
  if cs.isEmpty || !underscoresBetween cs then none
  else
    let digits := cs.filter (· != '_')
    if digitLimit < digits.length then none
    else (digits.mapM digit?).map fun ds => ds.foldl (fun n d => 10 * n + d) 0

/-- Reads a signed integer between blanks. -/
def integer? (s : String) : Option Int :=
  match trimChars s.toList with
  | '-' :: rest => (natural? rest).map fun n => -(n : Int)
  | '+' :: rest => (natural? rest).map fun n => (n : Int)
  | cs => (natural? cs).map fun n => (n : Int)

end PoolFeed.Text
