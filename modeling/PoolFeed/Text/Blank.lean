/-!
# Blanks

| here | there |
| --- | --- |
| `trim` | `strip`, of the name and the default in `ConfigLoader._replace_env_vars` and of `TRACK_POOL_CREATION` |
| `lower` | `lower`, likewise |

The characters that count as white space around a value, and the trimming of them.
-/

namespace PoolFeed.Text

/-- Single blank characters, in order. -/
def blanks : List Nat := [
  0x09, 0x0a, 0x0b, 0x0c, 0x0d, 0x1c, 0x1d, 0x1e, 0x1f, 0x20, 0x85, 0xa0, 0x1680,
  0x2000, 0x2001, 0x2002, 0x2003, 0x2004, 0x2005, 0x2006, 0x2007, 0x2008, 0x2009, 0x200a,
  0x2028, 0x2029, 0x202f, 0x205f, 0x3000]

def isBlank (c : Char) : Bool := blanks.contains c.toNat

theorem isBlank_of_isWhitespace {c : Char} (h : c.isWhitespace = true) : isBlank c = true := by
  simp only [Char.isWhitespace, Bool.or_eq_true, decide_eq_true_eq] at h
  rcases h with ((h | h) | h) | h <;> subst h <;> decide

/-- The characters without the outer ones of a class. -/
def trimWhere (p : Char → Bool) (cs : List Char) : List Char :=
  ((cs.dropWhile p).reverse.dropWhile p).reverse

/-- The characters between the outer blanks. -/
def trimChars (cs : List Char) : List Char := trimWhere isBlank cs

def trim (s : String) : String := String.ofList (trimChars s.toList)

/-! ## Letter case of ASCII -/

def lower (s : String) : String := s.map Char.toLower

def upper (s : String) : String := s.map Char.toUpper

end PoolFeed.Text
