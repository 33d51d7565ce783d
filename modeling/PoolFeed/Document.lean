import PoolFeed.Bytes
import PoolFeed.Binary64.Decimal

/-!
# Documents

| here | there |
| --- | --- |
| `Document` | a value that `safe_load` returns to `ConfigLoader.load_yaml` |
| `isBlank` | what `load_yaml` takes for no document: whatever is not true |
| `putEntry`, `sameKey` | an assignment to a key of a mapping |

What a configuration text holds: scalars, sequences and mappings nested in one another. The members
of a mapping keep the order of their first appearance, and a key is compared by value, so that the
whole number one, the double one and the truth value are one key.
-/

namespace PoolFeed

/-- A point in time; the offset from universal time is in seconds. -/
structure Moment where
  year : Nat
  month : Nat
  day : Nat
  hour : Nat
  minute : Nat
  second : Nat
  microsecond : Nat
  offset : Option Int
  deriving DecidableEq

inductive Document where
  | null
  | bool (b : Bool)
  | int (i : Int)
  | float (x : Binary64)
  | str (s : String)
  | bytes (b : Bytes)
  | date (year month day : Nat)
  | moment (m : Moment)
  | seq (items : List Document)
  | pair (first second : Document)
  | map (entries : List (Document × Document))
  | set (items : List Document)

instance : Inhabited Document := ⟨.null⟩

namespace Document

/-- The number that a key counts as. -/
def number? : Document → Option (Int ⊕ Binary64)
  | .bool b => some (.inl (if b then 1 else 0))
  | .int i => some (.inl i)
  | .float x => some (match x.toInt? with | some i => .inl i | none => .inr x)
  | _ => none

/-- Whether two scalars are the same key. -/
def sameKey (a b : Document) : Bool :=
  match a.number?, b.number? with
  | some (.inl i), some (.inl j) => i == j
  | some (.inr x), some (.inr y) => x.same y
  | some _, _ => false
  | _, some _ => false
  | none, none => match a, b with
    | .null, .null => true
    | .str s, .str t => s == t
    | .bytes s, .bytes t => s == t
    | .date y m d, .date y' m' d' => y == y' && m == m' && d == d'
    | .moment s, .moment t => s == t
    | _, _ => false

/-- Only scalars can be keys. -/
def isScalar : Document → Bool
  | .seq _ | .map _ | .set _ | .pair _ _ => false
  | _ => true

/-- Puts a member into a mapping, in place if its key is known. -/
def putEntry : List (Document × Document) → Document → Document → List (Document × Document)
  | [], key, value => [(key, value)]
  | (k, v) :: rest, key, value => if k.sameKey key then (k, value) :: rest else (k, v) :: putEntry rest key value

/-- Whether the document counts as absent: nothing, a zero, or an empty text or collection. -/
def isBlank : Document → Bool
  | .null => true
  | .bool b => !b
  | .int i => i == 0
  | .float x => x.isZero
  | .str s => s.isEmpty
  | .bytes b => b.isEmpty
  | .seq items => items.isEmpty
  | .map entries => entries.isEmpty
  | .set items => items.isEmpty
  | _ => false

end Document

end PoolFeed
