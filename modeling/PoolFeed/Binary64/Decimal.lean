import PoolFeed.Binary64.Basic

/-!
# Doubles in decimal

| here | there |
| --- | --- |
| `shortest` | a double in a line of `JSONFormatter.format`, and in a payload |
| `fixed` | `.1f` and `.2f` in the messages of `PerformanceLogger.timer`, `AlwaysOnComponent.stop` and `StreamConnectionManager.reconnect` |
| `scientific`, `general` | two more letters of a message template, in `getMessage` |
| `read?` | `float` of a text, for scalars that `load_yaml` reads |

Three exact conversions: a fixed number of places (`fixed`, a half goes to the even digit), the
fewest digits that read back as the same double (`shortest`), and reading a decimal (`ofDecimal`).
-/

namespace PoolFeed.Binary64

/-! ## Fixed places -/

/-- `n` in decimal with `places` digits after the point. -/
def placed (n places : Nat) : String :=
  let digits := toString n
  if places = 0 then digits
  else
    let padded := "".pushn '0' (places + 1 - digits.length) ++ digits
    let whole := padded.length - places
    (padded.take whole).toString ++ "." ++ (padded.drop whole).toString

/-- The magnitude in units of `10 ^ -places`, a half going to the even one. -/
def scaled (x : Binary64) (places : Nat) : Nat := roundDiv (unitsOf x.magnitude * Nat.pow 10 places) one

/-- The text of an infinity or a NaN. -/
def special (x : Binary64) : String := if x.isNaN then "nan" else if x.isNegative then "-inf" else "inf"

/-- The double with a fixed number of places. -/
def fixed (x : Binary64) (places : Nat) : String :=
  if x.isFinite then (if x.isNegative then "-" else "") ++ placed (x.scaled places) places
  else x.special

/-- The double nearest to its own text of `places` digits after the point. -/
def rounded (x : Binary64) (places : Nat) : Binary64 :=
  if x.isFinite then ofRatio x.isNegative (x.scaled places) (Nat.pow 10 places) else x

/-! ## Fewest digits -/

/-- The exponent of the first decimal digit of a positive finite magnitude. -/
def firstDigitExponent (m : Nat) : Int :=
  ((toString (unitsOf m * Nat.pow 10 400 / one)).length : Int) - 401

/-- The bounds of the numbers that round to magnitude `m`, in half units. -/
def roundingBounds (m : Nat) : Nat × Nat :=
  (unitsOf (m - 1) + unitsOf m, unitsOf m + unitsOf (m + 1))

/-- The decimal `d * 10 ^ e` as a quotient of whole numbers. -/
def decimalRatio (d : Nat) (e : Int) : Nat × Nat :=
  if 0 ≤ e then (d * Nat.pow 10 e.toNat, 1) else (d, Nat.pow 10 (-e).toNat)

/-- Whether `d * 10 ^ e` rounds to the magnitude `m`. -/
def readsBack (m d : Nat) (e : Int) : Bool :=
  let (low, high) := roundingBounds m
  let (n, q) := decimalRatio d e
  let twice := 2 * n * one
  if m % 2 = 0 then decide (low * q ≤ twice ∧ twice ≤ high * q)
  else decide (low * q < twice ∧ twice < high * q)

/-- Of the two decimals of `count` digits around magnitude `m`, the nearer one that reads back. -/
def neighbour? (m count : Nat) : Option (Nat × Int) :=
  let e := firstDigitExponent m + 1 - count
  let (n, q) := if 0 ≤ e then (unitsOf m, one * Nat.pow 10 e.toNat) else (unitsOf m * Nat.pow 10 (-e).toNat, one)
  let below := n / q
  match readsBack m below e, readsBack m (below + 1) e with
  | true, true => some (roundDiv n q, e)
  | true, false => some (below, e)
  | false, true => some (below + 1, e)
  | false, false => none

/-- The fewest decimal digits that read back as the positive magnitude `m`, with their exponent. -/
def shortestDigits (m : Nat) : Nat × Int :=
  ((List.range 17).findSome? fun count => neighbour? m (count + 1)).getD (0, 0)

/-- Digits without trailing zeros, and the exponent that makes up for them. -/
def trimZeros (d : Nat) (e : Int) : Nat × Int :=
  if d % 10 = 0 ∧ d ≠ 0 then trimZeros (d / 10) (e + 1) else (d, e)
termination_by d
decreasing_by omega

/-- An exponent with its sign and at least two digits. -/
def exponentText (e : Int) : String :=
  let size := toString e.natAbs
  "e" ++ (if e < 0 then "-" else "+") ++ (if size.length < 2 then "0" ++ size else size)

/-- The text of digits whose point stands `point` digits after the first: positional from `1e-4` up
to `1e16`, else with an exponent of at least two digits. -/
def layOut (digits : String) (point : Int) : String :=
  let n : Int := digits.length
  if -3 ≤ point ∧ point ≤ 16 then
    if point ≤ 0 then "0." ++ "".pushn '0' (-point).toNat ++ digits
    else if n ≤ point then digits ++ "".pushn '0' (point - n).toNat ++ ".0"
    else (digits.take point.toNat).toString ++ "." ++ (digits.drop point.toNat).toString
  else
    let body := if n = 1 then digits else (digits.take 1).toString ++ "." ++ (digits.drop 1).toString
    body ++ exponentText (point - 1)

/-- The shortest text that reads back as the same double. -/
def shortest (x : Binary64) : String :=
  if !x.isFinite then x.special
  else
    let body :=
      if x.isZero then "0.0"
      else
        let (d, e) := shortestDigits x.magnitude
        let (d, e) := trimZeros d e
        let digits := toString d
        layOut digits (digits.length + e)
    (if x.isNegative then "-" else "") ++ body

/-! ## Significant digits -/

/-- The magnitude in units of `10 ^ e`, a half going to the even one. -/
def inPowers (m : Nat) (e : Int) : Nat :=
  if 0 ≤ e then roundDiv (unitsOf m) (one * Nat.pow 10 e.toNat) else roundDiv (unitsOf m * Nat.pow 10 (-e).toNat) one

/-- The nearest `count` digits of a magnitude, with the exponent of the first one. -/
def significant (m count : Nat) : Nat × Int :=
  if m = 0 then (0, 0)
  else
    let e := firstDigitExponent m
    let d := inPowers m (e + 1 - count)
    if d < Nat.pow 10 count then (d, e) else (d / 10, e + 1)

/-- The double with one digit before the point and a number of places behind it. -/
def scientific (x : Binary64) (places : Nat) : String :=
  if x.isFinite then
    let (d, e) := significant x.magnitude (places + 1)
    (if x.isNegative then "-" else "") ++ placed d places ++ exponentText e
  else x.special

/-- A text with a point, without the zeros at its end. -/
def dropTrailing (s : String) : String :=
  if s.contains '.' then
    let cs := (s.toList.reverse.dropWhile (· == '0'))
    String.ofList (if cs.head? = some '.' then cs.drop 1 else cs).reverse
  else s

/-- The double with a number of significant digits, positional unless its exponent is far from zero.
Zeros at its end are left out unless they are asked for. -/
def general (x : Binary64) (digits : Nat) (full : Bool := false) : String :=
  if x.isFinite then
    let p := max digits 1
    let ending := if full then id else dropTrailing
    let (d, e) := significant x.magnitude p
    let sign := if x.isNegative then "-" else ""
    if -4 ≤ e ∧ e < p then
      let places := (p - 1 - e).toNat
      sign ++ ending (placed d places)
    else sign ++ ending (placed d (p - 1)) ++ exponentText e
  else x.special

/-! ## Reading -/

/-- The double nearest to `± d * 10 ^ e`. -/
def ofDecimal (negative : Bool) (d : Nat) (e : Int) : Binary64 :=
  let size : Int := (toString d).length + e
  if d = 0 ∨ size < -400 then ofMagnitude negative 0
  else if 400 < size then infinity negative
  else
    let (n, q) := decimalRatio d e
    ofRatio negative n q

/-- Reads digits with an optional point and an optional exponent, or the name of a special double. -/
def read? (cs : List Char) : Option Binary64 :=
  let (negative, body) := match cs with
    | '-' :: rest => (true, rest)
    | '+' :: rest => (false, rest)
    | _ => (false, cs)
  let name := (String.ofList body).map Char.toLower
  if name = "inf" ∨ name = "infinity" then some (infinity negative)
  else if name = "nan" then some nan
  else
    let whole := body.takeWhile Char.isDigit
    let after := body.dropWhile Char.isDigit
    let (fraction, after) := match after with
      | '.' :: rest => (rest.takeWhile Char.isDigit, rest.dropWhile Char.isDigit)
      | _ => ([], after)
    let exponent : Option Int := match after with
      | [] => some 0
      | e :: rest =>
        let (below, digits) := match rest with
          | '-' :: ds => (true, ds)
          | '+' :: ds => (false, ds)
          | _ => (false, rest)
        if (e = 'e' ∨ e = 'E') ∧ digits.all Char.isDigit then
          (String.ofList digits).toNat?.map fun n => if below then -(n : Int) else n
        else none
    if (whole ++ fraction).isEmpty then none
    else
      let digits := (whole ++ fraction).foldl (fun n c => 10 * n + (c.toNat - '0'.toNat)) 0
      exponent.map fun e => ofDecimal negative digits (e - fraction.length)

end PoolFeed.Binary64
