/-!
# Binary64 numbers as exact words

| here | there |
| --- | --- |
| `ofIntRatio` | the quotient of two whole numbers in `TransactionProcessor.normalize` and `PumpSwapDecoder._decode_trade` |
| `mul`, `div?`, `toInt?` | the arithmetic of `now_ms`, `normalize` and `PerformanceLogger.timer` |
| `le`, `isPositive` | the comparisons in `normalize`, `TradeEvent.confirmed` and `timer` |

A double is its 64-bit word. Every finite one is a whole multiple of `2 ^ -1074`, the *unit*, so the
arithmetic here is exact on natural numbers and rounds once at the end: `ofRatio` gives the double
nearest to a quotient, a tie going to the even word. Amounts, prices, clock readings and durations
are all computed this way.
-/

namespace PoolFeed

/-- A double, by its word. -/
structure Binary64 where
  bits : UInt64
  deriving DecidableEq

namespace Binary64

/-! ## Fields -/

/-- The sign's place in the word. -/
def signWord : Nat := 0x8000000000000000

/-- How many fractions there are for each exponent. -/
def fractions : Nat := 0x10000000000000

/-- The word of positive infinity, and so the bound of the finite magnitudes. -/
def infinityWord : Nat := 2047 * fractions

/-- The word without its sign. -/
def magnitude (x : Binary64) : Nat := x.bits.toNat % signWord

def isNegative (x : Binary64) : Bool := decide (signWord ≤ x.bits.toNat)
def isFinite (x : Binary64) : Bool := decide (x.magnitude < infinityWord)
def isInfinite (x : Binary64) : Bool := decide (x.magnitude = infinityWord)
def isNaN (x : Binary64) : Bool := decide (infinityWord < x.magnitude)
def isZero (x : Binary64) : Bool := decide (x.magnitude = 0)

/-- How many units of `2 ^ -1074` the finite magnitude `m` stands for. -/
def unitsOf (m : Nat) : Nat :=
  if m < fractions then m else (fractions + m % fractions) * Nat.pow 2 (m / fractions - 1)

/-- How many units one is. -/
def one : Nat := Nat.pow 2 1074

/-- The units of a finite double, with its sign. -/
def units (x : Binary64) : Int := if x.isNegative then -(unitsOf x.magnitude) else unitsOf x.magnitude

/-! ## Making doubles -/

def ofMagnitude (negative : Bool) (m : Nat) : Binary64 :=
  ⟨UInt64.ofNat (if negative then signWord + m else m)⟩

def zero : Binary64 := ofMagnitude false 0
def nan : Binary64 := ofMagnitude false (infinityWord + fractions / 2)
def infinity (negative : Bool) : Binary64 := ofMagnitude negative infinityWord

/-- The whole number nearest to `n / d`; a half goes to the even one. -/
def roundDiv (n d : Nat) : Nat :=
  let q := n / d
  let r := n % d
  if 2 * r < d then q else if d < 2 * r then q + 1 else q + q % 2

/-- The largest `e` with `2 ^ e ≤ n / d`, for positive `n` and `d`. -/
def floorLog2 (n d : Nat) : Int :=
  let e : Int := (Nat.log2 n : Int) - Nat.log2 d
  if 0 ≤ e then (if d * Nat.pow 2 e.toNat ≤ n then e else e - 1)
  else (if d ≤ n * Nat.pow 2 (-e).toNat then e else e - 1)

/-- The magnitude word nearest to `n / d`; past the largest finite one it is that of infinity. -/
def magnitudeOfRatio (n d : Nat) : Nat :=
  if n = 0 then 0
  else
    let k : Int := max (floorLog2 n d - 52) (-1074)
    let q := if 0 ≤ k then roundDiv n (d * Nat.pow 2 k.toNat) else roundDiv (n * Nat.pow 2 (-k).toNat) d
    min infinityWord ((k + 1074).toNat * fractions + q)

/-- The double nearest to `± n / d`. -/
def ofRatio (negative : Bool) (n d : Nat) : Binary64 := ofMagnitude negative (magnitudeOfRatio n d)

/-- The double nearest to the quotient of an integer and a positive number; zero is positive. -/
def ofIntRatio (i : Int) (d : Nat) : Binary64 := ofRatio (decide (i < 0)) i.natAbs d

/-- The double nearest to an integer, infinite past the largest finite one. -/
def ofInt (i : Int) : Binary64 := ofIntRatio i 1

/-- The double nearest to a number of milliseconds in seconds. -/
def ofMillis (ms : Int) : Binary64 := ofIntRatio ms 1000

/-! ## Arithmetic -/

def neg (x : Binary64) : Binary64 := ofMagnitude (!x.isNegative) x.magnitude

def add (x y : Binary64) : Binary64 :=
  if x.isNaN || y.isNaN then nan
  else if x.isInfinite then (if y.isInfinite && x.isNegative != y.isNegative then nan else x)
  else if y.isInfinite then y
  else
    let s := x.units + y.units
    if s = 0 then ofMagnitude (x.isNegative && y.isNegative) 0 else ofIntRatio s one

def sub (x y : Binary64) : Binary64 := add x y.neg

def mul (x y : Binary64) : Binary64 :=
  let negative := x.isNegative != y.isNegative
  if x.isNaN || y.isNaN then nan
  else if x.isInfinite || y.isInfinite then (if x.isZero || y.isZero then nan else infinity negative)
  else ofRatio negative (unitsOf x.magnitude * unitsOf y.magnitude) (one * one)

/-- The quotient of two doubles; there is none by zero. -/
def div? (x y : Binary64) : Option Binary64 :=
  let negative := x.isNegative != y.isNegative
  if y.isZero then none
  else if x.isNaN || y.isNaN then some nan
  else if x.isInfinite then some (if y.isInfinite then nan else infinity negative)
  else if y.isInfinite then some (ofMagnitude negative 0)
  else some (ofRatio negative (unitsOf x.magnitude) (unitsOf y.magnitude))

/-- Order of the numbers; nothing is below, above or equal to a NaN. -/
def le (x y : Binary64) : Bool :=
  if x.isNaN || y.isNaN then false
  else if x.isInfinite || y.isInfinite then
    (x.isInfinite && x.isNegative) || (y.isInfinite && !y.isNegative) || x == y
  else decide (x.units ≤ y.units)

/-- Same number: the two zeros are equal and a NaN equals nothing. -/
def same (x y : Binary64) : Bool := x.le y && y.le x

def isPositive (x : Binary64) : Bool := !x.isNaN && !x.isNegative && !x.isZero

/-- The integer toward zero of a finite double. -/
def truncate? (x : Binary64) : Option Int :=
  if x.isFinite then some (x.units.tdiv one) else none

/-- The double as an integer, if it is one. -/
def toInt? (x : Binary64) : Option Int :=
  if x.isFinite && x.units % one == 0 then some (x.units.tdiv one) else none

/-! ## Small laws -/

theorem roundDiv_of_dvd {n d : Nat} (hd : 0 < d) (h : d ∣ n) : roundDiv n d = n / d := by
  obtain ⟨q, rfl⟩ := h
  simp [roundDiv, hd]

theorem two_mul_roundDiv_le {n d : Nat} (hd : 0 < d) : 2 * (d * roundDiv n d) ≤ 2 * n + d := by
  have h := Nat.div_add_mod n d
  have hr := Nat.mod_lt n hd
  simp only [roundDiv]
  split
  · omega
  · split
    · simp only [Nat.mul_add, Nat.mul_one]; omega
    · have h2 : n / d % 2 ≤ 1 := by omega
      have h3 : d * (n / d % 2) ≤ d * 1 := Nat.mul_le_mul_left d h2
      simp only [Nat.mul_add]; omega

theorem le_two_mul_roundDiv {n d : Nat} (hd : 0 < d) : 2 * n ≤ 2 * (d * roundDiv n d) + d := by
  have h := Nat.div_add_mod n d
  have hr := Nat.mod_lt n hd
  simp only [roundDiv]
  split
  · omega
  · split <;> simp only [Nat.mul_add, Nat.mul_one] <;> omega

@[simp] theorem magnitudeOfRatio_zero (d : Nat) : magnitudeOfRatio 0 d = 0 := by simp [magnitudeOfRatio]

end Binary64

end PoolFeed
