/-!
# Byte strings

| here | there |
| --- | --- |
| `leNat`, `leInt`, `ofLeNat` | the little-endian integers in the layouts of the two decoders |

Lists of bytes, their hexadecimal spelling, and the little-endian numbers written in them. A number
of a fixed width has exactly one spelling, so writing and reading undo each other
(`leNat_ofLeNat`, `ofLeNat_leNat`).
-/

namespace PoolFeed

/-- A byte string, first byte first. -/
abbrev Bytes := List UInt8

namespace Bytes

/-! ## Hexadecimal -/

/-- The two lowercase hexadecimal digits of a byte. -/
def hexOfByte (b : UInt8) : List Char := [Nat.digitChar (b.toNat / 16), Nat.digitChar (b.toNat % 16)]

/-- Lowercase hexadecimal, two digits a byte. -/
def toHex (b : Bytes) : String := String.ofList (b.flatMap hexOfByte)

/-- The value of one hexadecimal digit of either case. -/
def hexDigit? (c : Char) : Option Nat :=
  if '0' ≤ c ∧ c ≤ '9' then some (c.toNat - '0'.toNat)
  else if 'a' ≤ c ∧ c ≤ 'f' then some (c.toNat - 'a'.toNat + 10)
  else if 'A' ≤ c ∧ c ≤ 'F' then some (c.toNat - 'A'.toNat + 10)
  else none

/-- Reads digit pairs; an odd digit or a foreign character is refused. -/
def ofHexDigits? : List Char → Option Bytes
  | [] => some []
  | [_] => none
  | hi :: lo :: rest => do
    let h ← hexDigit? hi
    let l ← hexDigit? lo
    return UInt8.ofNat (16 * h + l) :: (← ofHexDigits? rest)

def ofHex? (s : String) : Option Bytes := ofHexDigits? s.toList

/-! ## Little-endian numbers -/

/-- The number whose little-endian bytes these are. -/
def leNat : Bytes → Nat
  | [] => 0
  | b :: rest => b.toNat + 256 * leNat rest

/-- The `width` low bytes of `n`, lowest first. -/
def ofLeNat : (width n : Nat) → Bytes
  | 0, _ => []
  | width + 1, n => UInt8.ofNat n :: ofLeNat width (n / 256)

@[simp] theorem length_ofLeNat : ∀ width n, (ofLeNat width n).length = width
  | 0, _ => rfl
  | width + 1, n => by simp [ofLeNat, length_ofLeNat width]

/-- How many numbers so many bytes can spell. -/
def span (width : Nat) : Nat := Nat.pow 256 width

@[simp] theorem span_zero : span 0 = 1 := rfl

theorem span_succ (width : Nat) : span (width + 1) = 256 * span width := Nat.mul_comm _ _

theorem leNat_lt : ∀ b : Bytes, leNat b < span b.length
  | [] => Nat.zero_lt_one
  | b :: rest => by
    have hb := b.toNat_lt
    have hr := leNat_lt rest
    simp only [leNat, List.length_cons, span_succ]
    omega

theorem leNat_ofLeNat : ∀ {width n : Nat}, n < span width → leNat (ofLeNat width n) = n
  | 0, n, h => by simp only [span_zero, Nat.lt_one_iff] at h; simp only [ofLeNat, leNat, h]
  | width + 1, n, h => by
    have hd : n / 256 < span width := by rw [span_succ] at h; omega
    simp only [ofLeNat, leNat, leNat_ofLeNat hd, UInt8.toNat_ofNat']
    omega

theorem ofLeNat_leNat : ∀ b : Bytes, ofLeNat b.length (leNat b) = b
  | [] => rfl
  | b :: rest => by
    have hb := b.toNat_lt
    have hd : (b.toNat + 256 * leNat rest) / 256 = leNat rest := by omega
    have hm : UInt8.ofNat (b.toNat + 256 * leNat rest) = b := by
      apply UInt8.toNat_inj.1
      simp only [UInt8.toNat_ofNat']
      omega
    simp only [List.length_cons, leNat, ofLeNat, hd, hm, ofLeNat_leNat rest]

/-- The two's complement number of `width` bytes that `n` spells. -/
def signedOfNat (width n : Nat) : Int := if 2 * n < span width then n else n - span width

/-- The spelling of a two's complement number of `width` bytes. -/
def natOfSigned (width : Nat) (i : Int) : Nat := (i % span width).toNat

/-- The two's complement number whose little-endian bytes these are. -/
def leInt (b : Bytes) : Int := signedOfNat b.length (leNat b)

/-- The big-endian number of a byte string. -/
def beNat (b : Bytes) : Nat := b.foldl (fun n x => 256 * n + x.toNat) 0

end Bytes

end PoolFeed
