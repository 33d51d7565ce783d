import PoolFeed.Bytes

/-!
# Base58 text

| here | there |
| --- | --- |
| `encode` | `str` of the keys and signatures in `TransactionEnvelope.from_update` and `signature_b58` |
| `publicKey?`, `KeyError` | `Pubkey.from_string`, as `ProgramsConfig.valid_pubkey` calls it |

A byte string is written as the base-58 digits of its big-endian number, after one `1` for each
leading zero byte. Addresses and signatures are shown this way.
-/

namespace PoolFeed.Base58

/-- The digits in order of value: no zero, capital o, capital i or small l. -/
def alphabet : List Char := "123456789ABCDEFGHJKLMNPQRSTUVWXYZabcdefghijkmnopqrstuvwxyz".toList

/-- Base-58 digits of a number, highest first; zero has none. -/
def digits (n : Nat) : List Nat := if n = 0 then [] else digits (n / 58) ++ [n % 58]
termination_by n
decreasing_by omega

/-- The character of a digit. -/
def char (d : Nat) : Char := alphabet.getD d '1'

/-- The value of a character, if it is a base-58 digit. -/
def value? (c : Char) : Option Nat := alphabet.idxOf? c

def encode (b : Bytes) : String :=
  let zeros := b.takeWhile (· == 0)
  String.ofList (zeros.map (fun _ => '1') ++ (digits (Bytes.beNat b)).map char)

/-- Base-256 digits of a number, highest first; zero has none. -/
def bytesOf (n : Nat) : Bytes := if n = 0 then [] else bytesOf (n / 256) ++ [UInt8.ofNat n]
termination_by n
decreasing_by omega

/-- Reads base-58 text; a character outside the alphabet is refused. -/
def decode? (s : String) : Option Bytes := do
  let ds ← s.toList.mapM value?
  let n := ds.foldl (fun n d => 58 * n + d) 0
  return (ds.takeWhile (· == 0)).map (fun _ => 0) ++ bytesOf n

/-! ## Public keys -/

/-- Why a text is not a public key. -/
inductive KeyError where
  | wrongSize
  | badDigit
  deriving DecidableEq

def KeyError.message : KeyError → String
  | .wrongSize => "String is the wrong size"
  | .badDigit => "Invalid Base58 string"

/-- The longest base-58 text of 32 bytes. -/
def maxKeyLength : Nat := 44

/-- A public key is base-58 text of exactly 32 bytes; text that is too long is not looked into. -/
def publicKey? (s : String) : Except KeyError Bytes :=
  if s.utf8ByteSize > maxKeyLength then .error .wrongSize
  else match decode? s with
    | none => .error .badDigit
    | some b => if b.length = 32 then .ok b else .error .wrongSize

end PoolFeed.Base58
