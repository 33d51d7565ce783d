import PoolFeed.Bytes

/-!
# Base-128 numbers

| here | there |
| --- | --- |
| `read?`, `write` | the numbers and tags in the messages of `load_geyser_protos` |

Seven bits a byte, lowest first, the top bit set on every byte but the last. Reading takes a number
off the front of the bytes and gives the rest back.
-/

namespace PoolFeed.Wire.Varint

def write (n : Nat) : Bytes :=
  if n < 128 then [UInt8.ofNat n] else UInt8.ofNat (n % 128 + 128) :: write (n / 128)
termination_by n
decreasing_by omega

/-- Reads a number of at most `limit` bytes. -/
def read? : (limit : Nat) → Bytes → Option (Nat × Bytes)
  | 0, _ => none
  | _, [] => none
  | limit + 1, b :: rest =>
    if b.toNat < 128 then some (b.toNat, rest)
    else (read? limit rest).map fun (n, rest) => (b.toNat - 128 + 128 * n, rest)

theorem read?_write_append : ∀ {limit n : Nat} (rest : Bytes), n < Nat.pow 128 (limit + 1) →
    read? (limit + 1) (write n ++ rest) = some (n, rest)
  | limit, n, rest, h => by
    rw [write]
    by_cases hn : n < 128
    · have hb : (UInt8.ofNat n).toNat = n := by rw [UInt8.toNat_ofNat']; omega
      rw [if_pos hn, List.cons_append, List.nil_append, read?, hb, if_pos hn]
    · match limit with
      | 0 => simp at h; omega
      | limit + 1 =>
        have hd : n / 128 < Nat.pow 128 (limit + 1) := Nat.div_lt_of_lt_mul (Nat.mul_comm _ _ ▸ h)
        have hb : (UInt8.ofNat (n % 128 + 128)).toNat = n % 128 + 128 := by
          rw [UInt8.toNat_ofNat']; omega
        have h1 : ¬ n % 128 + 128 < 128 := by omega
        rw [if_neg hn, List.cons_append, read?]
        simp only [hb, h1, if_false, read?_write_append rest hd, Option.map_some]
        congr 2
        omega

end PoolFeed.Wire.Varint
