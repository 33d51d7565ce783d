import PoolFeed.Binary64.Basic

/-!
# Quotients that stay finite, and quotients that stay positive

A quotient is rounded at the place of its 53rd binary digit, which `floorLog2` finds. So at most `2 ^ 53`
units of that place are left (`quotientUnits_le`), and a numerator of at most 1023 binary digits cannot reach
infinity whatever it is divided by (`isFinite_ofIntRatio`). A denominator of at most 1021 binary digits keeps
that place above the smallest there is, so what a positive number is divided by it does not vanish
(`isZero_ofRatio`).
-/

namespace PoolFeed.Binary64

theorem roundDiv_le {n d m : Nat} (h : n < d * m) : roundDiv n d ≤ m := by
  have hq : n / d < m := Nat.div_lt_of_lt_mul h
  simp only [roundDiv]
  split
  · omega
  · split <;> omega

/-- The quotient is below the next power of two. -/
theorem lt_floorLog2 {n d : Nat} (hd : 0 < d) :
    n * Nat.pow 2 (-(floorLog2 n d + 1)).toNat < d * Nat.pow 2 (floorLog2 n d + 1).toNat := by
  have hn : n < 2 ^ (n.log2 + 1) := Nat.lt_log2_self
  have hb : 2 ^ d.log2 ≤ d := Nat.log2_self_le (Nat.ne_of_gt hd)
  simp only [floorLog2, Nat.pow_eq]
  split
  · rename_i he
    split
    · rw [show (-((n.log2 : Int) - d.log2 + 1)).toNat = 0 by omega, Nat.pow_zero, Nat.mul_one]
      calc n < 2 ^ (n.log2 + 1) := hn
        _ = 2 ^ d.log2 * 2 ^ ((n.log2 : Int) - d.log2 + 1).toNat := by rw [← Nat.pow_add]; congr 1; omega
        _ ≤ d * 2 ^ ((n.log2 : Int) - d.log2 + 1).toNat := Nat.mul_le_mul_right _ hb
    · rename_i hlt
      rw [Int.sub_add_cancel, show (-((n.log2 : Int) - d.log2)).toNat = 0 by omega, Nat.pow_zero, Nat.mul_one]
      exact Nat.lt_of_not_le hlt
  · rename_i he
    split
    · rw [show ((n.log2 : Int) - d.log2 + 1).toNat = 0 by omega, Nat.pow_zero, Nat.mul_one]
      calc n * 2 ^ (-((n.log2 : Int) - d.log2 + 1)).toNat
          < 2 ^ (n.log2 + 1) * 2 ^ (-((n.log2 : Int) - d.log2 + 1)).toNat :=
            Nat.mul_lt_mul_of_pos_right hn (Nat.two_pow_pos _)
        _ = 2 ^ d.log2 := by rw [← Nat.pow_add]; congr 1; omega
        _ ≤ d := hb
    · rename_i hlt
      rw [Int.sub_add_cancel, show ((n.log2 : Int) - d.log2).toNat = 0 by omega, Nat.pow_zero, Nat.mul_one]
      exact Nat.lt_of_not_le hlt

theorem floorLog2_le_sub (n d : Nat) : floorLog2 n d ≤ (n.log2 : Int) - d.log2 := by
  simp only [floorLog2]
  split <;> split <;> omega

theorem sub_le_floorLog2 (n d : Nat) : (n.log2 : Int) - d.log2 - 1 ≤ floorLog2 n d := by
  simp only [floorLog2]
  split <;> split <;> omega

theorem floorLog2_le (n d : Nat) : floorLog2 n d ≤ n.log2 := by
  have h := floorLog2_le_sub n d
  omega

/-- The units that are left when a quotient is rounded at the place `k`. -/
def quotientUnits (n d : Nat) (k : Int) : Nat :=
  if 0 ≤ k then roundDiv n (d * Nat.pow 2 k.toNat) else roundDiv (n * Nat.pow 2 (-k).toNat) d

theorem quotientUnits_le {n d : Nat} {k : Int} (hd : 0 < d) (hk : floorLog2 n d - 52 ≤ k) :
    quotientUnits n d k ≤ Nat.pow 2 53 := by
  have hlt := lt_floorLog2 (n := n) hd
  rw [Nat.pow_eq, Nat.pow_eq] at hlt
  generalize hg : floorLog2 n d + 1 = g at hlt
  unfold quotientUnits
  split
  · refine roundDiv_le ?_
    rw [Nat.pow_eq]
    calc n ≤ n * 2 ^ (-g).toNat := Nat.le_mul_of_pos_right n (Nat.two_pow_pos _)
      _ < d * 2 ^ g.toNat := hlt
      _ ≤ d * 2 ^ (k.toNat + 53) := Nat.mul_le_mul_left d (Nat.pow_le_pow_right (by omega) (by omega))
      _ = d * 2 ^ k.toNat * 2 ^ 53 := by rw [Nat.pow_add, Nat.mul_assoc]
  · refine roundDiv_le ?_
    rw [Nat.pow_eq]
    calc n * 2 ^ (-k).toNat ≤ n * (2 ^ (-g).toNat * 2 ^ (53 - g.toNat)) := by
          rw [← Nat.pow_add]
          exact Nat.mul_le_mul_left n (Nat.pow_le_pow_right (by omega) (by omega))
      _ = n * 2 ^ (-g).toNat * 2 ^ (53 - g.toNat) := (Nat.mul_assoc _ _ _).symm
      _ < d * 2 ^ g.toNat * 2 ^ (53 - g.toNat) := Nat.mul_lt_mul_of_pos_right hlt (Nat.two_pow_pos _)
      _ = d * 2 ^ 53 := by rw [Nat.mul_assoc, ← Nat.pow_add]; congr 2; omega

/-- A quotient in range is finite. -/
theorem magnitudeOfRatio_lt_of_floorLog2 {n d : Nat} (hd : 0 < d) (hfloor : floorLog2 n d < 1023) :
    magnitudeOfRatio n d < infinityWord := by
  unfold magnitudeOfRatio
  split
  · simp [infinityWord, fractions]
  · have hunits := quotientUnits_le (n := n) hd (Int.le_max_left (floorLog2 n d - 52) (-1074))
    rw [Nat.pow_eq] at hunits
    generalize hk : max (floorLog2 n d - 52) (-1074) = k at hunits
    have hle : (k + 1074).toNat ≤ 2044 := by omega
    have hmul : (k + 1074).toNat * fractions ≤ 2044 * fractions := Nat.mul_le_mul_right _ hle
    refine Nat.lt_of_le_of_lt (Nat.min_le_right _ _) ?_
    show (k + 1074).toNat * fractions + quotientUnits n d k < infinityWord
    simp only [infinityWord, fractions] at hmul ⊢
    omega

/-- So is one of a numerator in range. -/
theorem magnitudeOfRatio_lt {n d : Nat} (hd : 0 < d) (hn : n.log2 < 1023) : magnitudeOfRatio n d < infinityWord := by
  have hfloor := floorLog2_le n d
  exact magnitudeOfRatio_lt_of_floorLog2 hd (by omega)

theorem magnitude_ofMagnitude (negative : Bool) {m : Nat} (hm : m < signWord) :
    (ofMagnitude negative m).magnitude = m := by
  simp only [magnitude, ofMagnitude, UInt64.toNat_ofNat', signWord] at hm ⊢
  split <;> omega

theorem isFinite_ofIntRatio {i : Int} {d : Nat} (hd : 0 < d) (hi : i.natAbs.log2 < 1023) :
    (ofIntRatio i d).isFinite := by
  have hlt := magnitudeOfRatio_lt hd hi
  have hsign : infinityWord < signWord := by simp [infinityWord, fractions, signWord]
  rw [isFinite, ofIntRatio, ofRatio, magnitude_ofMagnitude _ (Nat.lt_trans hlt hsign)]
  exact decide_eq_true hlt

/-! ## Quotients that stay positive -/

theorem le_floorLog2 (n d : Nat) : -(d.log2 : Int) - 1 ≤ floorLog2 n d := by
  have h := sub_le_floorLog2 n d
  omega

theorem magnitudeOfRatio_le (n d : Nat) : magnitudeOfRatio n d ≤ infinityWord := by
  unfold magnitudeOfRatio
  split
  · exact Nat.zero_le _
  · exact Nat.min_le_left _ _

/-- A quotient by a number in range has an exponent of its own. -/
theorem fractions_le_magnitudeOfRatio {n d : Nat} (hn : 0 < n) (hd : d.log2 ≤ 1020) :
    fractions ≤ magnitudeOfRatio n d := by
  have hfloor := le_floorLog2 n d
  unfold magnitudeOfRatio
  rw [if_neg (Nat.ne_of_gt hn)]
  generalize hk : max (floorLog2 n d - 52) (-1074) = k
  have hexp : 1 ≤ (k + 1074).toNat := by omega
  have hmul : 1 * fractions ≤ (k + 1074).toNat * fractions := Nat.mul_le_mul_right _ hexp
  refine Nat.le_min.2 ⟨Nat.le_mul_of_pos_left _ (by decide), ?_⟩
  omega

theorem isZero_ofRatio {n d : Nat} (negative : Bool) (hn : 0 < n) (hd : d.log2 ≤ 1020) :
    (ofRatio negative n d).isZero = false := by
  have hsign : infinityWord < signWord := by simp [infinityWord, fractions, signWord]
  have hpos : 0 < fractions := by decide
  have hle := fractions_le_magnitudeOfRatio hn hd
  rw [isZero, ofRatio, magnitude_ofMagnitude _ (Nat.lt_of_le_of_lt (magnitudeOfRatio_le n d) hsign)]
  exact decide_eq_false (by omega)

end PoolFeed.Binary64
