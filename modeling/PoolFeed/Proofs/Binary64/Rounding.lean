import Mathlib.Algebra.Order.Field.Basic
import Mathlib.Algebra.Order.Field.Rat
import Mathlib.Tactic.FieldSimp
import Mathlib.Tactic.Linarith
import PoolFeed.Proofs.Binary64.Finite

/-!
# Correct rounding

`Rounds q x` says that `x` is the finite double nearest to the rational number `q`, and the even one where two are
equally near. A quotient is rounded to a multiple of the unit at its place. The doubles that are no multiples of it are
all smaller than the quotient and farther away than the least normal significand at that place (`dvd_or_lt`), so the
nearest multiple is the nearest double: `rounds_ofRatio` holds of every quotient that does not reach infinity.
-/

namespace PoolFeed.Binary64

/-! ## Whole numbers -/

theorem roundDiv_cases (n d : Nat) :
    (roundDiv n d = n / d ∧ 2 * (n % d) ≤ d) ∨ (roundDiv n d = n / d + 1 ∧ d ≤ 2 * (n % d)) := by
  unfold roundDiv
  dsimp only
  split
  · left; omega
  · split
    · right; omega
    · rcases Nat.mod_two_eq_zero_or_one (n / d) with h | h <;> rw [h]
      · left; omega
      · right; omega

/-- A multiple lies at one of the two neighbours of a number, or an interval beyond them. -/
theorem mul_cases (j q d : Nat) : j * d + d ≤ q * d ∨ j = q ∨ j = q + 1 ∨ q * d + 2 * d ≤ j * d := by
  rcases Nat.lt_trichotomy j q with h | h | h
  · have := Nat.mul_le_mul_right d h
    rw [Nat.succ_mul] at this
    exact .inl this
  · exact .inr (.inl h)
  · rcases Nat.eq_or_lt_of_le h with h | h
    · exact .inr (.inr (.inl h.symm))
    · have := Nat.mul_le_mul_right d h
      rw [Nat.succ_mul, Nat.succ_mul] at this
      exact .inr (.inr (.inr (by omega)))

variable {n d : Nat}

/-- No multiple of the divisor is nearer. -/
theorem roundDiv_nearest (hd : 0 < d) (j : Nat) :
    (((roundDiv n d * d : Nat) : Int) - n).natAbs ≤ (((j * d : Nat) : Int) - n).natAbs := by
  have hdm := Nat.div_add_mod' n d
  have hr := Nat.mod_lt n hd
  have hsucc : (n / d + 1) * d = n / d * d + d := Nat.succ_mul _ _
  rcases roundDiv_cases n d with ⟨he, h2⟩ | ⟨he, h2⟩ <;> rw [he] <;>
    rcases mul_cases j (n / d) d with hj | rfl | rfl | hj <;> omega

/-- If another one is as near, the quotient is even. -/
theorem roundDiv_even (hd : 0 < d) {j : Nat} (hj : j ≠ roundDiv n d)
    (htie : (((j * d : Nat) : Int) - n).natAbs = (((roundDiv n d * d : Nat) : Int) - n).natAbs) :
    roundDiv n d % 2 = 0 := by
  have hdm := Nat.div_add_mod' n d
  have hr := Nat.mod_lt n hd
  have hsucc : (n / d + 1) * d = n / d * d + d := Nat.succ_mul _ _
  have hside := mul_cases j (n / d) d
  -- Only the two neighbours can be equally near, and only if the quotient lies halfway between them.
  have hhalf : 2 * (n % d) = d := by
    rcases roundDiv_cases n d with ⟨he, h2⟩ | ⟨he, h2⟩ <;> rw [he] at hj htie <;>
      rcases hside with hs | rfl | rfl | hs <;> omega
  unfold roundDiv
  simp only [hhalf, Nat.lt_irrefl, if_false]
  omega

theorem roundDiv_mul_right {c : Nat} (hc : 0 < c) : roundDiv (n * c) (d * c) = roundDiv n d := by
  have hlt : ∀ a b : Nat, a * c < b * c ↔ a < b := fun a b => Nat.mul_lt_mul_right hc
  unfold roundDiv
  simp only [Nat.mul_div_mul_right n d hc, Nat.mul_mod_mul_right, ← Nat.mul_assoc, hlt]

/-! ## Places -/

/-- A power of two that a quotient reaches. -/
theorem floorLog2_le_quotient (hn : 0 < n) :
    d * Nat.pow 2 (floorLog2 n d).toNat ≤ n * Nat.pow 2 (-floorLog2 n d).toNat := by
  have hnlow : 2 ^ n.log2 ≤ n := Nat.log2_self_le (Nat.ne_of_gt hn)
  have hdhigh : d < 2 ^ (d.log2 + 1) := Nat.lt_log2_self
  simp only [floorLog2, Nat.pow_eq]
  split
  · rename_i he
    split
    · rename_i hle
      rw [show (-((n.log2 : Int) - d.log2)).toNat = 0 by omega, Nat.pow_zero, Nat.mul_one]
      exact hle
    · calc d * 2 ^ ((n.log2 : Int) - d.log2 - 1).toNat
          ≤ 2 ^ (d.log2 + 1) * 2 ^ ((n.log2 : Int) - d.log2 - 1).toNat := Nat.mul_le_mul_right _ hdhigh.le
        _ = 2 ^ n.log2 * 2 ^ (-((n.log2 : Int) - d.log2 - 1)).toNat := by
            rw [← Nat.pow_add, ← Nat.pow_add]; congr 1; omega
        _ ≤ n * 2 ^ (-((n.log2 : Int) - d.log2 - 1)).toNat := Nat.mul_le_mul_right _ hnlow
  · rename_i he
    split
    · rename_i hle
      rw [show ((n.log2 : Int) - d.log2).toNat = 0 by omega, Nat.pow_zero, Nat.mul_one]
      exact hle
    · rw [show ((n.log2 : Int) - d.log2 - 1).toNat = 0 by omega, Nat.pow_zero, Nat.mul_one]
      calc d ≤ 2 ^ (d.log2 + 1) := hdhigh.le
        _ = 2 ^ n.log2 * 2 ^ (-((n.log2 : Int) - d.log2 - 1)).toNat := by rw [← Nat.pow_add]; congr 1; omega
        _ ≤ n * 2 ^ (-((n.log2 : Int) - d.log2 - 1)).toNat := Nat.mul_le_mul_right _ hnlow

/-- The place at which a quotient is rounded, counted in binary digits of the unit. -/
def place (n d : Nat) : Nat := (max (floorLog2 n d - 52) (-1074) + 1074).toNat

/-- How often the unit at its place goes into a quotient. -/
def significand (n d : Nat) : Nat := roundDiv (n * one) (d * Nat.pow 2 (place n d))

/-- The exponent stands for itself, so that nobody computes the power. -/
theorem one_eq {e : Nat} (he : e = 1074) : one = Nat.pow 2 e := by
  delta one
  rw [← he]

theorem quotientUnits_eq (n d : Nat) : quotientUnits n d (max (floorLog2 n d - 52) (-1074)) = significand n d := by
  obtain ⟨e, he⟩ : ∃ e, e = 1074 := ⟨_, rfl⟩
  unfold quotientUnits significand place
  have hk : -1074 ≤ max (floorLog2 n d - 52) (-1074) := Int.le_max_right _ _
  generalize max (floorLog2 n d - 52) (-1074) = k at hk
  simp only [one_eq he, Nat.pow_eq]
  split
  · have hplace : (k + 1074).toNat = k.toNat + e := by omega
    rw [hplace, Nat.pow_add, ← Nat.mul_assoc, roundDiv_mul_right (Nat.two_pow_pos e)]
  · have hsplit : e = (-k).toNat + (k + 1074).toNat := by omega
    rw [hsplit, Nat.pow_add, ← Nat.mul_assoc, roundDiv_mul_right (Nat.two_pow_pos _)]

/-- Below infinity the word of a quotient is its place and its significand. -/
theorem magnitudeOfRatio_eq (hn : 0 < n) (hlt : magnitudeOfRatio n d < infinityWord) :
    magnitudeOfRatio n d = place n d * fractions + significand n d := by
  have hword : magnitudeOfRatio n d = min infinityWord (place n d * fractions + significand n d) := by
    rw [← quotientUnits_eq]
    unfold magnitudeOfRatio
    rw [if_neg (Nat.ne_of_gt hn)]
    rfl
  omega

theorem significand_le (hd : 0 < d) : significand n d ≤ 2 ^ 53 := by
  rw [← quotientUnits_eq]
  exact quotientUnits_le hd (Int.le_max_left _ _)

/-- At a place above the lowest the quotient has all its digits. -/
theorem le_quotient (hn : 0 < n) (hplace : 0 < place n d) : 2 ^ 52 * (d * 2 ^ place n d) ≤ n * one := by
  obtain ⟨e, he⟩ : ∃ e, e = 1074 := ⟨_, rfl⟩
  have hlow := floorLog2_le_quotient (d := d) hn
  unfold place at hplace ⊢
  rw [one_eq he]
  generalize floorLog2 n d = f at hlow hplace ⊢
  have hp : (max (f - 52) (-1074) + 1074).toNat = (f + 1022).toNat := by omega
  have hf : 0 < (f + 1022).toNat := by omega
  rw [hp]
  simp only [Nat.pow_eq] at hlow ⊢
  calc 2 ^ 52 * (d * 2 ^ (f + 1022).toNat)
      = d * 2 ^ f.toNat * 2 ^ (e - (-f).toNat) := by
        rw [Nat.mul_left_comm, ← Nat.pow_add, Nat.mul_assoc, ← Nat.pow_add]; congr 2; omega
    _ ≤ n * 2 ^ (-f).toNat * 2 ^ (e - (-f).toNat) := Nat.mul_le_mul_right _ hlow
    _ = n * 2 ^ e := by rw [Nat.mul_assoc, ← Nat.pow_add]; congr 2; omega

theorem le_significand (hn : 0 < n) (hd : 0 < d) (hplace : 0 < place n d) : 2 ^ 52 ≤ significand n d := by
  have hq := le_quotient (d := d) hn hplace
  unfold significand
  rw [Nat.pow_eq]
  generalize n * one = v at *
  have hpos : 0 < d * 2 ^ place n d := Nat.mul_pos hd (Nat.two_pow_pos _)
  have hdiv : 2 ^ 52 ≤ v / (d * 2 ^ place n d) := (Nat.le_div_iff_mul_le hpos).2 hq
  rcases roundDiv_cases v (d * 2 ^ place n d) with ⟨he, -⟩ | ⟨he, -⟩ <;> omega

/-- The units of a word that is put together from a place and a significand. -/
theorem unitsOf_place {p q : Nat} (hq : q ≤ 2 ^ 53) (hp : 0 < p → 2 ^ 52 ≤ q) :
    unitsOf (p * fractions + q) = q * 2 ^ p := by
  unfold unitsOf
  rw [Nat.pow_eq]
  have hf : fractions = 2 ^ 52 := rfl
  rw [hf]
  by_cases hsmall : p * 2 ^ 52 + q < 2 ^ 52
  · have hp0 : p = 0 := by
      by_contra hpos
      have := hp (Nat.pos_of_ne_zero hpos)
      omega
    subst hp0
    rw [if_pos hsmall]
    omega
  · rw [if_neg hsmall]
    rcases Nat.lt_or_ge q (2 ^ 53) with hlt | hge
    · -- The leading digit of the significand adds one to the exponent.
      have hlow : 2 ^ 52 ≤ q := by
        rcases Nat.eq_zero_or_pos p with rfl | hpos
        · omega
        · exact hp hpos
      have hmod : (p * 2 ^ 52 + q) % 2 ^ 52 = q - 2 ^ 52 := by omega
      have hdiv : (p * 2 ^ 52 + q) / 2 ^ 52 - 1 = p := by omega
      rw [hmod, hdiv, Nat.add_sub_cancel' hlow]
    · have hq53 : q = 2 ^ 53 := by omega
      subst hq53
      have hmod : (p * 2 ^ 52 + 2 ^ 53) % 2 ^ 52 = 0 := by omega
      have hdiv : (p * 2 ^ 52 + 2 ^ 53) / 2 ^ 52 - 1 = p + 1 := by omega
      rw [hmod, hdiv, Nat.add_zero, ← Nat.pow_add, ← Nat.pow_add, ← Nat.add_assoc, Nat.add_right_comm]

/-- A double is a multiple of the unit at a place, or the place is not the lowest and the double is smaller than the
least significand there. -/
theorem dvd_or_lt (m p : Nat) : 2 ^ p ∣ unitsOf m ∨ 0 < p ∧ unitsOf m < 2 ^ 52 * 2 ^ p := by
  rcases Nat.eq_zero_or_pos p with rfl | hp
  · exact .inl (Nat.one_dvd _)
  unfold unitsOf
  rw [Nat.pow_eq]
  have hf : fractions = 2 ^ 52 := rfl
  rw [hf]
  split
  · rename_i hm
    right
    exact ⟨hp, Nat.lt_of_lt_of_le hm (Nat.le_mul_of_pos_right _ (Nat.two_pow_pos p))⟩
  · rename_i hm
    rcases Nat.lt_or_ge (m / 2 ^ 52 - 1) p with hlt | hge
    · right
      refine ⟨hp, ?_⟩
      have hr : m % 2 ^ 52 < 2 ^ 52 := Nat.mod_lt _ (Nat.two_pow_pos 52)
      calc (2 ^ 52 + m % 2 ^ 52) * 2 ^ (m / 2 ^ 52 - 1)
          < 2 ^ 53 * 2 ^ (m / 2 ^ 52 - 1) := Nat.mul_lt_mul_of_pos_right (by omega) (Nat.two_pow_pos _)
        _ = 2 ^ 52 * 2 ^ (m / 2 ^ 52 - 1 + 1) := by rw [Nat.pow_succ]; omega
        _ ≤ 2 ^ 52 * 2 ^ p := Nat.mul_le_mul_left _ (Nat.pow_le_pow_right (by omega) hlt)
    · left
      exact Nat.dvd_mul_left_of_dvd (Nat.pow_dvd_pow 2 hge) _

/-! ## The nearest word -/

/-- How far a number of units is from a quotient, in units divided by the divisor. -/
def gap (n d : Nat) (v : Int) : Nat := (v * d - (n * one : Nat)).natAbs

/-- No finite word stands for a number nearer to a quotient than its own word does, and if another number is as near
the word is even. -/
theorem magnitudeOfRatio_nearest (hd : 0 < d) (hlt : magnitudeOfRatio n d < infinityWord) (m : Nat) :
    gap n d (unitsOf (magnitudeOfRatio n d)) ≤ gap n d (unitsOf m) ∧
    (gap n d (unitsOf m) = gap n d (unitsOf (magnitudeOfRatio n d)) → unitsOf m ≠ unitsOf (magnitudeOfRatio n d) →
      magnitudeOfRatio n d % 2 = 0) := by
  rcases Nat.eq_zero_or_pos n with rfl | hn
  · simp [gap, unitsOf, fractions]
  have hword := magnitudeOfRatio_eq hn hlt
  have hpos : 0 < d * 2 ^ place n d := Nat.mul_pos hd (Nat.two_pow_pos _)
  have hunits : unitsOf (magnitudeOfRatio n d) = significand n d * 2 ^ place n d := by
    rw [hword]
    exact unitsOf_place (significand_le hd) (le_significand hn hd)
  have hquotient := le_quotient (d := d) hn
  have hround : significand n d = roundDiv (n * one) (d * 2 ^ place n d) := rfl
  unfold gap
  generalize n * one = v at hquotient hround ⊢
  generalize place n d = p at hword hpos hunits hquotient hround
  generalize significand n d = q at hword hunits hround
  -- Gaps are measured in multiples of the divisor at the place.
  have hgap : ∀ j : Nat, (((j * 2 ^ p : Nat) : Int) * d - v).natAbs = (((j * (d * 2 ^ p) : Nat) : Int) - v).natAbs := by
    intro j
    rw [← Int.natCast_mul, Nat.mul_assoc, Nat.mul_comm (2 ^ p) d]
  have hnearest := fun j => roundDiv_nearest (n := v) hpos j
  rw [← hround] at hnearest
  rw [hunits, hgap]
  rcases dvd_or_lt m p with ⟨j, hj⟩ | ⟨hp, hsmall⟩
  · rw [Nat.mul_comm] at hj
    rw [hj, hgap]
    refine ⟨hnearest j, fun htie hne => ?_⟩
    have heven : q % 2 = 0 := by
      rw [hround] at htie hne ⊢
      refine roundDiv_even hpos ?_ htie
      rintro rfl
      exact hne rfl
    have hfractions : fractions % 2 = 0 := rfl
    rw [hword, Nat.add_mod, Nat.mul_mod, hfractions, heven, Nat.mul_zero]
  · -- Such a word is farther away than the least significand at the place.
    have hmul : unitsOf m * d < 2 ^ 52 * (d * 2 ^ p) := by
      rw [Nat.mul_comm d, ← Nat.mul_assoc]
      exact Nat.mul_lt_mul_of_pos_right hsmall hd
    have hle := hquotient hp
    have hleast := hnearest (2 ^ 52)
    generalize 2 ^ 52 * (d * 2 ^ p) = least at hmul hle hleast
    generalize q * (d * 2 ^ p) = own at hleast ⊢
    rw [← Int.natCast_mul]
    generalize unitsOf m * d = other at hmul ⊢
    constructor
    · omega
    · intro htie
      omega

/-- A word below zero is farther away than zero. -/
theorem magnitudeOfRatio_nearest_neg (hd : 0 < d) (hlt : magnitudeOfRatio n d < infinityWord) {m : Nat}
    (hm : 0 < unitsOf m) : gap n d (unitsOf (magnitudeOfRatio n d)) < gap n d (-unitsOf m) := by
  have hzero := (magnitudeOfRatio_nearest hd hlt 0).1
  have hpos : 0 < unitsOf m * d := Nat.mul_pos hm hd
  have hunits : unitsOf 0 = 0 := rfl
  rw [hunits] at hzero
  unfold gap at hzero ⊢
  simp only [Int.neg_mul, ← Int.natCast_mul] at hzero ⊢
  generalize n * one = v at *
  generalize unitsOf m * d = other at *
  omega

/-- What a double stands for, in units, by its sign. -/
theorem units_cases (x : Binary64) :
    x.units = unitsOf x.magnitude ∨ (0 < unitsOf x.magnitude ∧ x.units = -unitsOf x.magnitude) := by
  unfold units
  split
  · rcases Nat.eq_zero_or_pos (unitsOf x.magnitude) with h | h
    · left
      rw [h]
      rfl
    · exact .inr ⟨h, rfl⟩
  · exact .inl rfl

theorem isNegative_ofMagnitude {m : Nat} (hm : m < signWord) : (ofMagnitude false m).isNegative = false := by
  unfold isNegative ofMagnitude
  simp only [Bool.false_eq_true, if_false, UInt64.toNat_ofNat', decide_eq_false_iff_not, Nat.not_le]
  unfold signWord at hm ⊢
  omega

theorem units_ofMagnitude {m : Nat} (hm : m < signWord) : (ofMagnitude false m).units = unitsOf m := by
  rw [units, isNegative_ofMagnitude hm, magnitude_ofMagnitude false hm]
  rfl

/-! ## Rounding -/

/-- The rational number that a finite double stands for. -/
def value (x : Binary64) : ℚ := x.units / one

/-- The double nearest to a number: it is finite, no finite double is nearer, and if another one is as near then its
word is even. -/
structure Rounds (q : ℚ) (x : Binary64) : Prop where
  isFinite : x.isFinite = true
  nearest : ∀ y : Binary64, y.isFinite = true → |x.value - q| ≤ |y.value - q|
  even : ∀ y : Binary64, y.isFinite = true → |y.value - q| = |x.value - q| → y.value ≠ x.value → x.magnitude % 2 = 0

theorem one_pos : 0 < one := by
  obtain ⟨e, he⟩ : ∃ e, e = 1074 := ⟨_, rfl⟩
  rw [one_eq he]
  exact Nat.two_pow_pos e

theorem abs_value_sub (hd : 0 < d) (x : Binary64) : |x.value - n / d| = gap n d x.units / (one * d) := by
  have hone : (0 : ℚ) < one := Nat.cast_pos.2 one_pos
  have hd' : (0 : ℚ) < d := Nat.cast_pos.2 hd
  have hsub : x.value - n / d = ((x.units * d - (n * one : Nat) : Int) : ℚ) / (one * d) := by
    rw [value, div_sub_div _ _ (ne_of_gt hone) (ne_of_gt hd'), Int.cast_sub, Int.cast_mul, Int.cast_natCast,
      Int.cast_natCast, Nat.cast_mul, mul_comm (n : ℚ)]
  rw [hsub, abs_div, abs_of_pos (mul_pos hone hd'), gap, Nat.cast_natAbs, Int.cast_abs]

theorem abs_value_sub_le_iff (hd : 0 < d) (x y : Binary64) :
    |x.value - n / d| ≤ |y.value - n / d| ↔ gap n d x.units ≤ gap n d y.units := by
  have hpos : (0 : ℚ) < one * d := mul_pos (Nat.cast_pos.2 one_pos) (Nat.cast_pos.2 hd)
  rw [abs_value_sub hd, abs_value_sub hd, div_le_div_iff_of_pos_right hpos, Nat.cast_le]

/-- **A quotient is rounded correctly**, if it does not reach infinity. -/
theorem rounds_ofRatio (hd : 0 < d) (hlt : magnitudeOfRatio n d < infinityWord) :
    Rounds (n / d) (ofRatio false n d) := by
  have hsign : infinityWord < signWord := by decide
  have hmagnitude : (ofRatio false n d).magnitude = magnitudeOfRatio n d :=
    magnitude_ofMagnitude false (Nat.lt_trans hlt hsign)
  have hunits : (ofRatio false n d).units = unitsOf (magnitudeOfRatio n d) :=
    units_ofMagnitude (Nat.lt_trans hlt hsign)
  refine ⟨?_, fun y _ => ?_, fun y _ htie hne => ?_⟩
  · rw [isFinite, hmagnitude]
    exact decide_eq_true hlt
  · rw [abs_value_sub_le_iff hd, hunits]
    rcases units_cases y with hy | ⟨hpos, hy⟩ <;> rw [hy]
    · exact (magnitudeOfRatio_nearest hd hlt y.magnitude).1
    · exact (magnitudeOfRatio_nearest_neg hd hlt hpos).le
  · have hgap : gap n d y.units = gap n d (ofRatio false n d).units :=
      le_antisymm ((abs_value_sub_le_iff hd _ _).1 htie.le) ((abs_value_sub_le_iff hd _ _).1 htie.ge)
    rw [hmagnitude]
    rw [hunits] at hgap
    rcases units_cases y with hy | ⟨hpos, hy⟩ <;> rw [hy] at hgap
    · refine (magnitudeOfRatio_nearest hd hlt y.magnitude).2 hgap fun hsame => hne ?_
      rw [value, value, hy, hunits, hsame]
    · exact absurd hgap (magnitudeOfRatio_nearest_neg hd hlt hpos).ne'

/-! ## Quotients in range -/

/-- A normal quotient has as many binary digits as it should, or one more when it was rounded up. -/
theorem log2_unitsOf (hn : 0 < n) (hd : 0 < d) (hlow : -1021 ≤ floorLog2 n d) (hhigh : floorLog2 n d < 1023) :
    floorLog2 n d + 1074 ≤ (unitsOf (magnitudeOfRatio n d)).log2 ∧
    ((unitsOf (magnitudeOfRatio n d)).log2 : Int) ≤ floorLog2 n d + 1075 := by
  have hplace : place n d = (floorLog2 n d + 1022).toNat := by
    unfold place
    omega
  have hpos : 0 < place n d := by omega
  have hunits : unitsOf (magnitudeOfRatio n d) = significand n d * 2 ^ place n d := by
    rw [magnitudeOfRatio_eq hn (magnitudeOfRatio_lt_of_floorLog2 hd hhigh)]
    exact unitsOf_place (significand_le hd) (le_significand hn hd)
  have hleast := le_significand hn hd hpos
  have hmost := significand_le (n := n) hd
  rw [hunits]
  generalize significand n d = q at hleast hmost ⊢
  have hne : q * 2 ^ place n d ≠ 0 := Nat.ne_of_gt (Nat.mul_pos (by omega) (Nat.two_pow_pos _))
  have hlower : 52 + place n d ≤ (q * 2 ^ place n d).log2 := by
    rw [Nat.le_log2 hne, Nat.pow_add]
    exact Nat.mul_le_mul_right _ hleast
  have hupper : (q * 2 ^ place n d).log2 < 54 + place n d := by
    rw [Nat.log2_lt hne, Nat.pow_add]
    exact Nat.mul_lt_mul_of_pos_right (by omega) (Nat.two_pow_pos _)
  omega

theorem value_eq {x : Binary64} (hx : x.isNegative = false) : x.value = unitsOf x.magnitude / one := by
  rw [value, units, hx]
  rfl

/-- The quotient of two numbers in range, that are not negative, is rounded correctly. -/
theorem rounds_div {x y : Binary64} (hx : x.isFinite = true) (hx' : x.isNegative = false) (hy : y.isFinite = true)
    (hy' : y.isNegative = false) (hpos : 0 < unitsOf y.magnitude)
    (hlt : magnitudeOfRatio (unitsOf x.magnitude) (unitsOf y.magnitude) < infinityWord) :
    x.div? y = some (ofRatio false (unitsOf x.magnitude) (unitsOf y.magnitude)) ∧
    Rounds (x.value / y.value) (ofRatio false (unitsOf x.magnitude) (unitsOf y.magnitude)) := by
  have hfinite : ∀ {z : Binary64}, z.isFinite = true → z.isNaN = false ∧ z.isInfinite = false := by
    intro z hz
    have hlt := of_decide_eq_true hz
    exact ⟨decide_eq_false (by omega), decide_eq_false (by omega)⟩
  have hzero : y.isZero = false := by
    refine decide_eq_false fun hzero => ?_
    rw [hzero] at hpos
    exact absurd hpos (by decide)
  constructor
  · simp [div?, hzero, hfinite hx, hfinite hy, hx', hy']
  · have hone : (one : ℚ) ≠ 0 := Nat.cast_ne_zero.2 (Nat.ne_of_gt one_pos)
    have hquotient : x.value / y.value = unitsOf x.magnitude / unitsOf y.magnitude := by
      rw [value_eq hx', value_eq hy', div_div_div_cancel_right₀ hone]
    rw [hquotient]
    exact rounds_ofRatio hpos hlt

end PoolFeed.Binary64
