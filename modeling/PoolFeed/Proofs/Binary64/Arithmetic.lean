import Mathlib.Algebra.Order.Round
import Mathlib.Data.Rat.Floor
import Mathlib.Tactic.NormNum
import Mathlib.Tactic.Ring
import PoolFeed.Proofs.Binary64.Rounding

/-!
# Numbers that are doubles, and how far off the others are

A whole number of at most 53 binary digits is a double at every place within range (`isDouble_div`). So a number that
is rounded correctly is not changed if it is a double, and otherwise moved by at most half a unit at its place
(`Rounds.error`). Sums and products are rounded correctly, and the whole part of a double and what is left of it are
doubles both (`isDouble_parts`).
-/

namespace PoolFeed.Binary64

/-! ## Signs -/

variable {m n d : Nat} {q : ℚ} {x y : Binary64}

theorem infinityWord_lt : infinityWord < signWord := by decide

theorem magnitude_lt (x : Binary64) : x.magnitude < signWord := Nat.mod_lt _ (by decide)

theorem isNegative_of_sign (negative : Bool) (hm : m < signWord) : (ofMagnitude negative m).isNegative = negative := by
  unfold isNegative ofMagnitude
  simp only [UInt64.toNat_ofNat']
  unfold signWord at hm ⊢
  cases negative <;> simp <;> omega

theorem value_of_sign (negative : Bool) (hm : m < signWord) :
    (ofMagnitude negative m).value = (if negative then -1 else 1) * (unitsOf m / one) := by
  rw [value, units, isNegative_of_sign negative hm, magnitude_ofMagnitude negative hm]
  cases negative <;> simp only [Bool.false_eq_true, ↓reduceIte, Int.cast_neg, Int.cast_natCast, neg_div, neg_mul, one_mul]

theorem isFinite_of_sign (negative : Bool) (hm : m < infinityWord) : (ofMagnitude negative m).isFinite = true := by
  rw [isFinite, magnitude_ofMagnitude negative (Nat.lt_trans hm infinityWord_lt)]
  exact decide_eq_true hm

theorem value_eq_sign (x : Binary64) : x.value = (if x.isNegative then -1 else 1) * (unitsOf x.magnitude / one) := by
  rw [value, units]
  cases x.isNegative <;>
    simp only [Bool.false_eq_true, ↓reduceIte, Int.cast_neg, Int.cast_natCast, neg_div, neg_mul, one_mul]

theorem value_neg (x : Binary64) : x.neg.value = -x.value := by
  rw [neg, value_of_sign _ x.magnitude_lt, value_eq_sign]
  cases x.isNegative <;>
    simp only [Bool.not_false, Bool.not_true, Bool.false_eq_true, ↓reduceIte, one_mul, neg_mul, neg_neg]

theorem isFinite_neg (hx : x.isFinite = true) : x.neg.isFinite = true :=
  isFinite_of_sign _ (of_decide_eq_true hx)

theorem magnitude_neg (x : Binary64) : x.neg.magnitude = x.magnitude := magnitude_ofMagnitude _ x.magnitude_lt

theorem abs_value_neg_sub (x : Binary64) (q : ℚ) : |x.neg.value - q| = |x.value - -q| := by
  rw [value_neg, ← abs_neg]
  congr 1
  ring

/-- Rounding does not prefer a sign. -/
theorem Rounds.neg (h : Rounds q x) : Rounds (-q) x.neg := by
  have hflip : ∀ y : Binary64, |y.value - -q| = |y.neg.value - q| := fun y => (abs_value_neg_sub y q).symm
  have hback : |x.neg.value - -q| = |x.value - q| := by rw [abs_value_neg_sub, neg_neg]
  refine ⟨isFinite_neg h.isFinite, fun y hy => ?_, fun y hy htie hne => ?_⟩
  · rw [hback, hflip]
    exact h.nearest y.neg (isFinite_neg hy)
  · rw [hback, hflip] at htie
    rw [magnitude_neg]
    refine h.even y.neg (isFinite_neg hy) htie fun hsame => hne ?_
    rw [value_neg] at hsame ⊢
    rw [← hsame, neg_neg]

theorem ofRatio_neg (hlt : magnitudeOfRatio n d < infinityWord) : ofRatio true n d = (ofRatio false n d).neg := by
  have hsign := Nat.lt_trans hlt infinityWord_lt
  rw [neg, ofRatio, ofRatio, isNegative_of_sign _ hsign, magnitude_ofMagnitude _ hsign]
  rfl

/-- A quotient with a sign is rounded correctly. -/
theorem rounds_ofRatio_sign (negative : Bool) (hd : 0 < d) (hlt : magnitudeOfRatio n d < infinityWord) :
    Rounds ((if negative then -1 else 1) * (n / d)) (ofRatio negative n d) := by
  have h := rounds_ofRatio hd hlt
  cases negative with
  | false => simpa using h
  | true =>
    rw [ofRatio_neg hlt]
    simpa using h.neg

theorem sign_mul_natAbs (i : Int) : (if decide (i < 0) then -1 else 1) * (i.natAbs : ℚ) = i := by
  rw [Nat.cast_natAbs, Int.cast_abs]
  by_cases hneg : i < 0
  · rw [abs_of_neg (Int.cast_lt_zero.2 hneg), decide_eq_true hneg, if_pos rfl, neg_one_mul, neg_neg]
  · rw [abs_of_nonneg (Int.cast_nonneg (Int.not_lt.1 hneg)), decide_eq_false hneg, if_neg nofun, one_mul]

theorem rounds_ofIntRatio {i : Int} (hd : 0 < d) (hlt : magnitudeOfRatio i.natAbs d < infinityWord) :
    Rounds (i / d) (ofIntRatio i d) := by
  have h := rounds_ofRatio_sign (decide (i < 0)) hd hlt
  rwa [← mul_div_assoc, sign_mul_natAbs] at h

/-! ## Numbers that are doubles -/

/-- A finite double stands for the number. -/
def IsDouble (q : ℚ) : Prop := ∃ y : Binary64, y.isFinite = true ∧ y.value = q

/-- A whole number of at most 53 binary digits has a word at every place. -/
theorem exists_unitsOf : ∀ (p : Nat) {j : Nat}, j ≤ 2 ^ 53 → ∃ m ≤ p * fractions + j, unitsOf m = j * 2 ^ p
  | 0, j, hj => ⟨j, by omega, by simpa using unitsOf_place (p := 0) hj nofun⟩
  | p + 1, j, hj => by
    by_cases hlow : 2 ^ 52 ≤ j
    · exact ⟨_, le_rfl, unitsOf_place hj fun _ => hlow⟩
    · obtain ⟨m, hm, hunits⟩ := exists_unitsOf p (j := 2 * j) (by omega)
      refine ⟨m, hm.trans ?_, ?_⟩
      · unfold fractions
        omega
      · rw [hunits, Nat.pow_succ]
        ring

/-- Such a number is a double with either sign, if its word is in range. -/
theorem isDouble_units {i : Int} {p : Nat} (hi : i.natAbs ≤ 2 ^ 53) (hp : p * fractions + i.natAbs < infinityWord) :
    IsDouble (i * 2 ^ p / one) := by
  obtain ⟨m, hm, hunits⟩ := exists_unitsOf p hi
  have hfinite : m < infinityWord := by omega
  refine ⟨ofMagnitude (decide (i < 0)) m, isFinite_of_sign _ hfinite, ?_⟩
  rw [value_of_sign _ (Nat.lt_trans hfinite infinityWord_lt), hunits, Nat.cast_mul, ← mul_div_assoc, ← mul_assoc,
    sign_mul_natAbs, Nat.cast_pow, Nat.cast_ofNat]

theorem cast_one {e : Nat} (he : e = 1074) : (one : ℚ) = 2 ^ e := by
  rw [one_eq he, Nat.pow_eq, Nat.cast_pow, Nat.cast_ofNat]

theorem isDouble_div {i : Int} {k : Nat} (hi : i.natAbs ≤ 2 ^ 53) (hk : k ≤ 1074) : IsDouble (i / 2 ^ k) := by
  obtain ⟨e, he⟩ : ∃ e, e = 1074 := ⟨_, rfl⟩
  have hplace : (i : ℚ) / 2 ^ k = i * 2 ^ (e - k) / one := by
    have hpow : (2 : ℚ) ^ e = 2 ^ (e - k) * 2 ^ k := by rw [← pow_add]; congr 1; omega
    rw [cast_one he, hpow]
    field_simp
  rw [hplace]
  refine isDouble_units hi ?_
  have hle : (e - k) * fractions ≤ 1074 * fractions := Nat.mul_le_mul_right _ (by omega)
  unfold infinityWord
  unfold fractions at hle ⊢
  omega

theorem isDouble_int {i : Int} (hi : i.natAbs ≤ 2 ^ 53) : IsDouble i := by
  simpa using isDouble_div hi (Nat.zero_le 1074)

/-- A double is not changed by rounding. -/
theorem Rounds.eq_of_isDouble (h : Rounds q x) (hq : IsDouble q) : x.value = q := by
  obtain ⟨y, hy, rfl⟩ := hq
  have hnear := h.nearest y hy
  rw [sub_self, abs_zero] at hnear
  exact sub_eq_zero.1 (abs_eq_zero.1 (le_antisymm hnear (abs_nonneg _)))

/-- Rounding moves a number by at most half a unit at a place where it has at most 53 binary digits. -/
theorem Rounds.error {k : Nat} (h : Rounds q x) (hk : k ≤ 1074) (hq : |q| ≤ 2 ^ 53 / 2 ^ k) :
    |x.value - q| ≤ 1 / 2 ^ (k + 1) := by
  have hpos : (0 : ℚ) < 2 ^ k := by positivity
  have hscaled : |q * 2 ^ k| ≤ 2 ^ 53 := by
    rw [abs_mul, abs_of_pos hpos]
    exact (le_div_iff₀ hpos).1 hq
  have hround := abs_sub_round (q * 2 ^ k)
  have hdigits : (round (q * 2 ^ k)).natAbs ≤ 2 ^ 53 := by
    rw [abs_le] at hscaled hround
    have hlow : ((-(2 ^ 53) - 1 : Int) : ℚ) < round (q * 2 ^ k) := by push_cast; linarith
    have hhigh : (round (q * 2 ^ k) : ℚ) < ((2 ^ 53 + 1 : Int) : ℚ) := by push_cast; linarith
    rw [Int.cast_lt] at hlow hhigh
    omega
  obtain ⟨y, hy, hvalue⟩ := isDouble_div hdigits hk
  calc |x.value - q| ≤ |y.value - q| := h.nearest y hy
    _ = |q * 2 ^ k - round (q * 2 ^ k)| / 2 ^ k := by
      rw [hvalue, ← abs_of_pos hpos, ← abs_div, abs_of_pos hpos, ← abs_neg]
      congr 1
      field_simp
      ring
    _ ≤ 1 / 2 / 2 ^ k := div_le_div_of_nonneg_right hround hpos.le
    _ = 1 / 2 ^ (k + 1) := by rw [pow_succ]; field_simp

/-! ## Sums and products -/

theorem isNaN_of_isFinite (hx : x.isFinite = true) : x.isNaN = false := by
  have hlt := of_decide_eq_true hx
  exact decide_eq_false (by omega)

theorem isInfinite_of_isFinite (hx : x.isFinite = true) : x.isInfinite = false := by
  have hlt := of_decide_eq_true hx
  exact decide_eq_false (by omega)

/-- A quotient of at most 1022 binary digits does not reach infinity. -/
theorem magnitudeOfRatio_lt_of_le {k : Nat} (hd : 0 < d) (hk : k ≤ 1022) (hle : n ≤ d * 2 ^ k) :
    magnitudeOfRatio n d < infinityWord := by
  rcases Nat.eq_zero_or_pos n with rfl | hn
  · rw [magnitudeOfRatio_zero]
    decide
  refine magnitudeOfRatio_lt_of_floorLog2 hd ?_
  by_contra hlarge
  have hquotient := floorLog2_le_quotient (d := d) hn
  rw [Nat.pow_eq, Nat.pow_eq, show (-floorLog2 n d).toNat = 0 by omega, Nat.pow_zero, Nat.mul_one] at hquotient
  have hpow : 2 ^ (k + 1) ≤ 2 ^ (floorLog2 n d).toNat := Nat.pow_le_pow_right (by omega) (by omega)
  have htwice : d * 2 ^ (k + 1) ≤ d * 2 ^ k := (Nat.mul_le_mul_left d hpow).trans (hquotient.trans hle)
  have hpos : 0 < d * 2 ^ k := Nat.mul_pos hd (Nat.two_pow_pos k)
  rw [Nat.pow_succ, ← Nat.mul_assoc] at htwice
  omega

/-- A number of units as a quotient. -/
theorem natAbs_le_of_abs_le {i : Int} {k : Nat} (hd : 0 < d) (h : |(i : ℚ) / d| ≤ 2 ^ k) : i.natAbs ≤ d * 2 ^ k := by
  have hd' : (0 : ℚ) < d := Nat.cast_pos.2 hd
  rw [abs_div, abs_of_pos hd', div_le_iff₀ hd', mul_comm, ← Int.cast_abs, ← Nat.cast_natAbs] at h
  exact_mod_cast h

theorem value_zero_magnitude (negative : Bool) : (ofMagnitude negative 0).value = 0 := by
  have hunits : unitsOf 0 = 0 := rfl
  rw [value_of_sign negative (by decide), hunits, Nat.cast_zero, zero_div, mul_zero]

theorem rounds_zero (negative : Bool) : Rounds 0 (ofMagnitude negative 0) := by
  have hzero := value_zero_magnitude negative
  refine ⟨isFinite_of_sign _ (by decide), fun y _ => ?_, fun y _ htie hne => absurd ?_ hne⟩
  · rw [hzero, sub_self, abs_zero]
    exact abs_nonneg _
  · rw [hzero, sub_self, abs_zero, abs_eq_zero, sub_zero] at htie
    rw [htie, hzero]

/-- **Sums are rounded correctly**, if they do not come near infinity. -/
theorem rounds_add {k : Nat} (hk : k ≤ 1022) (hx : x.isFinite = true) (hy : y.isFinite = true)
    (hle : |x.value + y.value| ≤ 2 ^ k) : Rounds (x.value + y.value) (x.add y) := by
  have hsum : x.value + y.value = ((x.units + y.units : Int) : ℚ) / one := by
    rw [value, value, Int.cast_add, add_div]
  unfold add
  simp only [isNaN_of_isFinite hx, isNaN_of_isFinite hy, isInfinite_of_isFinite hx, isInfinite_of_isFinite hy,
    Bool.or_self, Bool.false_eq_true, if_false]
  split
  · rename_i hzero
    rw [hsum, hzero, Int.cast_zero, zero_div]
    exact rounds_zero _
  · rw [hsum] at hle ⊢
    exact rounds_ofIntRatio one_pos (magnitudeOfRatio_lt_of_le one_pos hk (natAbs_le_of_abs_le one_pos hle))

theorem rounds_sub {k : Nat} (hk : k ≤ 1022) (hx : x.isFinite = true) (hy : y.isFinite = true)
    (hle : |x.value - y.value| ≤ 2 ^ k) : Rounds (x.value - y.value) (x.sub y) := by
  rw [sub_eq_add_neg, ← value_neg] at hle ⊢
  exact rounds_add hk hx (isFinite_neg hy) hle

/-- **Products are rounded correctly**, if they do not come near infinity. -/
theorem rounds_mul {k : Nat} (hk : k ≤ 1022) (hx : x.isFinite = true) (hy : y.isFinite = true)
    (hle : |x.value * y.value| ≤ 2 ^ k) : Rounds (x.value * y.value) (x.mul y) := by
  have hpos : 0 < one * one := Nat.mul_pos one_pos one_pos
  have hproduct : x.value * y.value = (if x.isNegative != y.isNegative then -1 else 1) *
      (((unitsOf x.magnitude * unitsOf y.magnitude : Nat) : ℚ) / (one * one : Nat)) := by
    rw [value_eq_sign x, value_eq_sign y, mul_mul_mul_comm, div_mul_div_comm, Nat.cast_mul, Nat.cast_mul]
    cases x.isNegative <;> cases y.isNegative <;>
      simp only [bne_self_eq_false, Bool.bne_true, Bool.bne_false, Bool.not_false, Bool.false_eq_true, ↓reduceIte, mul_neg,
        mul_one, neg_mul, one_mul, neg_neg]
  unfold mul
  simp only [isNaN_of_isFinite hx, isNaN_of_isFinite hy, isInfinite_of_isFinite hx, isInfinite_of_isFinite hy,
    Bool.or_self, Bool.false_eq_true, if_false]
  rw [hproduct] at hle ⊢
  refine rounds_ofRatio_sign _ hpos (magnitudeOfRatio_lt_of_le hpos hk ?_)
  refine natAbs_le_of_abs_le (i := (unitsOf x.magnitude * unitsOf y.magnitude : Nat)) hpos ?_
  rw [abs_mul] at hle
  have hsign : |(if x.isNegative != y.isNegative then -1 else 1 : ℚ)| = 1 := by split <;> simp
  rwa [hsign, one_mul] at hle

/-! ## Whole parts -/

/-- A finite double is a whole number of at most 53 binary digits at some place in range. -/
theorem exists_units_eq (hx : x.isFinite = true) :
    ∃ (i : Int) (p : Nat), x.units = i * 2 ^ p ∧ i.natAbs ≤ 2 ^ 53 ∧ p * fractions + i.natAbs < infinityWord := by
  have hlt : x.magnitude < infinityWord := of_decide_eq_true hx
  have hword : ∃ j p : Nat, unitsOf x.magnitude = j * 2 ^ p ∧ j ≤ 2 ^ 53 ∧ p * fractions + j = x.magnitude := by
    unfold unitsOf
    have hf : fractions = 2 ^ 52 := rfl
    rw [hf]
    split
    · exact ⟨x.magnitude, 0, by simp, by omega, by omega⟩
    · refine ⟨2 ^ 52 + x.magnitude % 2 ^ 52, x.magnitude / 2 ^ 52 - 1, by rw [Nat.pow_eq], ?_, ?_⟩ <;> omega
  obtain ⟨j, p, hunits, hj, hm⟩ := hword
  unfold units
  rw [hunits]
  cases x.isNegative with
  | false => exact ⟨j, p, by simp, by omega, by omega⟩
  | true => exact ⟨-j, p, by simp, by omega, by omega⟩

theorem isDouble_zero : IsDouble 0 := ⟨_, (rounds_zero false).isFinite, value_zero_magnitude false⟩

/-- The whole part of a double is a double, and so is what is left of it. -/
theorem isDouble_parts (hx : x.isFinite = true) :
    IsDouble (x.units.tdiv one : Int) ∧ IsDouble (x.value - (x.units.tdiv one : Int)) := by
  obtain ⟨e, he⟩ : ∃ e, e = 1074 := ⟨_, rfl⟩
  have hone : (one : ℚ) ≠ 0 := Nat.cast_ne_zero.2 (Nat.ne_of_gt one_pos)
  have hcast : ((one : Nat) : Int) = 2 ^ e := by rw [one_eq he]; simp
  obtain ⟨i, p, hunits, hi, hp⟩ := exists_units_eq hx
  rcases Nat.lt_or_ge p e with hpe | hep
  · have hsplit : (2 : Int) ^ e = 2 ^ (e - p) * 2 ^ p := by rw [← pow_add]; congr 1; omega
    have hwhole : x.units.tdiv one = i.tdiv (2 ^ (e - p)) := by
      rw [hcast, hunits, hsplit, Int.mul_tdiv_mul_of_pos_left _ _ (by positivity)]
    have hrest : x.value - (x.units.tdiv one : Int) = (i.tmod (2 ^ (e - p)) : Int) * 2 ^ p / one := by
      rw [value, hwhole, div_sub' hone, hunits, Int.tmod_def]
      congr 1
      rw [← Int.cast_natCast, hcast, hsplit]
      push_cast
      ring
    constructor
    · have hle : (i.tdiv (2 ^ (e - p))).natAbs ≤ 2 ^ 53 := (Int.natAbs_tdiv_le_natAbs _ _).trans hi
      rw [hwhole]
      exact isDouble_int hle
    · have hle : (i.tmod (2 ^ (e - p))).natAbs ≤ i.natAbs := by
        rw [Int.natAbs_tmod]
        exact Nat.mod_le _ _
      rw [hrest]
      exact isDouble_units (hle.trans hi) (by omega)
  · -- There is nothing behind the point.
    have hwhole : x.units.tdiv one * one = x.units := by
      have hdvd : ((one : Nat) : Int) ∣ x.units := by
        rw [hcast, hunits]
        exact Dvd.dvd.mul_left (pow_dvd_pow 2 hep) i
      exact Int.tdiv_mul_cancel hdvd
    have hvalue : x.value = (x.units.tdiv one : Int) := by
      rw [value, div_eq_iff hone, ← hwhole]
      push_cast
      rw [hwhole]
    exact ⟨⟨x, hx, hvalue⟩, by rw [← hvalue, sub_self]; exact isDouble_zero⟩

end PoolFeed.Binary64
