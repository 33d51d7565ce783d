import Mathlib.Tactic.Linarith
import PoolFeed.Calendar
import PoolFeed.Proofs.Binary64.Arithmetic

/-!
# Times that come back

A time in milliseconds becomes a reading in seconds, which is off by half a unit at its place. From there on hardly
anything is lost: the fraction of a reading is exact, and the microseconds are the whole number nearest to it
(`near_of_microsOfReading`). Up to `8 * 10 ^ 12` milliseconds the reading is off by less than half a microsecond, so the
time comes out exactly (`microsOfMillis_eq`). Within the years that have dates it is off by less than sixteen
microseconds, so every time with a date is read back (`millisOfMicros_of_ok`).
-/

namespace PoolFeed

namespace Binary64

/-- A number that is rounded below a double lies below it. -/
theorem Rounds.within {q b : ℚ} {x : Binary64} (h : Rounds q x) (hb : IsDouble b) (hpos : 0 < b) (hlt : |x.value| < b) :
    |q| < b := by
  obtain ⟨y, hy, rfl⟩ := hb
  obtain ⟨hlow, hhigh⟩ := abs_lt.1 hlt
  rw [abs_lt]
  constructor
  · by_contra hq
    have hnear := h.nearest y.neg (isFinite_neg hy)
    rw [value_neg, abs_of_pos (by linarith), abs_of_nonneg (by linarith)] at hnear
    linarith
  · by_contra hq
    have hnear := h.nearest y hy
    rw [abs_of_neg (by linarith), abs_of_nonpos (by linarith)] at hnear
    linarith

end Binary64

namespace Calendar

open Binary64

variable {x : Binary64} {ms micros : Int}

/-! ## Readings -/

theorem abs_roundDiv_sub_le {n d : Nat} (hd : 0 < d) : |(roundDiv n d : ℚ) - n / d| ≤ 1 / 2 := by
  have hd' : (0 : ℚ) < d := Nat.cast_pos.2 hd
  have habove : (2 : ℚ) * (d * roundDiv n d) ≤ 2 * n + d := by exact_mod_cast two_mul_roundDiv_le hd
  have hbelow : (2 : ℚ) * n ≤ 2 * (d * roundDiv n d) + d := by exact_mod_cast le_two_mul_roundDiv hd
  rw [sub_div' hd'.ne', abs_div, abs_of_pos hd', div_le_iff₀ hd', abs_le]
  constructor <;> linarith

theorem abs_nearest_sub_le (x : Binary64) : |(nearest x : ℚ) - x.value| ≤ 1 / 2 := by
  have hsize := abs_roundDiv_sub_le (n := unitsOf x.magnitude) Binary64.one_pos
  rw [value_eq_sign]
  unfold nearest
  cases x.isNegative with
  | false => simpa only [Bool.false_eq_true, ↓reduceIte, Int.cast_natCast, one_mul] using hsize
  | true =>
    rw [← abs_neg]
    simpa only [↓reduceIte, Int.cast_neg, Int.cast_natCast, neg_mul, one_mul, neg_sub_neg, neg_sub] using hsize

theorem abs_sub_tdiv_le {d : Nat} (hd : 0 < d) (i : Int) : |(i : ℚ) / d - (i.tdiv d : Int)| ≤ 1 := by
  have hd' : (0 : ℚ) < d := Nat.cast_pos.2 hd
  have hrest : (i : ℚ) / d - (i.tdiv d : Int) = (i.tmod d : Int) / d := by
    rw [div_sub' hd'.ne', Int.tmod_def]
    push_cast
    ring
  have hlt : (i.tmod d).natAbs < d := by
    rw [Int.natAbs_tmod]
    exact Nat.mod_lt _ hd
  rw [hrest, abs_div, abs_of_pos hd', div_le_one hd', ← Int.cast_abs, Int.abs_eq_natAbs]
  exact_mod_cast hlt.le

theorem abs_rest_le (x : Binary64) : |x.value - (x.units.tdiv one : Int)| ≤ 1 := abs_sub_tdiv_le Binary64.one_pos x.units

theorem natAbs_whole_le {b : Nat} (h : |x.value| ≤ b) : (x.units.tdiv one).natAbs ≤ b + 1 := by
  have hrest := abs_rest_le x
  generalize x.units.tdiv one = whole at hrest ⊢
  have hwhole : |(whole : ℚ)| ≤ b + 1 := by
    rw [abs_le] at h hrest ⊢
    constructor <;> linarith
  rw [← Int.cast_abs, Int.abs_eq_natAbs] at hwhole
  exact_mod_cast hwhole

theorem ofInt_whole {i : Int} (hi : i.natAbs ≤ 2 ^ 60) (hdouble : IsDouble i) :
    (ofInt i).isFinite = true ∧ (ofInt i).value = i := by
  have hrounds : Rounds i (ofInt i) := by
    have h := rounds_ofIntRatio (i := i) Nat.one_pos (magnitudeOfRatio_lt_of_le (k := 60) Nat.one_pos (by omega) (by omega))
    simpa [ofInt] using h
  exact ⟨hrounds.isFinite, hrounds.eq_of_isDouble hdouble⟩

/-- The fraction of a reading in millionths is off by little. -/
theorem fraction_near (hx : x.isFinite = true) (hwhole : (x.units.tdiv one).natAbs ≤ 2 ^ 60) :
    |((x.sub (ofInt (x.units.tdiv one))).mul (ofInt 1000000)).value - 1000000 * (x.value - (x.units.tdiv one : Int))| ≤
      1 / 2 ^ 34 := by
  obtain ⟨hdouble, hrest⟩ := isDouble_parts hx
  obtain ⟨hwholeFinite, hwholeValue⟩ := ofInt_whole hwhole hdouble
  have hmillion := ofInt_whole (i := 1000000) (by decide) (isDouble_int (by decide))
  have hle := abs_rest_le x
  have hsub := rounds_sub (k := 0) (by omega) hx hwholeFinite (by rw [hwholeValue, pow_zero]; exact hle)
  rw [hwholeValue] at hsub
  have hfraction := hsub.eq_of_isDouble hrest
  have hproduct : |(x.sub (ofInt (x.units.tdiv one))).value * (ofInt 1000000).value| ≤ 1000000 := by
    rw [hfraction, hmillion.2, abs_mul]
    have hpos : |((1000000 : Int) : ℚ)| = 1000000 := by norm_num
    rw [hpos]
    linarith
  have hmul := rounds_mul (k := 20) (by omega) hsub.isFinite hmillion.1 (hproduct.trans (by norm_num))
  have herror := hmul.error (k := 33) (by omega) (hproduct.trans (by norm_num))
  rw [hfraction, hmillion.2, mul_comm] at herror
  exact_mod_cast herror

/-- The microseconds of a reading are the whole number nearest to it, but for what a product with a million is off. -/
theorem near_of_microsOfReading (h : microsOfReading x = .ok micros) :
    x.isFinite = true ∧ |(micros : ℚ) - 1000000 * x.value| ≤ 1 / 2 + 1 / 2 ^ 34 := by
  unfold microsOfReading truncate? at h
  cases hx : x.isFinite with
  | false => simp [hx] at h
  | true =>
    simp only [hx, if_true] at h
    split at h
    · cases h
    split at h
    · cases h
    rename_i hsupported
    obtain rfl := Except.ok.inj h
    refine ⟨rfl, ?_⟩
    have hfraction := fraction_near hx (by omega)
    have hnearest := abs_nearest_sub_le ((x.sub (ofInt (x.units.tdiv one))).mul (ofInt 1000000))
    generalize (x.sub (ofInt (x.units.tdiv one))).mul (ofInt 1000000) = product at hfraction hnearest ⊢
    generalize x.units.tdiv one = whole at hfraction ⊢
    rw [abs_le] at hfraction hnearest ⊢
    push_cast
    constructor <;> linarith

theorem exists_microsOfReading (hx : x.isFinite = true) (hwhole : (x.units.tdiv one).natAbs ≤ 67768036191694800) :
    ∃ micros, microsOfReading x = .ok micros := by
  unfold microsOfReading truncate?
  simp only [hx, if_true]
  rw [if_neg (by omega), if_neg (by omega)]
  exact ⟨_, rfl⟩

/-! ## Milliseconds -/

theorem rounds_ofMillis (hx : (ofIntRatio ms 1000).isFinite = true) : Rounds (ms / 1000) (ofIntRatio ms 1000) := by
  have hlt : magnitudeOfRatio ms.natAbs 1000 < infinityWord := by
    have hmagnitude := of_decide_eq_true hx
    rwa [ofIntRatio, ofRatio, magnitude_ofMagnitude _ (Nat.lt_of_le_of_lt (magnitudeOfRatio_le _ _) infinityWord_lt)]
      at hmagnitude
  simpa using rounds_ofIntRatio (by omega) hlt

/-- The microseconds of a time in milliseconds are off by what its reading is, and hardly more. -/
theorem near_of_millis {k : Nat} (hk : k ≤ 1074) (hle : |(ms : ℚ) / 1000| ≤ 2 ^ 53 / 2 ^ k)
    (h : microsOfReading (ofIntRatio ms 1000) = .ok micros) :
    |(micros : ℚ) - 1000 * ms| ≤ 1 / 2 + 1 / 2 ^ 34 + 1000000 / 2 ^ (k + 1) := by
  obtain ⟨hx, hnear⟩ := near_of_microsOfReading h
  have herror := (rounds_ofMillis hx).error hk hle
  rw [abs_le] at hnear herror ⊢
  have hstep : (1000000 : ℚ) / 2 ^ (k + 1) = 1000000 * (1 / 2 ^ (k + 1)) := by rw [mul_one_div]
  rw [hstep]
  constructor <;> linarith

theorem abs_lt_of_near {i : Int} {b : Nat} {c : ℚ} (h : |(i : ℚ)| ≤ c) (hc : c < b) : |i| < b := by
  have hlt := h.trans_lt hc
  rw [← Int.cast_abs] at hlt
  exact_mod_cast hlt

/-- A year lies within its four centuries, and in the one after them at most. -/
theorem year_near (day : Int) :
    (day + 719468) / 146097 * 400 ≤ (dateOfDay day).1 ∧ (dateOfDay day).1 ≤ (day + 719468) / 146097 * 400 + 401 := by
  have hera : 0 ≤ (day + 719468) % 146097 ∧ (day + 719468) % 146097 < 146097 := by omega
  unfold dateOfDay
  dsimp only
  generalize (day + 719468) / 146097 = era
  obtain ⟨hlow, hhigh⟩ := hera
  generalize (day + 719468) % 146097 = dayOfEra at hlow hhigh ⊢
  lift dayOfEra to Nat using hlow
  rw [Int.toNat_natCast]
  have hyear : (dayOfEra - dayOfEra / 1460 + dayOfEra / 36524 - dayOfEra / 146096) / 365 ≤ 400 := by omega
  constructor <;> split <;> omega

/-- A time has the microseconds of its reading, if their year has dates. -/
theorem microsOfMillis_eq_ok_iff : microsOfMillis ms = .ok micros ↔ microsOfReading (ofIntRatio ms 1000) = .ok micros ∧
    1 ≤ (dateOfDay (micros / 1000000 / 86400)).1 ∧ (dateOfDay (micros / 1000000 / 86400)).1 ≤ 9999 := by
  unfold microsOfMillis
  cases microsOfReading (ofIntRatio ms 1000) with
  | error e => exact ⟨nofun, fun h => nomatch h.1⟩
  | ok found =>
    simp only [bind, Except.bind, Except.ok.injEq]
    split
    · rename_i hyear
      constructor
      · intro h
        obtain rfl := Except.ok.inj h
        exact ⟨rfl, hyear⟩
      · rintro ⟨rfl, -⟩
        rfl
    · rename_i hyear
      constructor
      · intro h
        cases h
      · rintro ⟨rfl, hyear'⟩
        exact absurd hyear' hyear

theorem isFinite_ofMillis (hle : ms.natAbs ≤ 1000 * 2 ^ 60) : (ofIntRatio ms 1000).isFinite = true :=
  (rounds_ofIntRatio (by omega) (magnitudeOfRatio_lt_of_le (k := 60) (by omega) (by omega) hle)).isFinite

/-- **A time of up to eight million million milliseconds has exactly its microseconds.** -/
theorem microsOfMillis_eq (hlow : 0 ≤ ms) (hhigh : ms ≤ 8000000000000) : microsOfMillis ms = .ok (1000 * ms) := by
  have hle : |(ms : ℚ) / 1000| ≤ 8000000000 := by
    have hlow' : (0 : ℚ) ≤ ms := Int.cast_nonneg hlow
    have hhigh' : (ms : ℚ) ≤ 8000000000000 := by exact_mod_cast hhigh
    rw [abs_of_nonneg (by positivity)]
    linarith
  have hx : (ofIntRatio ms 1000).isFinite = true := isFinite_ofMillis (by omega)
  have herror := (rounds_ofMillis hx).error (k := 20) (by omega) (hle.trans (by norm_num))
  have hwhole := natAbs_whole_le (x := ofIntRatio ms 1000) (b := 8000000001) (by
    rw [abs_le] at herror hle ⊢
    norm_num at herror ⊢
    constructor <;> linarith)
  obtain ⟨micros, hmicros⟩ := exists_microsOfReading hx (by omega)
  have hnear := near_of_millis (k := 20) (by omega) (hle.trans (by norm_num)) hmicros
  -- Both are whole numbers, and less than one apart.
  have hclose : |micros - 1000 * ms| < 1 := abs_lt_of_near (b := 1) (by push_cast; exact hnear) (by norm_num)
  obtain rfl : micros = 1000 * ms := by
    rw [abs_lt] at hclose
    omega
  have hyear := year_near (1000 * ms / 1000000 / 86400)
  exact microsOfMillis_eq_ok_iff.2 ⟨hmicros, by omega, by omega⟩

/-- **A time that has a date is read back.** -/
theorem millisOfMicros_of_ok (h : microsOfMillis ms = .ok micros) : millisOfMicros micros = ms := by
  obtain ⟨hmicros, hlow, hhigh⟩ := microsOfMillis_eq_ok_iff.1 h
  obtain ⟨hx, hreading⟩ := near_of_microsOfReading hmicros
  -- The years that have dates are within 2 ^ 38 seconds.
  have hyear := year_near (micros / 1000000 / 86400)
  have hmicrosLe : |(micros : ℚ)| ≤ 260000000000000000 := by
    rw [abs_le]
    constructor
    · exact_mod_cast (by omega : -260000000000000000 ≤ micros)
    · exact_mod_cast (by omega : micros ≤ 260000000000000000)
  have hvalue : |(ofIntRatio ms 1000).value| < 274877906944 := by
    rw [abs_le] at hreading hmicrosLe
    rw [abs_lt]
    norm_num at hreading ⊢
    constructor <;> linarith
  have hdouble : IsDouble 274877906944 := by exact_mod_cast isDouble_int (i := 274877906944) (by decide)
  have hle := (rounds_ofMillis hx).within hdouble (by positivity) hvalue
  have hnear := near_of_millis (k := 15) (by omega) (hle.le.trans (by norm_num)) hmicros
  have hclose : |micros - 1000 * ms| < 16 := abs_lt_of_near (b := 16) (by push_cast; exact hnear) (by norm_num)
  rw [abs_lt] at hclose
  unfold millisOfMicros
  split <;> omega

/-- No two times have their milliseconds in another order than their microseconds. -/
theorem millisOfMicros_mono {a b : Int} (h : a ≤ b) : millisOfMicros a ≤ millisOfMicros b := by
  unfold millisOfMicros
  split <;> split <;> omega

end Calendar

end PoolFeed
