import PoolFeed.Proofs.Binary64.Rounding
import PoolFeed.Proofs.Scaling
import PoolFeed.Registry

/-!
# Trade lines at every scale

| here | there |
| --- | --- |
| `Normalizes` | "scale raw amounts by the pool's decimals; price is quote per base" (`TransactionProcessor.normalize`) |

An amount of eight bytes has at most 64 binary digits, and `10 ^ 255` has 848. So a scaled amount stays far above the
least normal double, and the quotient of two of them far below the largest: `ofTrade_normalizes` says that every trade
has a line, whose amounts and price are the correctly rounded quotients and vanish only if an amount is zero.
-/

namespace PoolFeed

namespace Binary64

/-- A positive number, with its leading binary digit between two places above the unit. -/
structure Leads (low high : Nat) (x : Binary64) : Prop where
  isFinite : x.isFinite = true
  isNegative : x.isNegative = false
  pos : 0 < unitsOf x.magnitude
  low_le : low ≤ (unitsOf x.magnitude).log2
  le_high : (unitsOf x.magnitude).log2 ≤ high

theorem Leads.value_pos {low high : Nat} {x : Binary64} (h : Leads low high x) : 0 < x.value := by
  rw [value_eq h.isNegative]
  exact div_pos (Nat.cast_pos.2 h.pos) (Nat.cast_pos.2 one_pos)

theorem isPositive_of_leads {low high : Nat} {x : Binary64} (h : Leads low high x) : x.isPositive = true := by
  have hlt := of_decide_eq_true h.isFinite
  have hnan : x.isNaN = false := decide_eq_false (by omega)
  have hzero : x.isZero = false := by
    refine decide_eq_false fun hzero => ?_
    have hpos := h.pos
    rw [hzero] at hpos
    exact absurd hpos (by decide)
  simp [isPositive, hnan, hzero, h.isNegative]

theorem value_zero : zero.value = 0 := by
  have hunits : zero.units = 0 := by decide
  rw [value, hunits, Int.cast_zero, zero_div]

variable {n d low high : Nat}

/-- A quotient in range leads between its places, and is rounded correctly. -/
theorem leads_ofRatio (hn : 0 < n) (hd : 0 < d) (hlow : -1021 ≤ floorLog2 n d) (hhigh : floorLog2 n d < 1023)
    (hl : (low : Int) ≤ floorLog2 n d + 1074) (hh : floorLog2 n d + 1075 ≤ high) :
    Leads low high (ofRatio false n d) := by
  have hlt := magnitudeOfRatio_lt_of_floorLog2 hd hhigh
  have hsign : infinityWord < signWord := by decide
  have hmagnitude : (ofRatio false n d).magnitude = magnitudeOfRatio n d :=
    magnitude_ofMagnitude false (Nat.lt_trans hlt hsign)
  have hlog := log2_unitsOf hn hd hlow hhigh
  refine ⟨(rounds_ofRatio hd hlt).isFinite, isNegative_ofMagnitude (Nat.lt_trans hlt hsign), ?_, ?_, ?_⟩ <;>
    rw [hmagnitude]
  · rcases Nat.eq_zero_or_pos (unitsOf (magnitudeOfRatio n d)) with hzero | hpos
    · rw [hzero, Nat.log2_zero] at hlog
      omega
    · exact hpos
  · omega
  · omega

/-- The quotient of two numbers that lead in range does so too. -/
theorem div_of_leads {x y : Binary64} {lowx highx lowy highy : Nat} (hx : Leads lowx highx x) (hy : Leads lowy highy y)
    (hlow : highy ≤ lowx + 1020) (hhigh : highx < lowy + 1023) :
    ∃ z, x.div? y = some z ∧ Rounds (x.value / y.value) z ∧ 0 < z.value := by
  have hfloor := floorLog2_le_sub (unitsOf x.magnitude) (unitsOf y.magnitude)
  have hfloor' := sub_le_floorLog2 (unitsOf x.magnitude) (unitsOf y.magnitude)
  have hxlow := hx.low_le
  have hxhigh := hx.le_high
  have hylow := hy.low_le
  have hyhigh := hy.le_high
  have hbounds : -1021 ≤ floorLog2 (unitsOf x.magnitude) (unitsOf y.magnitude) ∧
      floorLog2 (unitsOf x.magnitude) (unitsOf y.magnitude) < 1023 := by omega
  have hlt := magnitudeOfRatio_lt_of_floorLog2 hy.pos hbounds.2
  obtain ⟨hdiv, hrounds⟩ := rounds_div hx.isFinite hx.isNegative hy.isFinite hy.isNegative hy.pos hlt
  have hleads : Leads 0 2098 (ofRatio false (unitsOf x.magnitude) (unitsOf y.magnitude)) :=
    leads_ofRatio hx.pos hy.pos hbounds.1 hbounds.2 (by omega) (by omega)
  exact ⟨_, hdiv, hrounds, hleads.value_pos⟩

end Binary64

open Binary64 (Rounds Leads)

namespace TradeLine

/-! ## Amounts -/

variable {amount decimals : Int}

/-- The double of an amount that is not negative in units of `10 ^ decimals`. -/
def scaled (amount decimals : Int) : Binary64 := Binary64.ofRatio false amount.natAbs (Nat.pow 10 decimals.toNat)

/-- An amount of eight bytes is scaled by its correctly rounded quotient. -/
theorem scale_rounds (ha : 0 ≤ amount) (hlt : amount < Bytes.span 8) (hd : 0 ≤ decimals) :
    scale amount decimals = .ok (scaled amount decimals) ∧
    Rounds (amount / 10 ^ decimals.toNat) (scaled amount decimals) := by
  have hpow : 0 < Nat.pow 10 decimals.toNat := Nat.pow_pos (by decide)
  have hsmall : amount.natAbs < Bytes.span 8 := by omega
  have hsign : Binary64.ofIntRatio amount (Nat.pow 10 decimals.toNat) = scaled amount decimals := by
    rw [Binary64.ofIntRatio, decide_eq_false (by omega), scaled]
  have hlog : Binary64.floorLog2 amount.natAbs (Nat.pow 10 decimals.toNat) < 1023 := by
    have hle := Binary64.floorLog2_le amount.natAbs (Nat.pow 10 decimals.toNat)
    have hlog := log2_lt_of_lt_span hsmall
    omega
  have hrounds := Binary64.rounds_ofRatio hpow (Binary64.magnitudeOfRatio_lt_of_floorLog2 hpow hlog)
  have hvalue : ((amount.natAbs : ℚ) / (Nat.pow 10 decimals.toNat : Nat)) = amount / 10 ^ decimals.toNat := by
    rw [Nat.pow_eq, Nat.cast_pow, Nat.cast_natAbs, abs_of_nonneg ha]
    rfl
  rw [hvalue, ← scaled] at hrounds
  refine ⟨?_, hrounds⟩
  rw [scale, if_pos hd, quotient, hsign]
  simp only [hrounds.isFinite, if_true]

/-- Three decimal digits have ten binary digits at most. -/
theorem pow_ten_le {d k : Nat} (hd : d ≤ 3 * k) : Nat.pow 10 d ≤ Nat.pow 2 (10 * k) := by
  simp only [Nat.pow_eq]
  calc 10 ^ d ≤ 10 ^ (3 * k) := Nat.pow_le_pow_right (by decide) hd
    _ = 1000 ^ k := Nat.pow_mul 10 3 k
    _ ≤ 1024 ^ k := Nat.pow_le_pow_left (by decide) k
    _ = 2 ^ (10 * k) := (Nat.pow_mul 2 10 k).symm

/-- A positive amount stays positive: it loses at most the digits of the power of ten. -/
theorem scaled_leads {k : Nat} (ha : 0 < amount) (hlt : amount < Bytes.span 8) (hd : decimals ≤ (3 * k : Nat))
    (hk : k ≤ 100) : Leads (1073 - 10 * k) 1138 (scaled amount decimals) := by
  have hpow : 0 < Nat.pow 10 decimals.toNat := Nat.pow_pos (by decide)
  have hsmall : amount.natAbs < Bytes.span 8 := by omega
  have hlog := log2_lt_of_lt_span hsmall
  have hten : Nat.pow 10 decimals.toNat ≤ Nat.pow 2 (10 * k) := pow_ten_le (by omega)
  have hdlog : (Nat.pow 10 decimals.toNat).log2 < 10 * k + 1 := by
    rw [Nat.log2_lt (Nat.ne_of_gt hpow), Nat.pow_succ]
    rw [show Nat.pow 2 (10 * k) = 2 ^ (10 * k) from rfl] at hten
    omega
  have hle := Binary64.floorLog2_le amount.natAbs (Nat.pow 10 decimals.toNat)
  have hge := Binary64.le_floorLog2 amount.natAbs (Nat.pow 10 decimals.toNat)
  exact Binary64.leads_ofRatio (by omega) hpow (by omega) (by omega) (by omega) (by omega)

theorem scaled_zero (decimals : Int) : scaled 0 decimals = Binary64.zero := by
  rw [scaled, Binary64.ofRatio, Int.natAbs_zero, Binary64.magnitudeOfRatio_zero]
  rfl

/-- A scaled amount is positive if the amount is. -/
theorem scaled_pos_iff {k : Nat} (ha : 0 ≤ amount) (hlt : amount < Bytes.span 8) (hd : decimals ≤ (3 * k : Nat))
    (hk : k ≤ 100) : 0 < (scaled amount decimals).value ↔ 0 < amount := by
  rcases eq_or_lt_of_le ha with rfl | hpos
  · rw [scaled_zero, Binary64.value_zero]
    simp
  · exact iff_of_true (scaled_leads hpos hlt hd hk).value_pos hpos

/-! ## Prices -/

variable {base quote : Binary64} {low high low' high' : Nat}

theorem priceOf_of_leads (hb : Leads low high base) (hq : Leads low' high' quote) (hlow : high ≤ low' + 1020)
    (hhigh : high' < low + 1023) :
    Rounds (quote.value / base.value) (priceOf base quote) ∧ 0 < (priceOf base quote).value := by
  obtain ⟨z, hdiv, hrounds, hpos⟩ := Binary64.div_of_leads hq hb hlow hhigh
  rw [priceOf, if_pos (Binary64.isPositive_of_leads hb), hdiv, Option.getD_some]
  exact ⟨hrounds, hpos⟩

theorem priceOf_zero_base (quote : Binary64) : priceOf Binary64.zero quote = Binary64.zero := by
  have hzero : Binary64.zero.isPositive = false := by decide
  simp [priceOf, hzero]

theorem priceOf_zero_quote (hb : Leads low high base) : priceOf base Binary64.zero = Binary64.zero := by
  have hunits : Binary64.unitsOf Binary64.zero.magnitude = 0 := by decide
  have hlt : Binary64.magnitudeOfRatio (Binary64.unitsOf Binary64.zero.magnitude)
      (Binary64.unitsOf base.magnitude) < Binary64.infinityWord := by
    rw [hunits, Binary64.magnitudeOfRatio_zero]
    decide
  have hdiv := (Binary64.rounds_div (by decide) (by decide) hb.isFinite hb.isNegative hb.pos hlt).1
  rw [priceOf, if_pos (Binary64.isPositive_of_leads hb), hdiv, hunits, Option.getD_some, Binary64.ofRatio,
    Binary64.magnitudeOfRatio_zero]
  rfl

/-! ## Lines -/

/-- What the line of a trade should say: the amounts and the price are correctly rounded quotients, and none of them
vanishes unless an amount is zero. -/
structure Normalizes (e : Trade) (s : Scale) (line : TradeLine) : Prop where
  base : Rounds (e.tokenAmount / 10 ^ s.base.toNat) line.baseAmount
  quote : Rounds (e.solAmount / 10 ^ s.quote.toNat) line.quoteAmount
  base_pos_iff : 0 < line.baseAmount.value ↔ 0 < e.tokenAmount
  quote_pos_iff : 0 < line.quoteAmount.value ↔ 0 < e.solAmount
  price_isFinite : line.price.isFinite = true
  price_zero_iff : line.price.value = 0 ↔ e.tokenAmount = 0 ∨ e.solAmount = 0
  price : e.tokenAmount ≠ 0 → e.solAmount ≠ 0 → Rounds (line.quoteAmount.value / line.baseAmount.value) line.price

/-- **Every trade has a line, and nothing in it overflows or vanishes**, whatever the decimals of its pool are: amounts
and price are the correctly rounded quotients. -/
theorem ofTrade_normalizes (r : Registry) (e : Trade) (htokens : 0 ≤ e.tokenAmount ∧ e.tokenAmount < Bytes.span 8)
    (hsol : 0 ≤ e.solAmount ∧ e.solAmount < Bytes.span 8)
    (hbase : 0 ≤ (r.decimalsOf e.pool).base ∧ (r.decimalsOf e.pool).base ≤ 255)
    (hquote : 0 ≤ (r.decimalsOf e.pool).quote ∧ (r.decimalsOf e.pool).quote ≤ 18) :
    ∃ line, ofTrade e (r.decimalsOf e.pool).base (r.decimalsOf e.pool).quote = .ok line ∧
      Normalizes e (r.decimalsOf e.pool) line := by
  generalize r.decimalsOf e.pool = s at hbase hquote ⊢
  have hbase' : s.base ≤ (3 * 85 : Nat) := hbase.2
  have hquote' : s.quote ≤ (3 * 6 : Nat) := hquote.2
  obtain ⟨hscale, hrounds⟩ := scale_rounds htokens.1 htokens.2 hbase.1
  obtain ⟨hscale', hrounds'⟩ := scale_rounds hsol.1 hsol.2 hquote.1
  have hpos := scaled_pos_iff htokens.1 htokens.2 hbase' (by decide)
  have hpos' := scaled_pos_iff hsol.1 hsol.2 hquote' (by decide)
  refine ⟨⟨e.signature, e.side, priceOf (scaled e.tokenAmount s.base) (scaled e.solAmount s.quote),
    scaled e.tokenAmount s.base, scaled e.solAmount s.quote, e.timestamp, e.user⟩, ?_, ?_⟩
  · rw [ofTrade, hscale, hscale']
    rfl
  by_cases hzero : e.tokenAmount = 0 ∨ e.solAmount = 0
  · have hprice : priceOf (scaled e.tokenAmount s.base) (scaled e.solAmount s.quote) = Binary64.zero := by
      rcases eq_or_lt_of_le htokens.1 with hnone | htokens'
      · rw [← hnone, scaled_zero, priceOf_zero_base]
      · have hnone := hzero.resolve_left htokens'.ne'
        rw [hnone, scaled_zero, priceOf_zero_quote (scaled_leads htokens' htokens.2 hbase' (by decide))]
    refine ⟨hrounds, hrounds', hpos, hpos', ?_, ?_, fun h h' => absurd hzero (not_or.2 ⟨h, h'⟩)⟩
    · rw [hprice]
      exact show Binary64.zero.isFinite = true by decide
    · rw [hprice]
      exact iff_of_true Binary64.value_zero hzero
  · obtain ⟨htokens', hsol'⟩ := not_or.1 hzero
    have hleads := scaled_leads (lt_of_le_of_ne htokens.1 (Ne.symm htokens')) htokens.2 hbase' (by decide)
    have hleads' := scaled_leads (lt_of_le_of_ne hsol.1 (Ne.symm hsol')) hsol.2 hquote' (by decide)
    obtain ⟨hprice, hvalue⟩ := priceOf_of_leads hleads hleads' (by decide) (by decide)
    exact ⟨hrounds, hrounds', hpos, hpos', hprice.isFinite, iff_of_false hvalue.ne' hzero, fun _ _ => hprice⟩

/-- A trade of the least amount of a token against the largest sum. -/
def dustTrade : Trade where
  signature := "dust"
  slot := 1
  timestamp := 1700000000000
  side := .sell
  pool := "P"
  user := "U"
  baseMint := "B"
  quoteMint := "Q"
  tokenAmount := 1
  solAmount := 18446744073709551615
  limitSolAmount := 0

/-- The pool of the trade has the most decimals that a byte can say, and its quote has none. -/
def finestPool : Registry := { quote := 0, pools := [("P", ⟨255, 0⟩)] }

theorem normalizes_dust : (0 ≤ dustTrade.tokenAmount ∧ dustTrade.tokenAmount < Bytes.span 8) ∧
    (0 ≤ dustTrade.solAmount ∧ dustTrade.solAmount < Bytes.span 8) ∧ finestPool.decimalsOf dustTrade.pool = ⟨255, 0⟩ ∧
    ∃ line, ofTrade dustTrade 255 0 = .ok line ∧ Normalizes dustTrade ⟨255, 0⟩ line :=
  ⟨by decide, by decide, rfl, ofTrade_normalizes finestPool dustTrade (by decide) (by decide) (by decide) (by decide)⟩

end TradeLine

end PoolFeed
