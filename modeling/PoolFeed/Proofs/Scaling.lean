import PoolFeed.Bytes
import PoolFeed.Proofs.Binary64.Finite
import PoolFeed.TradeLine

/-!
# Amounts that can be scaled

An amount can be scaled by any decimals that are not negative. Of negative decimals the power of ten may
itself be zero as a double, and then there is no quotient.
-/

namespace PoolFeed.TradeLine

/-- A number of eight bytes has at most 64 binary digits. -/
theorem log2_lt_of_lt_span {n : Nat} (h : n < Bytes.span 8) : n.log2 < 64 := by
  by_cases hzero : n = 0
  · rw [hzero]
    decide
  · exact (Nat.log2_lt hzero).2 h

theorem scale_of_nonneg {amount decimals : Int} (ha : amount.natAbs < Bytes.span 8) (hd : 0 ≤ decimals) :
    ∃ x, scale amount decimals = .ok x := by
  have hpow : 0 < Nat.pow 10 decimals.toNat := Nat.pow_pos (by decide)
  have hlog : amount.natAbs.log2 < 1023 := Nat.lt_trans (log2_lt_of_lt_span ha) (by decide)
  refine ⟨Binary64.ofIntRatio amount (Nat.pow 10 decimals.toNat), ?_⟩
  simp only [scale, hd, if_true, quotient, Binary64.isFinite_ofIntRatio hpow hlog]

/-- A trade of eight-byte amounts has a line under decimals that are not negative. -/
theorem ofTrade_of_nonneg {t : Trade} {base quote : Int} (htokens : t.tokenAmount.natAbs < Bytes.span 8)
    (hsol : t.solAmount.natAbs < Bytes.span 8) (hbase : 0 ≤ base) (hquote : 0 ≤ quote) :
    ∃ line, ofTrade t base quote = .ok line := by
  obtain ⟨x, hx⟩ := scale_of_nonneg htokens hbase
  obtain ⟨y, hy⟩ := scale_of_nonneg hsol hquote
  refine ⟨⟨t.signature, t.side, priceOf x y, x, y, t.timestamp, t.user⟩, ?_⟩
  rw [ofTrade, hx, hy]
  rfl

end PoolFeed.TradeLine
