import PoolFeed.Chain.Swaps
import PoolFeed.Proofs.Layout.Offsets

/-!
# What the numbers of an event can be

The amounts of a trade come from unsigned fields of eight bytes, whether the program's own event has filled
them in or not, and the decimals of a pool creation from single bytes or the defaults.
-/

namespace PoolFeed

theorem Bytes.natAt_lt (b : Bytes) (offset width : Nat) : b.natAt offset width < span width := by
  have hlen : (b.slice offset width).length ≤ width := by
    rw [slice, List.length_take]
    exact Nat.min_le_left _ _
  exact Nat.lt_of_lt_of_le (leNat_lt _) (Nat.pow_le_pow_right (by omega) hlen)

namespace Chain

theorem parse_of_findRecord {tag : Bytes} {layout : Layout} {r : Record} :
    ∀ {ixs : List Instruction}, (findRecord tag layout ixs).2 = some r → ∃ b, layout.parse? b = some r
  | [], h => by cases h
  | ix :: rest, h => by
    rw [findRecord] at h
    split at h
    · exact parse_of_findRecord h
    · split at h
      · exact parse_of_findRecord h
      · exact ⟨ix.data, h⟩

namespace Swaps

variable {d : Swaps} {now : Except ClockError Int} {t : Transaction}

/-- An event that is read has been drafted and filled in. -/
theorem merged_of_read {ev : Event} (h : (d.read now t).1 = some ev) : ∃ position call p ms b,
    (merged t position call p ms ((call.args.parse? b).getD [])).event = some ev := by
  simp only [read] at h
  split at h
  · cases h
  · rename_i position ix call _
    simp only [scan] at h
    split at h
    · cases h
    · split at h
      · cases h
      · cases h
      · split at h
        · cases h
        · rename_i p _ _ ms
          exact ⟨position, call, p, ms, ix.data.drop 8, h⟩

/-- A number in an unsigned field is not negative, and its width bounds it. -/
theorem number_bounds {layout : Layout} {r : Record} {b : Bytes} {name : String} {width : Nat}
    (hp : layout.parse? b = some r) (hf : (layout.field? name).map Prod.snd = some (.unsigned width)) :
    0 ≤ r.number name ∧ (r.number name).natAbs < Bytes.span width := by
  obtain ⟨⟨offset, type⟩, hfield, rfl⟩ := Option.map_eq_some_iff.1 hf
  rw [Layout.parse_number_unsigned hp hfield, Int.natAbs_natCast]
  exact ⟨Int.natCast_nonneg _, b.natAt_lt offset width⟩

theorem number_args_lt {layout : Layout} (b : Bytes) {name : String}
    (hf : (layout.field? name).map Prod.snd = some (.unsigned 8)) :
    (((layout.parse? b).getD []).number name).natAbs < Bytes.span 8 := by
  cases hp : layout.parse? b with
  | none => exact Nat.pow_pos (by decide)
  | some r => exact (number_bounds hp hf).2

theorem draftTrade_amounts (t : Transaction) (p : Parties) (ms : Int) (side : Side) (b : Bytes) :
    (draftTrade t p ms side (((Call.args (.trade side)).parse? b).getD [])).tokenAmount.natAbs < Bytes.span 8 ∧
      (draftTrade t p ms side (((Call.args (.trade side)).parse? b).getD [])).solAmount.natAbs < Bytes.span 8 := by
  cases side with
  | buy => exact ⟨number_args_lt b rfl, number_args_lt b rfl⟩
  | sell => exact ⟨number_args_lt b rfl, number_args_lt b rfl⟩

theorem amounts_of_trade {e : Trade} (h : (d.read now t).1 = some (.trade e)) :
    e.tokenAmount.natAbs < Bytes.span 8 ∧ e.solAmount.natAbs < Bytes.span 8 := by
  obtain ⟨position, call, p, ms, b, h⟩ := merged_of_read h
  cases call with
  | createPool => simp [merged] at h
  | trade side =>
    have hdraft := draftTrade_amounts t p ms side b
    simp only [merged, Option.some.injEq, Event.trade.injEq] at h
    subst h
    cases hr : (findRecord (Call.eventTag (.trade side)) (Call.event (.trade side)) (t.innerOf position)).2 with
    | none => exact hdraft
    | some r =>
      obtain ⟨b', hb'⟩ := parse_of_findRecord hr
      have hsol : (r.number "user_quote_amount").natAbs < Bytes.span 8 := (number_bounds hb' rfl).2
      exact ⟨hdraft.1, hsol⟩

theorem decimals_of_poolCreation {c : PoolCreation} (h : (d.read now t).1 = some (.poolCreation c)) :
    0 ≤ c.baseDecimals ∧ 0 ≤ c.quoteDecimals := by
  obtain ⟨position, call, p, ms, b, h⟩ := merged_of_read h
  cases call with
  | trade side => simp [merged] at h
  | createPool =>
    simp only [merged, Option.some.injEq, Event.poolCreation.injEq] at h
    subst h
    cases hr : (findRecord (Call.eventTag .createPool) (Call.event .createPool) (t.innerOf position)).2 with
    | none => exact ⟨Int.natCast_nonneg 6, Int.natCast_nonneg 9⟩
    | some r =>
      obtain ⟨b', hb'⟩ := parse_of_findRecord hr
      exact ⟨(number_bounds hb' rfl).1, (number_bounds hb' rfl).1⟩

end Swaps

end Chain

end PoolFeed
