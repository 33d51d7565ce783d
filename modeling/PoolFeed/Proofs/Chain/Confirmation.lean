import PoolFeed.Proofs.Binary64.Finite
import PoolFeed.Proofs.Chain.Authority
import PoolFeed.Proofs.Chain.EventBounds

/-!
# Which trades pass for confirmed

| here | there |
| --- | --- |
| `isMerged` | "True once the inner event has been merged into the draft" (`TradeEvent.confirmed`) |

A trade does not record that a payload has been merged into it: `Trade.confirmed` infers it from a price or a fee
that is not zero. No draft has one, so no draft passes for confirmed, but a payload need not bring one either.
`confirmed_iff_merged` says when the inference is right, over all that one reader returns, and
`dustSale_unconfirmed` is a sale that is executed at zero without fees.
-/

namespace PoolFeed

/-- A fee, or amounts that make a price. -/
def Trade.Telling (x : Trade) : Prop := x.lpFee ≠ 0 ∨ x.protocolFee ≠ 0 ∨ 0 < x.tokenAmount ∧ 0 < x.solAmount

instance (x : Trade) : Decidable x.Telling := inferInstanceAs (Decidable (_ ∨ _))

namespace Chain.Swaps

/-- A payload has been merged into the event of a transaction. -/
def isMerged (d : Swaps) (t : Transaction) : Bool := (d.source? t).isSome

/-! ## One trade -/

/-- A price is zero only where an amount is: what fits a field does not round a quotient down to zero. -/
theorem isZero_executedPrice {tokens quote : Int} (h : quote.natAbs < Bytes.span 8) :
    (executedPrice tokens quote).isZero = !decide (0 < tokens ∧ 0 < quote) := by
  rw [executedPrice]
  split
  · rename_i hpos
    have hlog : quote.natAbs.log2 < 64 := (Nat.log2_lt (by omega)).2 (by simpa [Bytes.span] using h)
    rw [Binary64.isZero_ofRatio false (by omega) (by omega), decide_eq_true hpos, Bool.not_true]
  · rename_i hzero
    rw [decide_eq_false hzero]
    rfl

theorem confirmed_draftTrade (t : Transaction) (p : Parties) (ms : Int) (side : Side) (args : Record) :
    (draftTrade t p ms side args).confirmed = false := by
  cases side <;> rfl

theorem confirmed_mergeTrade {draft : Trade} {r : Record}
    (h : (mergeTrade draft (some r)).solAmount.natAbs < Bytes.span 8) :
    (mergeTrade draft (some r)).confirmed ↔ (mergeTrade draft (some r)).Telling := by
  have hprice : (executedPrice draft.tokenAmount (mergeTrade draft (some r)).solAmount).isZero = _ :=
    isZero_executedPrice h
  simp only [mergeTrade] at hprice
  simp only [Trade.confirmed, mergeTrade, Trade.Telling, hprice]
  grind

/-! ## One transaction -/

/-- A record is found exactly if some inner instruction carries one. -/
theorem isSome_findRecord (call : Call) (inner : List Instruction) :
    (findRecord call.eventTag call.event inner).2.isSome =
      (inner.find? (Carries call.eventTag call.event.size ·)).isSome := by
  rw [findRecord_snd (length_eventTag call)]
  cases hfind : inner.find? (Carries call.eventTag call.event.size ·) with
  | none => rfl
  | some e =>
    have hc : Carries call.eventTag call.event.size e := by simpa using List.find?_some hfind
    obtain ⟨r, hr⟩ := Layout.exists_parse hc.2
    rw [Option.bind_some, hr]
    rfl

/-- A transaction gives no trade and is not counted as one, or its trade is the draft with the record of its source
merged in, and is counted if there is none. -/
theorem read_cases (d : Swaps) (now : Except ClockError Int) (t : Transaction) :
    (∀ x, (d.read now t).1 ≠ some (.trade x)) ∧ (d.read now t).2.1.unconfirmed = d.unconfirmed ∨
    ∃ p ms side args record, (d.read now t).1 = some (.trade (mergeTrade (draftTrade t p ms side args) record)) ∧
      record.isSome = (d.source? t).isSome ∧
      (d.read now t).2.1.unconfirmed = d.unconfirmed + record.isNone.toNat := by
  have silent (x : Trade) : (none : Option Event) ≠ some (.trade x) := by simp
  simp only [read, source?, drafted?]
  cases hcall : firstCall (t.callsTo d.program) with
  | none => exact .inl ⟨silent, rfl⟩
  | some found =>
    obtain ⟨position, ix, call⟩ := found
    simp only [scan]
    split
    · exact .inl ⟨silent, rfl⟩
    cases parties t ix call with
    | error e => exact .inl ⟨silent, rfl⟩
    | ok named =>
      cases named with
      | none => exact .inl ⟨silent, rfl⟩
      | some p =>
        cases now with
        | error e => exact .inl ⟨silent, rfl⟩
        | ok ms =>
          cases call with
          | createPool => exact .inl ⟨fun _ h => (by cases h), rfl⟩
          | trade side =>
            exact .inr ⟨p, ms, side, _, _, rfl, isSome_findRecord (.trade side) (t.innerOf position), rfl⟩

/-- A trade passes for confirmed if a payload has been merged into it that shows. -/
theorem confirmed_of_read {d : Swaps} {now : Except ClockError Int} {t : Transaction} {x : Trade}
    (h : (d.read now t).1 = some (.trade x)) : x.confirmed ↔ d.isMerged t ∧ x.Telling := by
  have hamounts := (amounts_of_trade h).2
  obtain ⟨hnone, -⟩ | ⟨p, ms, side, args, record, hread, hsource, -⟩ := read_cases d now t
  · exact absurd h (hnone x)
  rw [hread] at h
  obtain rfl : _ = x := by simpa using h
  rw [isMerged, ← hsource]
  cases record with
  | none => simp [mergeTrade, confirmed_draftTrade]
  | some r => simpa using confirmed_mergeTrade hamounts

theorem unconfirmed_of_read {d : Swaps} {now : Except ClockError Int} {t : Transaction} {x : Trade}
    (h : (d.read now t).1 = some (.trade x)) :
    (d.read now t).2.1.unconfirmed = d.unconfirmed + (!d.isMerged t).toNat := by
  obtain ⟨hnone, -⟩ | ⟨p, ms, side, args, record, -, hsource, hcount⟩ := read_cases d now t
  · exact absurd h (hnone x)
  · rw [hcount, isMerged, ← hsource, Option.not_isSome]

theorem program_read (d : Swaps) (now : Except ClockError Int) (t : Transaction) :
    (d.read now t).2.1.program = d.program := by
  rw [read]
  split <;> rfl

theorem isMerged_congr {d d' : Swaps} (h : d.program = d'.program) (t : Transaction) : d.isMerged t = d'.isMerged t := by
  simp only [isMerged, source?, drafted?, h]

/-! ## All that one reader returns -/

/-- The reader after some transactions, each read at a time of its own. -/
def after (d : Swaps) (input : List (Except ClockError Int × Transaction)) : Swaps :=
  input.foldl (fun d (now, t) => (d.read now t).2.1) d

/-- The trades that the reader returns for some transactions, each with its transaction. -/
def trades (d : Swaps) : List (Except ClockError Int × Transaction) → List (Transaction × Trade)
  | [] => []
  | (now, t) :: rest =>
    match (d.read now t).1 with
    | some (.trade x) => (t, x) :: trades (d.read now t).2.1 rest
    | _ => trades (d.read now t).2.1 rest

theorem confirmed_of_mem_trades {y : Transaction × Trade} :
    ∀ {input : List (Except ClockError Int × Transaction)} {d : Swaps}, y ∈ d.trades input →
      (y.2.confirmed ↔ d.isMerged y.1 ∧ y.2.Telling)
  | [], _, h => by cases h
  | (now, t) :: rest, d, h => by
    rw [isMerged_congr (program_read d now t).symm y.1]
    rw [trades] at h
    split at h
    · rename_i x hx
      obtain rfl | h := List.mem_cons.1 h
      · rw [isMerged_congr (program_read d now t) t]
        exact confirmed_of_read hx
      · exact confirmed_of_mem_trades h
    · exact confirmed_of_mem_trades h

theorem unconfirmed_after : ∀ (input : List (Except ClockError Int × Transaction)) (d : Swaps),
    (d.after input).unconfirmed = d.unconfirmed + (d.trades input).countP (!d.isMerged ·.1)
  | [], _ => rfl
  | (now, t) :: rest, d => by
    have ih := unconfirmed_after rest (d.read now t).2.1
    have hsame : (fun y : Transaction × Trade => !(d.read now t).2.1.isMerged y.1) = (!d.isMerged ·.1) :=
      funext fun y => by rw [isMerged_congr (program_read d now t) y.1]
    rw [hsame] at ih
    rw [after, List.foldl_cons, ← after, ih, trades]
    split
    · rename_i x hx
      rw [unconfirmed_of_read hx, List.countP_cons]
      cases d.isMerged t with
      | true => simp
      | false =>
        simp
        omega
    · rename_i hno
      obtain ⟨-, hcount⟩ | ⟨p, ms, side, args, record, hread, -⟩ := read_cases d now t
      · rw [hcount]
      · exact absurd hread (hno _)

/-- A test that accepts no more than another accepts as many only if it accepts the same. -/
theorem countP_eq_iff {α : Type} {p q : α → Bool} {l : List α} (h : ∀ a ∈ l, p a → q a) :
    l.countP p = l.countP q ↔ ∀ a ∈ l, q a → p a := by
  induction l with
  | nil => simp
  | cons a l ih =>
    have ha := h a List.mem_cons_self
    have hl := fun b hb => h b (List.mem_cons_of_mem a hb)
    have hle : l.countP p ≤ l.countP q := List.countP_mono_left hl
    rw [List.forall_mem_cons, ← ih hl, List.countP_cons, List.countP_cons]
    cases hp : p a <;> cases hq : q a <;> simp [hp, hq] at ha ⊢
    omega

/-- **A trade passes for confirmed exactly if a payload that shows has been merged into it.** So the flags are right
over all that a reader returns, and the unconfirmed trades are counted right, exactly if no payload that is merged
leaves the fees and an amount at zero. -/
theorem confirmed_iff_merged (d : Swaps) (input : List (Except ClockError Int × Transaction)) :
    let trades := d.trades input
    let telling := ∀ y ∈ trades, d.isMerged y.1 → y.2.Telling
    (∀ y ∈ trades, (y.2.confirmed ↔ d.isMerged y.1 ∧ y.2.Telling)) ∧
    (d.after input).unconfirmed = d.unconfirmed + trades.countP (!d.isMerged ·.1) ∧
    ((∀ y ∈ trades, y.2.confirmed = d.isMerged y.1) ↔ telling) ∧
    ((d.after input).unconfirmed = d.unconfirmed + trades.countP (!·.2.confirmed) ↔ telling) := by
  have hflag (y) (hy : y ∈ d.trades input) := confirmed_of_mem_trades hy
  have hcount := unconfirmed_after input d
  have hless : ∀ y ∈ d.trades input, (!d.isMerged y.1) → !y.2.confirmed := by
    intro y hy hm
    have := hflag y hy
    grind
  refine ⟨hflag, hcount, ?_, ?_⟩
  · constructor
    · intro h y hy hm
      exact ((hflag y hy).1 (by rw [h y hy, hm])).2
    · intro h y hy
      rw [Bool.eq_iff_iff, hflag y hy]
      exact and_iff_left_of_imp (h y hy)
  · rw [hcount, Nat.add_left_cancel_iff, countP_eq_iff hless]
    refine forall₂_congr fun y hy => ?_
    have := hflag y hy
    grind

/-- A sale of one token that is executed at nothing and without fees, as its program reports it. -/
def dustSale : Transaction where
  signature := [7]
  slot := 5
  keys := ["pool", "user", "base", "quote", "amm"]
  instructions := [⟨4, sellCall ++ Bytes.ofLeNat 8 1 ++ Bytes.ofLeNat 8 0, [0, 1, 1, 2, 3]⟩]
  inner := [(0, [⟨4, sellEventTag ++ List.replicate 112 0, []⟩])]

/-- The report is merged into the sale, which does not pass for confirmed, nor is it counted as unconfirmed. -/
theorem dustSale_unconfirmed :
    ∃ x, trades { program := "amm" } [(.ok 1700000000000, dustSale)] = [(dustSale, x)] ∧
      isMerged { program := "amm" } dustSale ∧ x.confirmed = false ∧
      (after { program := "amm" } [(.ok 1700000000000, dustSale)]).unconfirmed = 0 := by
  refine ⟨⟨"8", 5, 1700000000000, .sell, "pool", "user", "base", "quote", 1, 0, 0, 0, 0, Binary64.zero⟩, ?_⟩
  decide +kernel

end Chain.Swaps

end PoolFeed
