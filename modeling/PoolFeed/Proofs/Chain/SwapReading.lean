import PoolFeed.Chain.Swaps
import PoolFeed.Proofs.Chain.References
import PoolFeed.Proofs.Layout.Offsets

/-!
# What the reader of swaps reports

| here | there |
| --- | --- |
| `reference` | `PumpSwapDecoder.decode`, by absolute offsets |
| `tradeOf`, `poolOf` | "first drafted from the instruction and then overwritten by the event when one is found" (`_decode_trade`, `_decode_create_pool`) |

`Swaps.read` cuts arguments and events up by their layouts. The reference here says the same by
absolute offsets into the data of one call and of one payload: which call is taken (`firstKnown`), when
it can be decoded (`decodable?`), which payload confirms it (`payload?`), and what the event is then
(`eventOf`). `read_eq_reference` makes the two equal for every transaction whose references count from
the start of the account table.
-/

namespace PoolFeed.Chain.Swaps

open Transaction (Forward keyAt)

/-! ## The reference -/

def Call.tag : Call → Bytes
  | .trade .buy => buyCall
  | .trade .sell => sellCall
  | .createPool => createPoolCall

/-- The call whose tag the data starts with. -/
def kind? (data : Bytes) : Option Call :=
  [.trade .buy, .trade .sell, .createPool].find? fun call : Call => call.tag <+: data

/-- The first top-level instruction that calls the program with a known tag, and its position. -/
def firstKnown (program : String) (t : Transaction) : Option (Nat × Instruction × Call) :=
  t.instructions.zipIdx.findSome? fun (ix, position) =>
    if t.programOf? ix = some program then (kind? ix.data).map fun call => (position, ix, call) else none

/-- The bytes that a call needs after its tag. -/
def Call.argBytes : Call → Nat
  | .trade _ => 16
  | .createPool => 18

/-- The bytes of a payload that confirms a call. -/
def Call.eventBytes : Call → Nat
  | .trade _ => 128
  | .createPool => 124

/-- The reference of the user of a trade or the creator of a pool. -/
def Call.actorReference : Call → Nat
  | .trade _ => 1
  | .createPool => 2

/-- The named accounts of a call, if they are all in the table. -/
def named? (t : Transaction) (ix : Instruction) (call : Call) : Option Parties := do
  return ⟨← t.keyAt ix 0, ← t.keyAt ix call.actorReference, ← t.keyAt ix 3, ← t.keyAt ix 4⟩

/-- The named accounts of a call that has enough bytes and references. -/
def decodable? (t : Transaction) (ix : Instruction) (call : Call) : Option Parties :=
  if ix.data.length < 8 + call.argBytes ∨ ix.accounts.length < 5 then none else named? t ix call

/-- The payload of a call: the first one with its event tag among its own inner instructions that is not
cut short. -/
def payload? (t : Transaction) (position : Nat) (call : Call) : Option Bytes :=
  ((t.innerOf position).find? (Carries call.eventTag call.eventBytes ·)).map (·.data)

/-- A trade: its tokens lie at byte 8 of the call and its limit at byte 16; a payload has the fees at
bytes 88 and 104 and the executed amount at byte 120. -/
def tradeOf (t : Transaction) (ms : Int) (p : Parties) (side : Side) (data : Bytes) (payload : Option Bytes) :
    Trade where
  signature := t.signatureText
  slot := t.slot
  timestamp := ms
  side := side
  pool := p.pool
  user := p.actor
  baseMint := p.baseMint
  quoteMint := p.quoteMint
  tokenAmount := data.natAt 8 8
  solAmount := (payload.getD data).natAt (if payload.isSome then 120 else 16) 8
  limitSolAmount := data.natAt 16 8
  protocolFee := payload.elim 0 (·.intAt 104 8)
  lpFee := payload.elim 0 (·.intAt 88 8)
  price := payload.elim Binary64.zero fun e =>
    if 0 < data.natAt 8 8 ∧ 0 < e.natAt 120 8 then Binary64.ofRatio false (data.natAt 8 8) (e.natAt 120 8)
    else Binary64.zero

/-- The creation of a pool: its amounts lie at bytes 10 and 18 of the call; a payload has the decimals at
bytes 122 and 123. -/
def poolOf (t : Transaction) (ms : Int) (p : Parties) (data : Bytes) (payload : Option Bytes) : PoolCreation where
  signature := t.signatureText
  slot := t.slot
  timestamp := ms
  pool := p.pool
  creator := p.actor
  baseMint := p.baseMint
  quoteMint := p.quoteMint
  baseAmount := data.natAt 10 8
  quoteAmount := data.natAt 18 8
  baseDecimals := payload.elim 6 (·.natAt 122 1)
  quoteDecimals := payload.elim 9 (·.natAt 123 1)

def eventOf (t : Transaction) (ms : Int) (p : Parties) (data : Bytes) (payload : Option Bytes) : Call → Event
  | .trade side => .trade (tradeOf t ms p side data payload)
  | .createPool => .poolCreation (poolOf t ms p data payload)

/-- Only trades can lack their confirmation. -/
def Call.isTrade : Call → Bool
  | .trade _ => true
  | .createPool => false

/-- The event of a transaction, and the reader that has counted it. -/
def reference (d : Swaps) (ms : Int) (t : Transaction) : Option Event × Swaps :=
  match firstKnown d.program t with
  | none => (none, d)
  | some (position, ix, call) => match decodable? t ix call with
    | none => (none, { d with failures := d.failures + 1 })
    | some p =>
      let payload := payload? t position call
      let provisional := call.isTrade && payload.isNone
      (some (eventOf t ms p ix.data payload call),
        { d with successes := d.successes + 1, unconfirmed := d.unconfirmed + provisional.toNat })

/-! ## Which call is taken -/

theorem length_tag (call : Call) : call.tag.length = 8 := by
  cases call with
  | trade side => cases side <;> rfl
  | createPool => rfl

theorem ofData?_eq_kind? (data : Bytes) : Call.ofData? data = kind? data := by
  have h (call : Call) : data.take 8 = call.tag ↔ call.tag <+: data := take_eq_iff_prefix (length_tag call)
  simp only [Call.tag] at h
  have buy := h (.trade .buy)
  have sell := h (.trade .sell)
  have create := h .createPool
  simp only at buy sell create
  simp only [Call.ofData?, kind?, Call.tag, buy, sell, create, List.find?]
  split <;> rename_i hb
  · simp [hb]
  split <;> rename_i hs
  · simp [hb, hs]
  split <;> rename_i hc <;> simp [hb, hs, hc]

theorem firstCall_callsTo (program : String) (t : Transaction) :
    firstCall (t.callsTo program) = firstKnown program t := by
  rw [t.callsTo_eq_filterMap, firstKnown]
  induction t.instructions.zipIdx with
  | nil => rfl
  | cons x rest ih =>
    obtain ⟨ix, position⟩ := x
    by_cases hp : t.programOf? ix = some program
    · simp only [List.filterMap_cons, hp, if_true, firstCall, ofData?_eq_kind?, List.findSome?_cons]
      cases kind? ix.data with
      | none => exact ih
      | some call => rfl
    · simpa only [List.filterMap_cons, hp, if_false, List.findSome?_cons] using ih

/-! ## When it can be decoded -/

theorem size_args (call : Call) : call.args.size = call.argBytes := by
  cases call with
  | trade side => cases side <;> rfl
  | createPool => rfl

theorem size_event (call : Call) : call.event.size = call.eventBytes := by
  cases call with
  | trade side => rfl
  | createPool => rfl

theorem length_eventTag (call : Call) : call.eventTag.length = 16 := by
  cases call with
  | trade side => cases side <;> rfl
  | createPool => rfl

theorem actorPosition_eq (call : Call) : call.actorPosition = (call.actorReference : Nat) := by
  cases call <;> rfl

/-- With forward references only, no named account is an error. -/
theorem parties_eq (t : Transaction) {ix : Instruction} (h : Forward ix) (call : Call) :
    parties t ix call = .ok (named? t ix call) := by
  have at0 : t.account ix 0 = .ok (t.keyAt ix 0) := t.account_eq h 0
  have at3 : t.account ix 3 = .ok (t.keyAt ix 3) := t.account_eq h 3
  have at4 : t.account ix 4 = .ok (t.keyAt ix 4) := t.account_eq h 4
  have actor := t.account_eq h call.actorReference
  simp only [parties, at0, at3, at4, actorPosition_eq, actor]
  rfl

/-! ## What is filled in -/

theorem findRecord_payload (t : Transaction) (position : Nat) (call : Call) :
    (findRecord call.eventTag call.event (t.innerOf position)).2 =
      (payload? t position call).bind call.event.parse? := by
  rw [findRecord_snd (length_eventTag call), size_event, payload?, Option.bind_map]
  rfl

/-- A payload that confirms a call is long enough to be read. -/
theorem payload?_parses {t : Transaction} {position : Nat} {call : Call} {e : Bytes}
    (h : payload? t position call = some e) : ∃ r, call.event.parse? e = some r := by
  obtain ⟨ix, hix, rfl⟩ := Option.map_eq_some_iff.1 h
  have hc : Carries call.eventTag call.eventBytes ix := by simpa using List.find?_some hix
  exact Layout.exists_parse (size_event call ▸ hc.2)

/-- An argument lies behind the tag, at its offset in the layout. -/
theorem argument_eq {call : Call} {data : Bytes} {args : Record} {name : String} {offset width : Nat}
    (ha : call.args.parse? (data.drop 8) = some args) (hf : call.args.field? name = some (offset, .unsigned width)) :
    args.number name = data.natAt (8 + offset) width := by
  rw [Layout.parse_number_unsigned ha hf, Bytes.natAt_drop]

/-- The draft of a trade is the trade without a payload. -/
theorem draftTrade_eq (t : Transaction) (ms : Int) (p : Parties) {side : Side} {data : Bytes} {args : Record}
    (ha : (Call.trade side).args.parse? (data.drop 8) = some args) :
    draftTrade t p ms side args = tradeOf t ms p side data none := by
  cases side with
  | buy =>
    have tokens := argument_eq ha (show buyArgs.field? "base_amount_out" = some (0, .unsigned 8) from rfl)
    have limit := argument_eq ha (show buyArgs.field? "max_quote_amount_in" = some (8, .unsigned 8) from rfl)
    simp [draftTrade, tradeOf, tokens, limit]
  | sell =>
    have tokens := argument_eq ha (show sellArgs.field? "base_amount_in" = some (0, .unsigned 8) from rfl)
    have limit := argument_eq ha (show sellArgs.field? "min_quote_amount_out" = some (8, .unsigned 8) from rfl)
    simp [draftTrade, tradeOf, tokens, limit]

theorem draftPool_eq (t : Transaction) (ms : Int) (p : Parties) {data : Bytes} {args : Record}
    (ha : Call.createPool.args.parse? (data.drop 8) = some args) :
    draftPool t p ms args = poolOf t ms p data none := by
  have base := argument_eq ha (show createPoolArgs.field? "base_amount_in" = some (2, .unsigned 8) from rfl)
  have quote := argument_eq ha (show createPoolArgs.field? "quote_amount_in" = some (10, .unsigned 8) from rfl)
  simp [draftPool, poolOf, base, quote]

theorem executedPrice_natCast (tokens quote : Nat) :
    executedPrice tokens quote =
      if 0 < tokens ∧ 0 < quote then Binary64.ofRatio false tokens quote else Binary64.zero := by
  simp [executedPrice]

theorem mergeTrade_eq (t : Transaction) (ms : Int) (p : Parties) (side : Side) (data : Bytes) {e : Bytes} {r : Record}
    (hr : tradeEvent.parse? e = some r) :
    mergeTrade (tradeOf t ms p side data none) (some r) = tradeOf t ms p side data (some e) := by
  have lpFee := Layout.parse_number_signed hr (show tradeEvent.field? "lp_fee" = some (88, .signed 8) from rfl)
  have fee := Layout.parse_number_signed hr (show tradeEvent.field? "protocol_fee" = some (104, .signed 8) from rfl)
  have quote := Layout.parse_number_unsigned hr
    (show tradeEvent.field? "user_quote_amount" = some (120, .unsigned 8) from rfl)
  simp [mergeTrade, tradeOf, lpFee, fee, quote, executedPrice_natCast]

theorem mergePool_eq (t : Transaction) (ms : Int) (p : Parties) (data : Bytes) {e : Bytes} {r : Record}
    (hr : createPoolEvent.parse? e = some r) :
    mergePool (poolOf t ms p data none) (some r) = poolOf t ms p data (some e) := by
  have base := Layout.parse_number_unsigned hr
    (show createPoolEvent.field? "base_mint_decimals" = some (122, .unsigned 1) from rfl)
  have quote := Layout.parse_number_unsigned hr
    (show createPoolEvent.field? "quote_mint_decimals" = some (123, .unsigned 1) from rfl)
  simp [mergePool, poolOf, base, quote]

/-- What a call with enough bytes is merged to. -/
theorem merged_eq (t : Transaction) (ms : Int) (p : Parties) (position : Nat) {call : Call} {data : Bytes}
    {args : Record} (ha : call.args.parse? (data.drop 8) = some args) :
    (merged t position call p ms args).event = some (eventOf t ms p data (payload? t position call) call) ∧
    (merged t position call p ms args).provisional = (call.isTrade && (payload? t position call).isNone) ∧
    (merged t position call p ms args).refused = false := by
  have hrecord := findRecord_payload t position call
  have hparse (e : Bytes) (he : payload? t position call = some e) := payload?_parses he
  generalize payload? t position call = payload at hrecord hparse ⊢
  cases call with
  | createPool =>
    cases payload with
    | none => simp [merged, hrecord, eventOf, mergePool, draftPool_eq t ms p ha, Call.isTrade]
    | some e =>
      obtain ⟨r, hr⟩ := hparse e rfl
      have hr' : createPoolEvent.parse? e = some r := hr
      simp [merged, hrecord, hr, eventOf, draftPool_eq t ms p ha, mergePool_eq t ms p data hr', Call.isTrade]
  | trade side =>
    cases payload with
    | none => simp [merged, hrecord, eventOf, mergeTrade, draftTrade_eq t ms p ha, Call.isTrade]
    | some e =>
      obtain ⟨r, hr⟩ := hparse e rfl
      have hr' : tradeEvent.parse? e = some r := hr
      simp [merged, hrecord, hr, eventOf, draftTrade_eq t ms p ha, mergeTrade_eq t ms p side data hr', Call.isTrade]

/-! ## The reader is the reference -/

theorem short_iff (call : Call) (data : Bytes) :
    (data.drop 8).length < call.args.size ↔ data.length < 8 + call.argBytes := by
  have pos : 0 < call.argBytes := by cases call <;> simp [Call.argBytes]
  rw [size_args, List.length_drop]
  omega

/-- A call that can be decoded is read as its event. -/
theorem scan_of_decodable {t : Transaction} {ix : Instruction} {call : Call} {p : Parties} (h : Forward ix)
    (hd : decodable? t ix call = some p) (ms : Int) (position : Nat) :
    ∃ args, call.args.parse? (ix.data.drop 8) = some args ∧
      scan t (.ok ms) position ix call = merged t position call p ms args := by
  simp only [decodable?] at hd
  split at hd
  · cases hd
  rename_i hb
  have hlong : ¬ (ix.data.drop 8).length < call.args.size := fun hs => hb (Or.inl ((short_iff call ix.data).1 hs))
  obtain ⟨args, ha⟩ := Layout.exists_parse (Nat.not_lt.1 hlong)
  have hb' : ¬ ((ix.data.drop 8).length < call.args.size ∨ ix.accounts.length < swapMinAccounts) := by
    rw [short_iff]; exact hb
  exact ⟨args, ha, by simp only [scan, hb', if_false, parties_eq t h call, hd, ha, Option.getD_some]⟩

/-- A call that cannot be decoded is refused. -/
theorem scan_of_undecodable {t : Transaction} {ix : Instruction} {call : Call} (h : Forward ix)
    (hd : decodable? t ix call = none) (ms : Int) (position : Nat) :
    ∃ log, scan t (.ok ms) position ix call = .refusal log := by
  simp only [scan]
  split
  · exact ⟨_, rfl⟩
  rename_i hb
  rw [short_iff] at hb
  have hn : named? t ix call = none := by
    simp only [decodable?] at hd
    split at hd
    · rename_i hs
      exact absurd hs hb
    · exact hd
  rw [parties_eq t h call, hn]
  exact ⟨_, rfl⟩

theorem mem_of_firstKnown {program : String} {t : Transaction} {position : Nat} {ix : Instruction} {call : Call}
    (hf : firstKnown program t = some (position, ix, call)) : ix ∈ t.instructions := by
  obtain ⟨⟨ix', position'⟩, hm, he⟩ := List.exists_of_findSome?_eq_some hf
  simp only at he
  split at he
  · obtain ⟨call', _, hc⟩ := Option.map_eq_some_iff.1 he
    simp only [Prod.mk.injEq] at hc
    obtain ⟨rfl, rfl, rfl⟩ := hc
    exact List.fst_mem_of_mem_zipIdx hm
  · cases he

theorem forward_of_firstKnown {program : String} {t : Transaction} (h : ∀ ix ∈ t.instructions, Forward ix)
    {position : Nat} {ix : Instruction} {call : Call} (hf : firstKnown program t = some (position, ix, call)) :
    Forward ix := h ix (mem_of_firstKnown hf)

/-- **Reading is the reference.** Whatever the data, the account table and the inner instructions are, the
reader reports the event of the first known call and counts it as the reference does. -/
theorem read_eq_reference (d : Swaps) (ms : Int) (t : Transaction) (h : ∀ ix ∈ t.instructions, Forward ix) :
    ((d.read (.ok ms) t).1, (d.read (.ok ms) t).2.1) = d.reference ms t := by
  simp only [read, reference, firstCall_callsTo]
  cases hf : firstKnown d.program t with
  | none => rfl
  | some found =>
    obtain ⟨position, ix, call⟩ := found
    have hix := forward_of_firstKnown h hf
    simp only
    cases hd : decodable? t ix call with
    | none =>
      obtain ⟨log, hs⟩ := scan_of_undecodable hix hd ms position
      simp [hs, Scan.refusal]
    | some p =>
      obtain ⟨args, ha, hs⟩ := scan_of_decodable hix hd ms position
      obtain ⟨event, provisional, refused⟩ := merged_eq t ms p position ha
      simp [hs, event, provisional, refused]

/-- A call without arguments by another program, a call with an unknown tag, the buy that counts, and a
sell behind it. The buy is confirmed by the last of its inner instructions: the first has the tag of a
sell and the second is cut short. -/
def confirmedBuy : Transaction where
  signature := [7]
  slot := 5
  keys := ["pool", "user", "base", "quote", "amm", "token"]
  instructions := [
    ⟨5, buyCall, []⟩,
    ⟨4, selfCallTag, [9]⟩,
    ⟨4, buyCall ++ Bytes.ofLeNat 8 1000 ++ Bytes.ofLeNat 8 500, [0, 1, 9, 2, 3]⟩,
    ⟨4, sellCall ++ Bytes.ofLeNat 8 1 ++ Bytes.ofLeNat 8 1, [0, 1, 1, 2, 3]⟩]
  inner := [
    (1, [⟨4, buyEventTag ++ List.replicate 112 1, []⟩]),
    (2, [⟨5, sellEventTag ++ List.replicate 112 1, []⟩, ⟨4, buyEventTag, []⟩,
      ⟨4, buyEventTag ++ List.replicate 72 0 ++ Bytes.ofLeNat 8 3 ++ List.replicate 8 0 ++ List.replicate 8 255 ++
        List.replicate 8 0 ++ Bytes.ofLeNat 8 400, []⟩])]

theorem read_confirmedBuy :
    (∀ ix ∈ confirmedBuy.instructions, Forward ix) ∧
    ((read { program := "amm" } (.ok 1700000000000) confirmedBuy).1,
      (read { program := "amm" } (.ok 1700000000000) confirmedBuy).2.1) =
      (some (.trade ⟨"8", 5, 1700000000000, .buy, "pool", "user", "base", "quote", 1000, 400, 500, -1, 3,
        Binary64.ofRatio false 5 2⟩), { program := "amm", successes := 1 }) := by
  have forward : ∀ ix ∈ confirmedBuy.instructions, Forward ix := by decide
  refine ⟨forward, ?_⟩
  rw [read_eq_reference _ _ _ forward]
  decide +kernel

end PoolFeed.Chain.Swaps
