import Mathlib.Algebra.Ring.Nat
import PoolFeed.Proofs.Chain.Confirmation
import PoolFeed.Proofs.Chain.MigrationReading
import PoolFeed.Wire.Update

/-!
# Readings that nothing breaks off

| here | there |
| --- | --- |
| `attempt` | `decode` of each decoder without its `except` |
| `handled` | that `except`, and the failure counter |
| `arrivals` | envelopes as `TransactionEnvelope.from_update` makes them |

A reading looks up keys, cuts records out of bytes, asks for their fields and divides. Each of these can fail, and the
readers catch whatever fails. An *attempt* is a reading in which every such step can fail and nothing is caught: it comes
to its end or to the fault that breaks it off. `Swaps.read_eq_handled` and `Migrations.read_eq_handled` say of all
transactions that reading is an attempt whose fault is logged and counted. On a transaction from the stream there is no
fault (`readings_unbroken`): its account references are bytes, and all other steps are guarded.
-/

namespace PoolFeed.Chain

open Transaction (Forward)

/-- What breaks a reading off. -/
inductive Fault where
  | reference (e : ReferenceError)
  | clock (e : ClockError)
  | truncated (field : String) (expected found : Nat)
  | missing (field : String)
  | divisionByZero
  | overflow
  deriving DecidableEq

def Fault.message : Fault → String
  | .reference e => e.message
  | .clock e => e.message
  | .truncated field expected found => s!"Error in path (parsing) -> {field}\n" ++
      s!"stream read less than specified amount, expected {expected}, found {found}"
  | .missing field => field
  | .divisionByZero => "division by zero"
  | .overflow => "integer division result too large for a float"

/-! ## Steps that can fail -/

/-- The program that an instruction calls. -/
def programOf (t : Transaction) (ix : Instruction) : Except Fault (Option String) :=
  if 0 ≤ ix.programIndex ∧ ix.programIndex < t.keys.length then
    match pick? t.keys ix.programIndex with
    | some program => .ok (some program)
    | none => .error (.reference .beforeStart)
  else .ok none

/-- Cuts a record out of bytes. -/
def cut : Layout → Bytes → Except Fault Record
  | [], _ => .ok []
  | (name, t) :: rest, b =>
    if b.length < t.size then .error (.truncated name t.size b.length)
    else do
      let fields ← cut rest (b.drop t.size)
      return (name, t.read (b.take t.size)) :: fields

def numberIn (r : Record) (name : String) : Except Fault Int :=
  match r.lookup name with
  | some (.number i) => .ok i
  | _ => .error (.missing name)

def bytesIn (r : Record) (name : String) : Except Fault Bytes :=
  match r.lookup name with
  | some (.raw b) => .ok b
  | _ => .error (.missing name)

/-- The search of `findRecord`. -/
def search (tag : Bytes) (layout : Layout) : List Instruction → Except Fault (List Nat × Option Record)
  | [] => .ok ([], none)
  | ix :: rest =>
    if ix.data.take 16 ≠ tag then search tag layout rest
    else if ix.data.length < layout.size then do
      let (short, record) ← search tag layout rest
      return (ix.data.length :: short, record)
    else do
      let record ← cut layout ix.data
      return ([], some record)

/-- The quotient of two integers as a double. -/
def divide (n d : Int) : Except Fault Binary64 :=
  if d = 0 then .error .divisionByZero
  else
    let x := Binary64.ofRatio (decide (n < 0) != decide (d < 0)) n.natAbs d.natAbs
    if x.isFinite then .ok x else .error .overflow

theorem programOf_eq (t : Transaction) (ix : Instruction) : programOf t ix = .ok (t.programOf? ix) := by
  unfold programOf Transaction.programOf?
  by_cases hstart : 0 ≤ ix.programIndex
  · by_cases hend : ix.programIndex < t.keys.length
    · have hlt : ix.programIndex.toNat < t.keys.length := by omega
      rw [if_pos ⟨hstart, hend⟩, if_pos hstart, pick?, if_pos hstart, List.getElem?_eq_getElem hlt]
    · rw [if_neg (fun h => hend h.2), if_pos hstart, List.getElem?_eq_none (by omega)]
  · rw [if_neg (fun h => hstart h.1), if_neg hstart]

theorem cut_eq : ∀ {layout : Layout} {b : Bytes} {r : Record}, layout.parse? b = some r → cut layout b = .ok r
  | [], _, _, h => by
    obtain rfl := Option.some.inj h
    rfl
  | (name, t) :: rest, b, r, h => by
    rw [Layout.parse?] at h
    split at h
    · cases h
    · rename_i hlong
      obtain ⟨fields, hfields, rfl⟩ := Option.map_eq_some_iff.1 h
      rw [cut, if_neg hlong, cut_eq hfields]
      rfl

/-- The search cuts only payloads that are long enough. -/
theorem search_eq (tag : Bytes) (layout : Layout) : ∀ inner : List Instruction,
    search tag layout inner = .ok (findRecord tag layout inner)
  | [] => rfl
  | ix :: rest => by
    have ih := search_eq tag layout rest
    rw [search, findRecord]
    split
    · exact ih
    · split
      · rw [ih]
        rfl
      · rename_i hlong
        obtain ⟨r, hr⟩ := Layout.exists_parse (Nat.not_lt.1 hlong)
        rw [cut_eq hr, hr]
        rfl

/-- Two positive numbers of eight bytes have a quotient. -/
theorem divide_eq {n d : Int} (hn : 0 < n) (hspan : n.natAbs < Bytes.span 8) (hd : 0 < d) :
    divide n d = .ok (Binary64.ofRatio false n.natAbs d.natAbs) := by
  have hlog : n.natAbs.log2 < 64 := (Nat.log2_lt (by omega)).2 (by simpa [Bytes.span] using hspan)
  have hlt := Binary64.magnitudeOfRatio_lt (n := n.natAbs) (d := d.natAbs) (by omega) (by omega)
  have hsign : Binary64.infinityWord < Binary64.signWord := by decide
  have hfinite : (Binary64.ofRatio false n.natAbs d.natAbs).isFinite := by
    rw [Binary64.isFinite, Binary64.ofRatio, Binary64.magnitude_ofMagnitude _ (Nat.lt_trans hlt hsign)]
    exact decide_eq_true hlt
  have hpositive : (decide (n < 0) != decide (d < 0)) = false := by simp; omega
  rw [divide, if_neg (by omega), hpositive]
  exact if_pos hfinite

section

variable {layout : Layout} {b : Bytes} {r : Record}

theorem numberIn_unsigned (hr : layout.parse? b = some r) (name : String) (width : Nat)
    (hf : (layout.field? name).map Prod.snd = some (.unsigned width)) : numberIn r name = .ok (r.number name) := by
  obtain ⟨⟨offset, type⟩, hfield, rfl⟩ := Option.map_eq_some_iff.1 hf
  rw [numberIn, Record.number, Layout.lookup_parse hr hfield]
  rfl

theorem numberIn_signed (hr : layout.parse? b = some r) (name : String) (width : Nat)
    (hf : (layout.field? name).map Prod.snd = some (.signed width)) : numberIn r name = .ok (r.number name) := by
  obtain ⟨⟨offset, type⟩, hfield, rfl⟩ := Option.map_eq_some_iff.1 hf
  rw [numberIn, Record.number, Layout.lookup_parse hr hfield]
  rfl

theorem bytesIn_raw (hr : layout.parse? b = some r) (name : String) (width : Nat)
    (hf : (layout.field? name).map Prod.snd = some (.raw width)) : bytesIn r name = .ok (r.raw name) := by
  obtain ⟨⟨offset, type⟩, hfield, rfl⟩ := Option.map_eq_some_iff.1 hf
  rw [bytesIn, Record.raw, Layout.lookup_parse hr hfield]
  rfl

end

/-! ## Swaps -/

namespace Swaps

/-- The tokens and the limit of a trade. -/
def amountsIn (args : Record) : Side → Except Fault (Int × Int)
  | .buy => do return (← numberIn args "base_amount_out", ← numberIn args "max_quote_amount_in")
  | .sell => do return (← numberIn args "base_amount_in", ← numberIn args "min_quote_amount_out")

/-- The price of a trade that has been executed. -/
def priceIn (draft : Trade) (executed : Int) : Except Fault Binary64 :=
  if 0 < draft.tokenAmount ∧ 0 < executed then divide draft.tokenAmount executed else .ok draft.price

/-- Fills the executed amount, the fees and the price of a trade in. -/
def fillTrade (draft : Trade) (r : Record) : Except Fault Trade := do
  let lpFee ← numberIn r "lp_fee"
  let protocolFee ← numberIn r "protocol_fee"
  let executed ← numberIn r "user_quote_amount"
  let price ← priceIn draft executed
  return { draft with lpFee := lpFee, protocolFee := protocolFee, solAmount := executed, price := price }

/-- Fills the decimals of a pool in. -/
def fillPool (draft : PoolCreation) (r : Record) : Except Fault PoolCreation := do
  let base ← numberIn r "base_mint_decimals"
  let quote ← numberIn r "quote_mint_decimals"
  return { draft with baseDecimals := base, quoteDecimals := quote }

/-- A trade from its arguments on. -/
def attemptTrade (t : Transaction) (now : Except ClockError Int) (position : Nat) (p : Parties) (side : Side)
    (args : Record) : Except Fault Scan := do
  let (tokens, limit) ← amountsIn args side
  let ms ← now.mapError .clock
  let draft := { draftTrade t p ms side args with
    tokenAmount := tokens, solAmount := limit, limitSolAmount := limit }
  let (short, record) ← search (Call.trade side).eventTag tradeEvent (t.innerOf position)
  let log := short.map fun n => Log.debug s!"PumpSwap event too short: {n} bytes"
  match record with
  | none => return ⟨some (.trade draft), true, false, log⟩
  | some r => return ⟨some (.trade (← fillTrade draft r)), false, false, log⟩

/-- The creation of a pool from its arguments on. -/
def attemptPool (t : Transaction) (now : Except ClockError Int) (position : Nat) (p : Parties) (args : Record) :
    Except Fault Scan := do
  let ms ← now.mapError .clock
  let base ← numberIn args "base_amount_in"
  let quote ← numberIn args "quote_amount_in"
  let draft := { draftPool t p ms args with baseAmount := base, quoteAmount := quote }
  let (short, record) ← search createPoolEventTag createPoolEvent (t.innerOf position)
  let log := short.map fun n => Log.debug s!"PumpSwap event too short: {n} bytes"
  match record with
  | none => return ⟨some (.poolCreation draft), false, false, log⟩
  | some r => return ⟨some (.poolCreation (← fillPool draft r)), false, false, log⟩

def attemptCall (t : Transaction) (now : Except ClockError Int) (position : Nat) (ix : Instruction) (call : Call) :
    Except Fault Scan :=
  let data := ix.data.drop 8
  if data.length < call.args.size ∨ ix.accounts.length < swapMinAccounts then
    .ok (.refusal [Log.debug
      s!"{call.name} instruction too short: {data.length} arg bytes, {ix.accounts.length} accounts"
      [.signature t.signatureText]])
  else do
    match ← (parties t ix call).mapError .reference with
    | none => return .refusal [Log.debug "Instruction account index out of range" [.signature t.signatureText]]
    | some p =>
      let args ← cut call.args data
      match call with
      | .trade side => attemptTrade t now position p side args
      | .createPool => attemptPool t now position p args

/-- Walks the instructions up to the first known call. -/
def attemptFrom (program : String) (t : Transaction) (now : Except ClockError Int) :
    List (Instruction × Nat) → Except Fault Scan
  | [] => .ok {}
  | (ix, position) :: rest => do
    if (← programOf t ix) ≠ some program then attemptFrom program t now rest
    else match Call.ofData? ix.data with
      | none => attemptFrom program t now rest
      | some call => attemptCall t now position ix call

/-- Reading without a handler. -/
def attempt (d : Swaps) (now : Except ClockError Int) (t : Transaction) : Except Fault Scan :=
  attemptFrom d.program t now t.instructions.zipIdx

/-- What the handler makes of an attempt: a fault is logged and counted. -/
def handled (d : Swaps) (t : Transaction) (a : Except Fault Scan) : Option Event × Swaps × List Log.Entry :=
  let s := match a with
    | .ok s => s
    | .error f => .broken t.slot f.message
  (s.event, { d with
    successes := d.successes + s.event.isSome.toNat
    failures := d.failures + s.refused.toNat
    unconfirmed := d.unconfirmed + s.provisional.toNat }, s.log)

/-! ### One call -/

section

variable {t : Transaction} {now : Except ClockError Int} {p : Parties} {position : Nat} {b : Bytes} {args r : Record}

theorem amountsIn_eq {side : Side} (ha : (Call.trade side).args.parse? b = some args) (ms : Int) :
    amountsIn args side = .ok ((draftTrade t p ms side args).tokenAmount, (draftTrade t p ms side args).solAmount) := by
  cases side with
  | buy =>
    have tokens := numberIn_unsigned ha "base_amount_out" 8 rfl
    have limit := numberIn_unsigned ha "max_quote_amount_in" 8 rfl
    rw [amountsIn, tokens, limit]
    rfl
  | sell =>
    have tokens := numberIn_unsigned ha "base_amount_in" 8 rfl
    have limit := numberIn_unsigned ha "min_quote_amount_out" 8 rfl
    rw [amountsIn, tokens, limit]
    rfl

/-- A draft has an amount of eight bytes and no price. -/
theorem priceIn_eq {draft : Trade} (htokens : draft.tokenAmount.natAbs < Bytes.span 8)
    (hprice : draft.price = Binary64.zero) (executed : Int) :
    priceIn draft executed = .ok (executedPrice draft.tokenAmount executed) := by
  rw [priceIn, executedPrice]
  split
  · rename_i hpos
    exact divide_eq hpos.1 htokens hpos.2
  · rw [hprice]

theorem fillTrade_eq {draft : Trade} (hr : tradeEvent.parse? b = some r)
    (htokens : draft.tokenAmount.natAbs < Bytes.span 8) (hprice : draft.price = Binary64.zero) :
    fillTrade draft r = .ok (mergeTrade draft (some r)) := by
  have lpFee := numberIn_signed hr "lp_fee" 8 rfl
  have protocolFee := numberIn_signed hr "protocol_fee" 8 rfl
  have executed := numberIn_unsigned hr "user_quote_amount" 8 rfl
  have price := priceIn_eq htokens hprice (r.number "user_quote_amount")
  simp only [fillTrade, lpFee, protocolFee, executed, bind, Except.bind, price]
  rfl

theorem fillPool_eq {draft : PoolCreation} (hr : createPoolEvent.parse? b = some r) :
    fillPool draft r = .ok (mergePool draft (some r)) := by
  have base := numberIn_unsigned hr "base_mint_decimals" 1 rfl
  have quote := numberIn_unsigned hr "quote_mint_decimals" 1 rfl
  rw [fillPool, base, quote]
  rfl

theorem attemptTrade_eq {side : Side} (ha : (Call.trade side).args.parse? b = some args) (ms : Int) :
    attemptTrade t (.ok ms) position p side args = .ok (merged t position (.trade side) p ms args) := by
  have hamounts := amountsIn_eq (t := t) (p := p) ha ms
  have hdraft : { draftTrade t p ms side args with
      tokenAmount := (draftTrade t p ms side args).tokenAmount
      solAmount := (draftTrade t p ms side args).solAmount
      limitSolAmount := (draftTrade t p ms side args).solAmount } = draftTrade t p ms side args := by
    cases side <;> rfl
  have htokens : (draftTrade t p ms side args).tokenAmount.natAbs < Bytes.span 8 := by
    have h := (draftTrade_amounts t p ms side b).1
    rwa [ha] at h
  have hprice : (draftTrade t p ms side args).price = Binary64.zero := by cases side <;> rfl
  have hsearch := search_eq (Call.trade side).eventTag tradeEvent (t.innerOf position)
  simp only [attemptTrade, hamounts, hsearch, Except.mapError, bind, Except.bind, merged, Call.event]
  rw [hdraft]
  cases hrecord : (findRecord (Call.trade side).eventTag tradeEvent (t.innerOf position)).2 with
  | none => rfl
  | some r =>
    obtain ⟨b', hr⟩ := parse_of_findRecord hrecord
    simp only [fillTrade_eq hr htokens hprice]
    rfl

theorem attemptPool_eq (ha : createPoolArgs.parse? b = some args) (ms : Int) :
    attemptPool t (.ok ms) position p args = .ok (merged t position .createPool p ms args) := by
  have base := numberIn_unsigned ha "base_amount_in" 8 rfl
  have quote := numberIn_unsigned ha "quote_amount_in" 8 rfl
  have hsearch := search_eq createPoolEventTag createPoolEvent (t.innerOf position)
  simp only [attemptPool, base, quote, hsearch, Except.mapError, bind, Except.bind, merged, Call.event, Call.eventTag]
  cases hrecord : (findRecord createPoolEventTag createPoolEvent (t.innerOf position)).2 with
  | none => rfl
  | some r =>
    obtain ⟨b', hr⟩ := parse_of_findRecord hrecord
    simp only [fillPool_eq hr]
    rfl

/-- An attempt at a call comes to what the scan gives, or to the fault that the scan ends with. -/
theorem attemptCall_cases (t : Transaction) (now : Except ClockError Int) (position : Nat) (ix : Instruction)
    (call : Call) :
    attemptCall t now position ix call = .ok (scan t now position ix call) ∨
    (∃ e, parties t ix call = .error e ∧ attemptCall t now position ix call = .error (.reference e) ∧
      scan t now position ix call = .broken t.slot e.message) ∨
    ∃ e, now = .error e ∧ attemptCall t now position ix call = .error (.clock e) ∧
      scan t now position ix call = .broken t.slot e.message := by
  unfold attemptCall scan
  by_cases hshort : (ix.data.drop 8).length < call.args.size ∨ ix.accounts.length < swapMinAccounts
  · exact .inl (by simp only [if_pos hshort])
  obtain ⟨args, ha⟩ := Layout.exists_parse (Nat.not_lt.1 fun h => hshort (.inl h))
  simp only [if_neg hshort]
  cases hparties : parties t ix call with
  | error e => exact .inr (.inl ⟨e, rfl, rfl, rfl⟩)
  | ok named =>
    cases named with
    | none => exact .inl rfl
    | some p =>
      simp only [Except.mapError, bind, Except.bind, cut_eq ha]
      cases now with
      | ok ms =>
        left
        cases call with
        | trade side => simp only [attemptTrade_eq ha, ha, Option.getD_some]
        | createPool =>
          have ha' : createPoolArgs.parse? (ix.data.drop 8) = some args := ha
          simp only [attemptPool_eq ha', ha, Option.getD_some]
      | error e =>
        right; right
        refine ⟨e, rfl, ?_, rfl⟩
        cases call with
        | trade side =>
          simp only [attemptTrade, amountsIn_eq (t := t) (p := p) ha 0]
          rfl
        | createPool => rfl

end

/-! ### One transaction -/

/-- The walk is a search for the first known call. -/
theorem attemptFrom_eq (program : String) (t : Transaction) (now : Except ClockError Int) :
    ∀ l : List (Instruction × Nat), attemptFrom program t now l =
      match firstCall (l.filterMap fun (ix, position) =>
        if t.programOf? ix = some program then some (position, ix) else none) with
      | none => .ok {}
      | some (position, ix, call) => attemptCall t now position ix call
  | [] => rfl
  | (ix, position) :: rest => by
    have ih := attemptFrom_eq program t now rest
    simp only [attemptFrom, programOf_eq, bind, Except.bind, List.filterMap_cons]
    by_cases hp : t.programOf? ix = some program
    · simp only [hp, if_true, ne_eq, not_true_eq_false, if_false, firstCall]
      cases Call.ofData? ix.data with
      | none => exact ih
      | some call => rfl
    · simpa only [hp, ne_eq, not_false_eq_true, if_true, if_false] using ih

theorem attempt_eq (d : Swaps) (now : Except ClockError Int) (t : Transaction) :
    d.attempt now t = match firstCall (t.callsTo d.program) with
      | none => .ok {}
      | some (position, ix, call) => attemptCall t now position ix call := by
  rw [attempt, attemptFrom_eq, ← t.callsTo_eq_filterMap]

/-- **Reading swaps is an attempt whose fault is handled.** -/
theorem read_eq_handled (d : Swaps) (now : Except ClockError Int) (t : Transaction) :
    d.read now t = d.handled t (d.attempt now t) := by
  rw [attempt_eq]
  cases hfirst : firstCall (t.callsTo d.program) with
  | none =>
    rw [read, hfirst]
    rfl
  | some found =>
    obtain ⟨position, ix, call⟩ := found
    have hread : d.read now t = d.handled t (.ok (scan t now position ix call)) := by
      rw [read, hfirst]
      rfl
    obtain h | ⟨e, -, h, hscan⟩ | ⟨e, -, h, hscan⟩ := attemptCall_cases t now position ix call
    · simp only [hread, h]
    · simp only [hread, h, hscan]
      rfl
    · simp only [hread, h, hscan]
      rfl

/-- Forward references are resolved, and then nothing fails. -/
theorem attempt_of_forward {t : Transaction} (h : ∀ ix ∈ t.instructions, Forward ix) (d : Swaps) (ms : Int) :
    ∃ s, d.attempt (.ok ms) t = .ok s := by
  rw [attempt_eq, firstCall_callsTo]
  cases hfirst : firstKnown d.program t with
  | none => exact ⟨{}, rfl⟩
  | some found =>
    obtain ⟨position, ix, call⟩ := found
    have hix := forward_of_firstKnown h hfirst
    obtain hok | ⟨e, hparties, -⟩ | ⟨e, hnow, -⟩ := attemptCall_cases t (.ok ms) position ix call
    · exact ⟨_, hok⟩
    · rw [parties_eq t hix call] at hparties
      cases hparties
    · cases hnow

/-- The first known call is too short, or names an account from outside the table. -/
def refuses (program : String) (t : Transaction) : Bool :=
  (firstKnown program t).any fun (_, ix, call) => (decodable? t ix call).isNone

theorem failures_read {t : Transaction} (h : ∀ ix ∈ t.instructions, Forward ix) (d : Swaps) (ms : Int) :
    (d.read (.ok ms) t).2.1.failures = d.failures + (refuses d.program t).toNat := by
  rw [read, firstCall_callsTo, refuses]
  cases hfirst : firstKnown d.program t with
  | none => rfl
  | some found =>
    obtain ⟨position, ix, call⟩ := found
    have hix := forward_of_firstKnown h hfirst
    cases hd : decodable? t ix call with
    | none =>
      obtain ⟨log, hs⟩ := scan_of_undecodable hix hd ms position
      simp [hs, Scan.refusal, hd]
    | some p =>
      obtain ⟨args, ha, hs⟩ := scan_of_decodable hix hd ms position
      obtain ⟨-, -, hrefused⟩ := merged_eq t ms p position ha
      simp [hs, hrefused, hd]

end Swaps

/-! ## Migrations -/

namespace Migrations

/-- The migration that a record reports. -/
def attemptReport (t : Transaction) (mint : String) (ms : Int) (r : Record) : Except Fault Migration := do
  let pool ← bytesIn r "pool"
  let sol ← numberIn r "sol_amount"
  let tokens ← numberIn r "mint_amount"
  return { report t mint ms r with pool := Base58.encode pool, solAmount := sol, tokenAmount := tokens }

/-- A scan and the fault that broke it off, if there was one. -/
abbrev Attempt := Scan × Option Fault

/-- An attempt that had something to note before it. -/
def Attempt.after (a : Attempt) (log : List Log.Entry) (refused : Nat) : Attempt := (a.1.after log refused, a.2)

/-- A migrate call whose mint is known: its inner instructions are searched before the walk goes on. -/
def attemptCall (t : Transaction) (now : Except ClockError Int) (position : Nat) (mint : String) (rest : Attempt) :
    Attempt :=
  match search migrateEventTag migrateEvent (t.innerOf position) with
  | .error f => ({}, some f)
  | .ok (short, record) =>
    let log := short.map fun n => Log.debug s!"Migrate event too short: {n} bytes"
    match record with
    | none => rest.after log short.length
    | some r =>
      match (now.mapError Fault.clock).bind fun ms => attemptReport t mint ms r with
      | .error f => (⟨none, 1, short.length, log⟩, some f)
      | .ok e => (⟨some e, 1, short.length, log⟩, none)

/-- Walks the instructions up to the first confirmed migration. -/
def attemptFrom (program : String) (t : Transaction) (now : Except ClockError Int) :
    List (Instruction × Nat) → Attempt
  | [] => ({}, none)
  | (ix, position) :: rest =>
    match programOf t ix with
    | .error f => ({}, some f)
    | .ok called =>
      if called ≠ some program ∨ ix.data.take 8 ≠ migrateCall then attemptFrom program t now rest
      else if ix.accounts.length < migrateMinAccounts then
        (attemptFrom program t now rest).after
          [Log.debug s!"Migrate instruction has {ix.accounts.length} accounts" [.signature t.signatureText]] 0
      else match t.account ix 2 with
        | .error e => ({}, some (.reference e))
        | .ok none => (attemptFrom program t now rest).after
            [Log.debug "Migrate mint index out of range" [.signature t.signatureText]] 0
        | .ok (some mint) => attemptCall t now position mint (attemptFrom program t now rest)

/-- Reading without a handler. -/
def attempt (d : Migrations) (now : Except ClockError Int) (t : Transaction) : Attempt :=
  attemptFrom d.program t now t.instructions.zipIdx

/-- A scan whose fault is logged and counted. -/
def Attempt.caught (slot : Int) (a : Attempt) : Scan :=
  match a.2 with
  | none => a.1
  | some f => { a.1 with
      refused := a.1.refused + 1
      log := a.1.log ++ [Log.debug s!"Pump.fun decode error: {f.message}" [.slot slot]] }

/-- What the handler makes of an attempt. -/
def handled (d : Migrations) (t : Transaction) (a : Attempt) : Option Migration × Migrations × List Log.Entry :=
  let s := a.caught t.slot
  (s.event, { d with successes := d.successes + s.confirmed, failures := d.failures + s.refused }, s.log)

/-! ### One call -/

theorem attemptReport_eq (t : Transaction) (mint : String) (ms : Int) {b : Bytes} {r : Record}
    (hr : migrateEvent.parse? b = some r) : attemptReport t mint ms r = .ok (report t mint ms r) := by
  have pool := bytesIn_raw hr "pool" 32 rfl
  have sol := numberIn_unsigned hr "sol_amount" 8 rfl
  have tokens := numberIn_unsigned hr "mint_amount" 8 rfl
  rw [attemptReport, pool, sol, tokens]
  rfl

theorem Attempt.caught_after (slot : Int) (a : Attempt) (log : List Log.Entry) (refused : Nat) :
    (a.after log refused).caught slot = (a.caught slot).after log refused := by
  obtain ⟨s, f⟩ := a
  cases f with
  | none => rfl
  | some f => simp [caught, Attempt.after, Scan.after, Nat.add_assoc]

/-- What is caught of a call, if it is known what is caught of the rest. -/
theorem caught_attemptCall (t : Transaction) (now : Except ClockError Int) (position : Nat) (mint : String)
    (rest : Attempt) : (attemptCall t now position mint rest).caught t.slot =
      let (short, record) := findRecord migrateEventTag migrateEvent (t.innerOf position)
      let log := short.map fun n => Log.debug s!"Migrate event too short: {n} bytes"
      match record with
      | none => (rest.caught t.slot).after log short.length
      | some r => match now with
        | .error e => (Scan.broken t.slot e.message 1).after log short.length
        | .ok ms => ⟨some (report t mint ms r), 1, short.length, log⟩ := by
  simp only [attemptCall, search_eq]
  cases hrecord : (findRecord migrateEventTag migrateEvent (t.innerOf position)).2 with
  | none => exact Attempt.caught_after _ _ _ _
  | some r =>
    obtain ⟨b, hr⟩ := parse_of_findRecord hrecord
    cases now with
    | error e => rfl
    | ok ms =>
      simp only [Except.mapError, Except.bind, attemptReport_eq t mint ms hr]
      rfl

/-- At a known time a call adds no fault to those of the rest. -/
theorem attemptCall_snd (t : Transaction) (ms : Int) (position : Nat) (mint : String) {rest : Attempt}
    (h : rest.2 = none) : (attemptCall t (.ok ms) position mint rest).2 = none := by
  simp only [attemptCall, search_eq]
  cases hrecord : (findRecord migrateEventTag migrateEvent (t.innerOf position)).2 with
  | none => exact h
  | some r =>
    obtain ⟨b, hr⟩ := parse_of_findRecord hrecord
    simp only [Except.mapError, Except.bind, attemptReport_eq t mint ms hr]

/-! ### One transaction -/

/-- The walk is the scan of the calls of the program. -/
theorem caught_attemptFrom (program : String) (t : Transaction) (now : Except ClockError Int) :
    ∀ l : List (Instruction × Nat), (attemptFrom program t now l).caught t.slot =
      scan t now (l.filterMap fun (ix, position) =>
        if t.programOf? ix = some program then some (position, ix) else none)
  | [] => rfl
  | (ix, position) :: rest => by
    have ih := caught_attemptFrom program t now rest
    simp only [attemptFrom, programOf_eq, List.filterMap_cons]
    by_cases hp : t.programOf? ix = some program
    · simp only [hp, ne_eq, not_true_eq_false, false_or, if_true, scan]
      split
      · exact ih
      split
      · rw [Attempt.caught_after, ih]
      rcases t.account ix 2 with e | _ | mint
      · rfl
      · simp only [Attempt.caught_after, ih]
      · have hcall := caught_attemptCall t now position mint (attemptFrom program t now rest)
        rw [ih] at hcall
        exact hcall
    · simpa only [hp, ne_eq, not_false_eq_true, true_or, if_true, if_false] using ih

/-- **Reading migrations is an attempt whose fault is handled.** -/
theorem read_eq_handled (d : Migrations) (now : Except ClockError Int) (t : Transaction) :
    d.read now t = d.handled t (d.attempt now t) := by
  rw [handled, attempt, caught_attemptFrom, ← t.callsTo_eq_filterMap]
  rfl

theorem attemptFrom_of_forward (program : String) (t : Transaction) (ms : Int) :
    ∀ l : List (Instruction × Nat), (∀ x ∈ l, Forward x.1) → (attemptFrom program t (.ok ms) l).2 = none
  | [], _ => rfl
  | (ix, position) :: rest, h => by
    have ih := attemptFrom_of_forward program t ms rest fun x hx => h x (List.mem_cons_of_mem _ hx)
    have hmint : t.account ix 2 = .ok (t.keyAt ix 2) := t.account_eq (h _ List.mem_cons_self) 2
    simp only [attemptFrom, programOf_eq, hmint]
    split
    · exact ih
    split
    · exact ih
    cases t.keyAt ix 2 with
    | none => exact ih
    | some mint => exact attemptCall_snd t ms position mint ih

theorem failures_read {t : Transaction} (h : ∀ ix ∈ t.instructions, Forward ix) (d : Migrations) (ms : Int) :
    (d.read (.ok ms) t).2.1.failures = d.failures + (cutShort t (named d.program t)).length := by
  have hcalls : ∀ x ∈ t.callsTo d.program, Forward x.2 := fun x hx => h x.2 (Transaction.mem_of_mem_callsTo hx)
  have agrees := scan_agrees t ms _ hcalls
  rw [naming_callsTo] at agrees
  rw [read, agrees.refused]

/-- The reader after some transactions, each read at a time of its own. -/
def after (d : Migrations) (input : List (Except ClockError Int × Transaction)) : Migrations :=
  input.foldl (fun d (now, t) => (d.read now t).2.1) d

end Migrations

/-! ## What comes from the stream -/

theorem forward_toTransaction (u : Wire.Update) : ∀ ix ∈ u.toTransaction.instructions, Forward ix := by
  intro ix hix
  obtain ⟨c, -, rfl⟩ := List.mem_map.1 hix
  intro a ha
  obtain ⟨b, -, rfl⟩ := List.mem_map.1 ha
  exact Int.natCast_nonneg _

/-- The transactions of some updates, each with the time at which it is read. -/
def arrivals (input : List (Int × Wire.Update)) : List (Except ClockError Int × Transaction) :=
  input.map fun (ms, u) => (.ok ms, u.toTransaction)

theorem Swaps.failures_arrivals : ∀ (input : List (Int × Wire.Update)) (d : Swaps),
    (d.after (arrivals input)).failures =
      d.failures + input.countP fun x => Swaps.refuses d.program x.2.toTransaction
  | [], _ => rfl
  | (ms, u) :: rest, d => by
    have ih := Swaps.failures_arrivals rest (d.read (.ok ms) u.toTransaction).2.1
    rw [Swaps.program_read, Swaps.failures_read (forward_toTransaction u)] at ih
    rw [List.countP_cons]
    refine ih.trans ?_
    cases Swaps.refuses d.program u.toTransaction with
    | true =>
      simp
      omega
    | false => simp

theorem Migrations.failures_arrivals : ∀ (input : List (Int × Wire.Update)) (d : Migrations),
    (d.after (arrivals input)).failures = d.failures + (input.map fun x =>
      (Migrations.cutShort x.2.toTransaction (Migrations.named d.program x.2.toTransaction)).length).sum
  | [], _ => rfl
  | (ms, u) :: rest, d => by
    have ih := Migrations.failures_arrivals rest (d.read (.ok ms) u.toTransaction).2.1
    rw [Migrations.failures_read (forward_toTransaction u)] at ih
    rw [List.map_cons, List.sum_cons, ← Nat.add_assoc]
    exact ih

/-- **Nothing breaks a reading of the stream off.** A reading is an attempt whose fault is handled, and an attempt at a
transaction from the stream has no fault. So the failures of the reader of swaps are the transactions whose first known
call is too short or cannot be resolved, and those of the reader of migrations are the payloads that are cut short. -/
theorem readings_unbroken (s : Swaps) (m : Migrations) :
    (∀ now t, s.read now t = s.handled t (s.attempt now t) ∧ m.read now t = m.handled t (m.attempt now t)) ∧
    (∀ ms (u : Wire.Update), (∃ scan, s.attempt (.ok ms) u.toTransaction = .ok scan) ∧
      (m.attempt (.ok ms) u.toTransaction).2 = none) ∧
    ∀ input : List (Int × Wire.Update),
      (s.after (arrivals input)).failures =
        s.failures + input.countP (fun x => Swaps.refuses s.program x.2.toTransaction) ∧
      (m.after (arrivals input)).failures = m.failures + (input.map fun x =>
        (Migrations.cutShort x.2.toTransaction (Migrations.named m.program x.2.toTransaction)).length).sum := by
  refine ⟨fun now t => ⟨s.read_eq_handled now t, m.read_eq_handled now t⟩, fun ms u => ?_, fun input => ?_⟩
  · have hforward := forward_toTransaction u
    refine ⟨Swaps.attempt_of_forward hforward s ms, ?_⟩
    exact Migrations.attemptFrom_of_forward m.program _ ms _ fun x hx => hforward x.1 (List.fst_mem_of_mem_zipIdx hx)
  · exact ⟨Swaps.failures_arrivals input s, Migrations.failures_arrivals input m⟩

end PoolFeed.Chain
