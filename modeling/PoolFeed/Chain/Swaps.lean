import PoolFeed.Chain.Layouts
import PoolFeed.Clock
import PoolFeed.Event
import PoolFeed.Log

/-!
# Reading pool creations and trades

| here | there |
| --- | --- |
| `Swaps` | `PumpSwapDecoder` with its counters |
| `read`, `firstCall` | `PumpSwapDecoder.decode`, and its loop over the calls of the program |
| `scan` | `_decode_create_pool`, `_decode_trade`, with the `except` of `decode` |
| `draftPool`, `mergePool` | the `CreatePoolEvent` of `_decode_create_pool`, and what it takes from the event record |
| `draftTrade`, `mergeTrade`, `executedPrice` | the `TradeEvent` of `_decode_trade`, likewise |
| `merged` | both, once `_find_event` has answered |

Only the first call of the program with a known tag counts. Its arguments carry the user's limits, so
the event is drafted from them and then filled in from the program's own event, if there is one.
-/

namespace PoolFeed.Chain

/-- A reader of pool creations and trades and what it has counted. -/
structure Swaps where
  program : String := pumpSwapProgram
  successes : Nat := 0
  failures : Nat := 0
  unconfirmed : Nat := 0
  deriving DecidableEq

namespace Swaps

/-- The calls that are read. -/
inductive Call where
  | trade (side : Side)
  | createPool
  deriving DecidableEq

/-- The call that an instruction's data makes, if it is one of the known ones. -/
def Call.ofData? (data : Bytes) : Option Call :=
  let tag := data.take 8
  if tag = buyCall then some (.trade .buy)
  else if tag = sellCall then some (.trade .sell)
  else if tag = createPoolCall then some .createPool
  else none

def Call.name : Call → String
  | .trade side => side.name
  | .createPool => "CreatePool"

def Call.args : Call → Layout
  | .trade .buy => buyArgs
  | .trade .sell => sellArgs
  | .createPool => createPoolArgs

/-- The position of the account that acts: the user of a trade, the creator of a pool. -/
def Call.actorPosition : Call → Int
  | .trade _ => 1
  | .createPool => 2

def Call.eventTag : Call → Bytes
  | .trade .buy => buyEventTag
  | .trade .sell => sellEventTag
  | .createPool => createPoolEventTag

def Call.event : Call → Layout
  | .trade _ => tradeEvent
  | .createPool => createPoolEvent

/-- The first call of a known kind, with its position. -/
def firstCall : List (Nat × Instruction) → Option (Nat × Instruction × Call)
  | [] => none
  | (position, ix) :: rest =>
    match Call.ofData? ix.data with
    | some call => some (position, ix, call)
    | none => firstCall rest

/-- The accounts that every event names. -/
structure Parties where
  pool : String
  actor : String
  baseMint : String
  quoteMint : String
  deriving DecidableEq

/-- The named accounts of a call; none if one of them lies past the account table. -/
def parties (t : Transaction) (ix : Instruction) (call : Call) : Except ReferenceError (Option Parties) := do
  let pool ← t.account ix 0
  let actor ← t.account ix call.actorPosition
  let baseMint ← t.account ix 3
  let quoteMint ← t.account ix 4
  return do return ⟨← pool, ← actor, ← baseMint, ← quoteMint⟩

/-- Fills the pool's own decimals in. -/
def mergePool (c : PoolCreation) : Option Record → PoolCreation
  | none => c
  | some r => { c with
      baseDecimals := r.number "base_mint_decimals"
      quoteDecimals := r.number "quote_mint_decimals" }

/-- Tokens per unit of quote amount, zero unless both are positive. -/
def executedPrice (tokens quote : Int) : Binary64 :=
  if 0 < tokens ∧ 0 < quote then Binary64.ofRatio false tokens.natAbs quote.natAbs else Binary64.zero

/-- Fills the executed quote amount, the fees and the price in. -/
def mergeTrade (d : Trade) : Option Record → Trade
  | none => d
  | some r => { d with
      lpFee := r.number "lp_fee"
      protocolFee := r.number "protocol_fee"
      solAmount := r.number "user_quote_amount"
      price := executedPrice d.tokenAmount (r.number "user_quote_amount") }

def draftPool (t : Transaction) (p : Parties) (timestamp : Int) (args : Record) : PoolCreation where
  signature := t.signatureText
  slot := t.slot
  timestamp := timestamp
  pool := p.pool
  creator := p.actor
  baseMint := p.baseMint
  quoteMint := p.quoteMint
  baseAmount := args.number "base_amount_in"
  quoteAmount := args.number "quote_amount_in"

def draftTrade (t : Transaction) (p : Parties) (timestamp : Int) (side : Side) (args : Record) : Trade :=
  let (tokens, limit) := match side with
    | .buy => (args.number "base_amount_out", args.number "max_quote_amount_in")
    | .sell => (args.number "base_amount_in", args.number "min_quote_amount_out")
  { signature := t.signatureText, slot := t.slot, timestamp := timestamp, side := side
    pool := p.pool, user := p.actor, baseMint := p.baseMint, quoteMint := p.quoteMint
    tokenAmount := tokens, solAmount := limit, limitSolAmount := limit }

/-- What one transaction gave: the event, whether it is an unconfirmed trade, and whether a call was
there but could not be used. -/
structure Scan where
  event : Option Event := none
  provisional : Bool := false
  refused : Bool := false
  log : List Log.Entry := []
  deriving DecidableEq

def Scan.refusal (log : List Log.Entry) : Scan := ⟨none, false, true, log⟩

def Scan.broken (slot : Int) (reason : String) : Scan :=
  .refusal [Log.debug s!"PumpSwap decode error: {reason}" [.slot slot]]

/-- The event of a call, drafted from its arguments and filled in from the inner instructions. -/
def merged (t : Transaction) (position : Nat) (call : Call) (p : Parties) (timestamp : Int) (args : Record) : Scan :=
  let (short, record) := findRecord call.eventTag call.event (t.innerOf position)
  let log := short.map fun n => Log.debug s!"PumpSwap event too short: {n} bytes"
  match call with
  | .createPool => ⟨some (.poolCreation (mergePool (draftPool t p timestamp args) record)), false, false, log⟩
  | .trade side => ⟨some (.trade (mergeTrade (draftTrade t p timestamp side args) record)), record.isNone, false, log⟩

/-- Reads one call. -/
def scan (t : Transaction) (now : Except ClockError Int) (position : Nat) (ix : Instruction) (call : Call) : Scan :=
  let args := ix.data.drop 8
  if args.length < call.args.size ∨ ix.accounts.length < swapMinAccounts then
    .refusal [Log.debug
      s!"{call.name} instruction too short: {args.length} arg bytes, {ix.accounts.length} accounts"
      [.signature t.signatureText]]
  else match parties t ix call with
    | .error e => .broken t.slot e.message
    | .ok none => .refusal [Log.debug "Instruction account index out of range" [.signature t.signatureText]]
    | .ok (some p) => match now with
      | .error e => .broken t.slot e.message
      | .ok ms => merged t position call p ms ((call.args.parse? args).getD [])

/-- The event of the first known call of a transaction. -/
def read (d : Swaps) (now : Except ClockError Int) (t : Transaction) : Option Event × Swaps × List Log.Entry :=
  match firstCall (t.callsTo d.program) with
  | none => (none, d, [])
  | some (position, ix, call) =>
    let s := scan t now position ix call
    let d := { d with
      successes := d.successes + s.event.isSome.toNat
      failures := d.failures + s.refused.toNat
      unconfirmed := d.unconfirmed + s.provisional.toNat }
    (s.event, d, s.log)

end Swaps

end PoolFeed.Chain
