import PoolFeed.Ledger
import PoolFeed.Proofs.Roster
import Mathlib.Data.List.Forall2
import Mathlib.Data.List.Induction

/-!
# What a ledger keeps

| here | there |
| --- | --- |
| `Call`, `Session` | calls of `TradeStore.upsert_pool`, `insert_trade`, `get_pool`, `get_recent_trades` and `close` |
| `FirstWins` | "the first write for an address wins", "ignores a repeated `tx_hash`" (`TradeStore`) |

A session with a ledger is any sequence of writes and readings, with a closing somewhere or nowhere. Its past tells
what was asked and what was answered. `session_keeps_first` says that the tables are what the past makes of them: under
each key the first write that has not failed, and nothing else; that the counters count the rows and the failures; and
that a write fails only if its entry breaks a rule or the ledger is closed.
-/

namespace PoolFeed

/-! ## Entries -/

/-- A pool that keeps the rules has a row with its fields. -/
theorem PoolEntry.row?_eq_some_iff {e : PoolEntry} {row : PoolRow} :
    e.row? = some row ↔ e = row.entry ∧ fits32 row.baseDecimals ∧ fits32 row.quoteDecimals := by
  obtain ⟨address, baseMint, quoteMint, baseDecimals, quoteDecimals⟩ := e
  obtain ⟨address', baseMint', quoteMint', baseDecimals', quoteDecimals'⟩ := row
  simp only [row?, PoolRow.entry, mk.injEq]
  cases address <;> cases baseMint <;> cases quoteMint <;> cases baseDecimals <;> cases quoteDecimals <;>
    simp [and_assoc]
  grind

/-- A trade without a missing field has a row with its fields. -/
theorem TradeEntry.row?_eq_some_iff {e : TradeEntry} {micros : Int} {row : TradeRow} :
    e.row? micros = some row ↔ row.time = micros ∧
      e = ⟨some row.txHash, e.time, some row.pool, some row.side, some row.price, some row.baseAmount,
        some row.quoteAmount⟩ := by
  obtain ⟨txHash, time, pool, side, price, baseAmount, quoteAmount⟩ := e
  obtain ⟨txHash', time', pool', side', price', baseAmount', quoteAmount'⟩ := row
  simp only [row?, mk.injEq]
  cases txHash <;> cases pool <;> cases side <;> cases price <;> cases baseAmount <;> cases quoteAmount <;> simp
  grind

/-- The row has the fields of the entry, and its time as a date. -/
def TradeRow.Records (row : TradeRow) (e : TradeEntry) : Prop :=
  ∃ ms, Calendar.microsOfMillis ms = .ok row.time ∧
    e = ⟨some row.txHash, some ms, some row.pool, some row.side, some row.price, some row.baseAmount,
      some row.quoteAmount⟩

/-- The time of an entry has a date. -/
def TradeEntry.Dated (e : TradeEntry) : Prop :=
  ∃ ms micros, e.time = some ms ∧ Calendar.microsOfMillis ms = .ok micros

theorem TradeRow.Records.dated {row : TradeRow} {e : TradeEntry} (h : row.Records e) : e.Dated := by
  obtain ⟨ms, hdate, rfl⟩ := h
  exact ⟨ms, row.time, rfl, hdate⟩

namespace Ledger

/-! ## Sessions -/

/-- What is asked of a ledger. -/
inductive Call where
  | savePool (e : PoolEntry)
  | saveTrade (e : TradeEntry)
  | pool? (address : Option String)
  | recent (pool : Option String) (limit : Option Int)
  | close

inductive Answer where
  /-- To a write. -/
  | saved (result : Except LedgerError Unit)
  | pool (result : Except LedgerError (Option PoolRow))
  | trades (result : Except LedgerError (List TradeRow))
  | closed

def answer (l : Ledger) : Call → Answer × Ledger
  | .savePool e => (.saved (l.savePool e).1, (l.savePool e).2)
  | .saveTrade e => (.saved (l.saveTrade e).1, (l.saveTrade e).2)
  | .pool? address => (.pool (l.pool? address), l)
  | .recent pool limit => (.trades (l.recent pool limit), l)
  | .close => (.closed, l.close.1)

/-- A ledger with what was asked of it so far, each with its answer. -/
structure Session where
  ledger : Ledger
  past : List (Call × Answer) := []

def Session.step (s : Session) (c : Call) : Session where
  ledger := (s.ledger.answer c).2
  past := s.past ++ [(c, (s.ledger.answer c).1)]

/-- A session with a fresh ledger. -/
def session (path : String) (calls : List Call) : Session := calls.foldl Session.step { ledger := { path := path } }

theorem session_concat (path : String) (calls : List Call) (c : Call) :
    session path (calls ++ [c]) = (session path calls).step c := by
  simp only [session, List.foldl_append, List.foldl_cons, List.foldl_nil]

/-- The pool that a call has saved under an address, or would have saved if it had not been known. -/
def savedPool? (address : String) : Call × Answer → Option PoolEntry
  | (.savePool e, .saved (.ok ())) => if e.address = some address then some e else none
  | _ => none

def savedTrade? (txHash : String) : Call × Answer → Option TradeEntry
  | (.saveTrade e, .saved (.ok ())) => if e.txHash = some txHash then some e else none
  | _ => none

/-- The pool of the first write under an address that has not failed. -/
def firstPool? (past : List (Call × Answer)) (address : String) : Option PoolEntry :=
  past.findSome? (savedPool? address)

def firstTrade? (past : List (Call × Answer)) (txHash : String) : Option TradeEntry :=
  past.findSome? (savedTrade? txHash)

/-- A write that has failed, and counts as one. -/
def isFailure : Call × Answer → Bool
  | (_, .saved (.error e)) => e.counts
  | _ => false

/-! ## What a write does -/

/-- All that a write can do: its error is counted or not, or its row is put down unless its key is known. -/
inductive Write (l : Ledger) : Call → Except LedgerError Unit → Ledger → Prop
  | failed {c : Call} (e : LedgerError) : Write l c (.error e) (l.failed e).2
  | knownPool (row : PoolRow) (known : l.pools.has row.address) : Write l (.savePool row.entry) (.ok ()) l
  | newPool (row : PoolRow) (new : l.pools.has row.address = false) : Write l (.savePool row.entry) (.ok ())
      { l with pools := l.pools.put row.address row, poolsWritten := l.poolsWritten + 1 }
  | knownTrade (row : TradeRow) (e : TradeEntry) (records : row.Records e) (known : l.trades.has row.txHash) :
      Write l (.saveTrade e) (.ok ()) l
  | newTrade (row : TradeRow) (e : TradeEntry) (records : row.Records e) (new : l.trades.has row.txHash = false) :
      Write l (.saveTrade e) (.ok ())
        { l with trades := l.trades.put row.txHash row, tradesWritten := l.tradesWritten + 1 }

theorem savePool_write (l : Ledger) (e : PoolEntry) : Write l (.savePool e) (l.savePool e).1 (l.savePool e).2 := by
  unfold savePool
  split
  · cases hrow : e.row? with
    | none => exact .failed .violation
    | some row =>
      obtain ⟨rfl, -, -⟩ := PoolEntry.row?_eq_some_iff.1 hrow
      dsimp only
      split
      · rename_i known
        exact .knownPool row known
      · rename_i new
        exact .newPool row (by simpa using new)
  · exact .failed .closed

theorem saveTrade_write (l : Ledger) (e : TradeEntry) : Write l (.saveTrade e) (l.saveTrade e).1 (l.saveTrade e).2 := by
  unfold saveTrade
  cases htime : e.time with
  | none => exact .failed .noTime
  | some ms =>
    cases hdate : Calendar.microsOfMillis ms with
    | error d => simp only [hdate]; exact .failed (.date d)
    | ok micros =>
      simp only [hdate]
      split
      · cases hrow : e.row? micros with
        | none => exact .failed .violation
        | some row =>
          obtain ⟨rfl, hfields⟩ := TradeEntry.row?_eq_some_iff.1 hrow
          have records : row.Records e := ⟨ms, hdate, by rw [hfields, htime]⟩
          dsimp only
          split
          · rename_i known
            exact .knownTrade row e records known
          · rename_i new
            exact .newTrade row e records (by simpa using new)
      · exact .failed .closed

/-! ## The invariant -/

/-- Of the entries that the past has for a key the first has the row under it, and the rows are counted. -/
structure FirstWins {ρ ε : Type} (key : ρ → String) (Records : ρ → ε → Prop) (saved? : String → Call × Answer → Option ε)
    (table : Roster ρ) (count : Nat) (past : List (Call × Answer)) : Prop where
  first : ∀ k, Option.Rel Records (table.get? k) (past.findSome? (saved? k))
  nodup : table.keys.Nodup
  named : ∀ x ∈ table, key x.2 = x.1
  counted : count = table.length

namespace FirstWins

variable {ρ ε : Type} {key : ρ → String} {Records : ρ → ε → Prop} {saved? : String → Call × Answer → Option ε}
  {table : Roster ρ} {count : Nat} {past : List (Call × Answer)} {x : Call × Answer} {row : ρ} {e : ε}

theorem empty (key : ρ → String) (Records : ρ → ε → Prop) (saved? : String → Call × Answer → Option ε) :
    FirstWins key Records saved? [] 0 [] :=
  ⟨fun _ => .none, List.nodup_nil, nofun, rfl⟩

theorem findSome?_concat (f : Call × Answer → Option ε) (past : List (Call × Answer)) (x : Call × Answer) :
    (past ++ [x]).findSome? f = (past.findSome? f).or (f x) := by
  rw [List.findSome?_append, List.findSome?_singleton]

/-- What saves no entry leaves the table as it is. -/
theorem skip (h : FirstWins key Records saved? table count past) (hx : ∀ k, saved? k x = none) :
    FirstWins key Records saved? table count (past ++ [x]) :=
  { h with first := fun k => by rw [findSome?_concat, hx, Option.or_none]; exact h.first k }

/-- A key that is known keeps the row that it has. -/
theorem known (h : FirstWins key Records saved? table count past)
    (hx : ∀ k, saved? k x = if key row = k then some e else none) (known : table.has (key row)) :
    FirstWins key Records saved? table count (past ++ [x]) :=
  { h with
    first := fun k => by
      have hold := h.first k
      rw [findSome?_concat, hx]
      by_cases hk : key row = k
      · obtain ⟨old, hget⟩ := Option.isSome_iff_exists.1 known
        rw [← hk, hget] at hold ⊢
        cases hfirst : past.findSome? (saved? (key row)) with
        | none => rw [hfirst] at hold; cases hold
        | some e' => rw [hfirst] at hold; exact hold
      · rw [if_neg hk, Option.or_none]
        exact hold }

/-- A new key gets the row. -/
theorem new (h : FirstWins key Records saved? table count past)
    (hx : ∀ k, saved? k x = if key row = k then some e else none) (records : Records row e)
    (new : table.has (key row) = false) :
    FirstWins key Records saved? (table.put (key row) row) (count + 1) (past ++ [x]) where
  first k := by
    have hold := h.first k
    rw [findSome?_concat, Roster.get?_put, hx]
    by_cases hk : k = key row
    · have hnone : table.get? (key row) = none := by simpa [Roster.has] using new
      rw [hk, hnone] at hold
      cases hfirst : past.findSome? (saved? (key row)) with
      | none =>
        rw [hk, hfirst, if_pos rfl, if_pos rfl, Option.none_or]
        exact .some records
      | some e' => rw [hfirst] at hold; cases hold
    · rw [if_neg hk, if_neg (Ne.symm hk), Option.or_none]
      exact hold
  nodup := Roster.nodup_keys_put h.nodup
  named x hx := by
    obtain rfl | hx := Roster.mem_put hx
    · rfl
    · exact h.named x hx
  counted := by simp [Roster.length_put, new, h.counted]

/-- The rows that have a key are one, or none. -/
theorem rows (h : FirstWins key Records saved? table count past) (k : String) :
    List.Forall₂ Records ((table.map (·.2)).filter (fun row => key row = k)) (past.findSome? (saved? k)).toList := by
  rw [Roster.filter_values h.nodup h.named]
  have hfirst := h.first k
  generalize table.get? k = row? at hfirst ⊢
  generalize past.findSome? (saved? k) = e? at hfirst ⊢
  cases hfirst with
  | none => exact .nil
  | some records => exact .cons records .nil

end FirstWins

/-- The pools are what the past makes of them, and are counted. -/
def PoolTable : Roster PoolRow → Nat → List (Call × Answer) → Prop :=
  FirstWins PoolRow.address (fun row e => row.entry = e) savedPool?

def TradeTable : Roster TradeRow → Nat → List (Call × Answer) → Prop :=
  FirstWins TradeRow.txHash TradeRow.Records savedTrade?

structure Keeps (s : Session) : Prop where
  pools : PoolTable s.ledger.pools s.ledger.poolsWritten s.past
  trades : TradeTable s.ledger.trades s.ledger.tradesWritten s.past
  failures : s.ledger.writeErrors = s.past.countP isFailure
  isOpen : s.ledger.isOpen ↔ Call.close ∉ s.past.map (·.1)

theorem savedPool?_entry (row : PoolRow) (address : String) :
    savedPool? address (.savePool row.entry, .saved (.ok ())) = if row.address = address then some row.entry else none := by
  simp [savedPool?, PoolRow.entry]

theorem TradeRow.Records.savedTrade? {row : TradeRow} {e : TradeEntry} (records : row.Records e) (txHash : String) :
    savedTrade? txHash (.saveTrade e, .saved (.ok ())) = if row.txHash = txHash then some e else none := by
  obtain ⟨ms, -, rfl⟩ := records
  simp [Ledger.savedTrade?]

theorem PoolTable.get? {table : Roster PoolRow} {count : Nat} {past : List (Call × Answer)}
    (h : PoolTable table count past) (address : String) :
    (table.get? address).map PoolRow.entry = firstPool? past address := by
  have hfirst := h.first address
  change _ = past.findSome? (savedPool? address)
  generalize table.get? address = row? at hfirst ⊢
  generalize past.findSome? (savedPool? address) = entry? at hfirst ⊢
  cases hfirst with
  | none => rfl
  | some hentry => exact congrArg some hentry

theorem keeps_start (path : String) : Keeps { ledger := { path := path } } where
  pools := .empty _ _ _
  trades := .empty _ _ _
  failures := rfl
  isOpen := by simp

variable {s : Session} {c : Call} {l : Ledger} {result : Except LedgerError Unit}

/-- What is only read is only remembered. -/
theorem Keeps.read (h : Keeps s) {x : Call × Answer} (hpool : ∀ address, savedPool? address x = none)
    (htrade : ∀ txHash, savedTrade? txHash x = none) (hfailure : isFailure x = false) (hclose : x.1 ≠ .close) :
    Keeps ⟨s.ledger, s.past ++ [x]⟩ where
  pools := h.pools.skip hpool
  trades := h.trades.skip htrade
  failures := by rw [List.countP_append, List.countP_singleton, hfailure]; exact h.failures
  isOpen := by simp [h.isOpen, Ne.symm hclose]

theorem Keeps.failed (h : Keeps s) (e : LedgerError) (hclose : c ≠ .close) :
    Keeps ⟨(s.ledger.failed e).2, s.past ++ [(c, .saved (.error e))]⟩ := by
  have hpool : ∀ address, savedPool? address (c, .saved (.error e)) = none := by intro; cases c <;> rfl
  have htrade : ∀ txHash, savedTrade? txHash (c, .saved (.error e)) = none := by intro; cases c <;> rfl
  cases hcounts : e.counts with
  | false =>
    rw [Ledger.failed, hcounts]
    exact h.read hpool htrade hcounts hclose
  | true =>
    rw [Ledger.failed, hcounts]
    refine ⟨h.pools.skip hpool, h.trades.skip htrade, ?_, ?_⟩
    · rw [List.countP_append, List.countP_singleton, if_pos (show isFailure (c, .saved (.error e)) from hcounts),
        ← h.failures]
      rfl
    · simp [h.isOpen, Ne.symm hclose]

theorem Keeps.write (h : Keeps s) (hw : Write s.ledger c result l) (hclose : c ≠ .close) :
    Keeps ⟨l, s.past ++ [(c, .saved result)]⟩ := by
  have hfailures : result = .ok () →
      s.ledger.writeErrors = (s.past ++ [(c, Answer.saved result)]).countP isFailure := by
    rintro rfl
    simpa [isFailure] using h.failures
  have hopen : s.ledger.isOpen ↔ Call.close ∉ (s.past ++ [(c, Answer.saved result)]).map (·.1) := by
    simp [h.isOpen, Ne.symm hclose]
  cases hw with
  | failed e => exact h.failed e hclose
  | knownPool row known =>
    exact ⟨h.pools.known (savedPool?_entry row) known, h.trades.skip fun _ => rfl, hfailures rfl, hopen⟩
  | newPool row new =>
    exact ⟨h.pools.new (savedPool?_entry row) rfl new, h.trades.skip fun _ => rfl, hfailures rfl, hopen⟩
  | knownTrade row e records known =>
    exact ⟨h.pools.skip fun _ => rfl, h.trades.known (TradeRow.Records.savedTrade? records) known, hfailures rfl, hopen⟩
  | newTrade row e records new =>
    exact ⟨h.pools.skip fun _ => rfl, h.trades.new (TradeRow.Records.savedTrade? records) records new, hfailures rfl, hopen⟩

theorem close_eq (l : Ledger) : l.close.1 = { l with isOpen := false } := by
  unfold close
  split
  · rfl
  · rename_i hclosed
    rw [← Bool.eq_false_iff.2 hclosed]

theorem Keeps.close (h : Keeps s) : Keeps ⟨s.ledger.close.1, s.past ++ [(.close, .closed)]⟩ := by
  rw [close_eq]
  exact ⟨h.pools.skip fun _ => rfl, h.trades.skip fun _ => rfl, by simpa [isFailure] using h.failures, by simp⟩

theorem Keeps.step (h : Keeps s) (c : Call) : Keeps (s.step c) := by
  cases c with
  | savePool e => exact h.write (savePool_write s.ledger e) nofun
  | saveTrade e => exact h.write (saveTrade_write s.ledger e) nofun
  | pool? address => exact h.read (fun _ => rfl) (fun _ => rfl) rfl nofun
  | recent pool limit => exact h.read (fun _ => rfl) (fun _ => rfl) rfl nofun
  | close => exact h.close

theorem session_keeps (path : String) (calls : List Call) : Keeps (session path calls) := by
  induction calls using List.reverseRecOn with
  | nil => exact keeps_start path
  | append_singleton calls c ih =>
    rw [session_concat]
    exact ih.step c

/-! ## The laws -/

def Call.isWrite : Call → Bool
  | .savePool _ | .saveTrade _ => true
  | .pool? _ | .recent _ _ | .close => false

/-- The time of a trade has a date. -/
def Call.Dated : Call → Prop
  | .saveTrade e => e.Dated
  | .savePool _ | .pool? _ | .recent _ _ | .close => True

/-- A write keeps the rules: no field is missing, the decimals fit and the time has a date. -/
def Call.Valid : Call → Prop
  | .savePool e => ∃ row : PoolRow, e = row.entry ∧ fits32 row.baseDecimals ∧ fits32 row.quoteDecimals
  | .saveTrade e => ∃ row : TradeRow, row.Records e
  | .pool? _ | .recent _ _ | .close => False

/-- A write has a key that is known. -/
def Call.Repeats (l : Ledger) : Call → Prop
  | .savePool e => ∃ address, e.address = some address ∧ l.pools.has address
  | .saveTrade e => ∃ txHash, e.txHash = some txHash ∧ l.trades.has txHash
  | .pool? _ | .recent _ _ | .close => False

/-- What a ledger does when it is called. -/
structure Orderly (l : Ledger) (c : Call) : Prop where
  /-- A write is done if it keeps the rules and the ledger is open, and only then. -/
  done : c.isWrite → ((l.answer c).1 = .saved (.ok ()) ↔ l.isOpen ∧ c.Valid)
  /-- A write that fails is counted and changes nothing else. -/
  failed : c.Dated → ∀ e, (l.answer c).1 = .saved (.error e) →
    e = (if l.isOpen then .violation else .closed) ∧ (l.answer c).2 = { l with writeErrors := l.writeErrors + 1 }
  /-- A write under a known key is passed over. -/
  repeated : l.isOpen → c.Valid → c.Repeats l → l.answer c = (.saved (.ok ()), l)
  reads : c.isWrite = false → c ≠ .close → (l.answer c).2 = l

variable {c : Call} {e : LedgerError}

theorem Orderly.refused (ha : l.answer c = (.saved (l.failed e).1, (l.failed e).2)) (hwrite : c.isWrite)
    (hvalid : ¬ (l.isOpen ∧ c.Valid)) (he : c.Dated → e = if l.isOpen then .violation else .closed) : Orderly l c where
  done _ := by simp [ha, Ledger.failed, hvalid]
  failed hdated err h := by
    rw [ha, Ledger.failed] at h
    cases h
    refine ⟨he hdated, ?_⟩
    have hcounts : e.counts := by rw [he hdated]; split <;> rfl
    rw [ha, Ledger.failed, if_pos hcounts]
  repeated hopen hv := absurd ⟨hopen, hv⟩ hvalid
  reads h := absurd (hwrite.symm.trans h) nofun

theorem Orderly.accepted (ha : (l.answer c).1 = .saved (.ok ())) (hwrite : c.isWrite) (hvalid : l.isOpen ∧ c.Valid)
    (hknown : c.Repeats l → (l.answer c).2 = l) : Orderly l c where
  done _ := iff_of_true ha hvalid
  failed _ err h := by rw [ha] at h; cases h
  repeated _ _ h := Prod.ext ha (hknown h)
  reads h := absurd (hwrite.symm.trans h) nofun

theorem orderly_savePool (l : Ledger) (e : PoolEntry) : Orderly l (.savePool e) := by
  cases hopen : l.isOpen with
  | false =>
    have hclosed : l.savePool e = l.failed .closed := by simp [savePool, hopen]
    exact .refused (by rw [answer, hclosed]) rfl (by simp [hopen]) fun _ => by simp [hopen]
  | true =>
    cases hrow : e.row? with
    | none =>
      have hrefused : l.savePool e = l.failed .violation := by simp [savePool, hopen, hrow]
      refine .refused (by rw [answer, hrefused]) rfl ?_ fun _ => by simp [hopen]
      rintro ⟨-, row, hfields⟩
      rw [PoolEntry.row?_eq_some_iff.2 hfields] at hrow
      cases hrow
    | some row =>
      have hfields := PoolEntry.row?_eq_some_iff.1 hrow
      have hsave : l.savePool e = if l.pools.has row.address then (.ok (), l) else (.ok (), { l with
          pools := l.pools.put row.address row, poolsWritten := l.poolsWritten + 1 }) := by
        simp only [savePool, hopen, if_true, hrow]
      refine .accepted (by rw [answer, hsave]; split <;> rfl) rfl ⟨hopen, row, hfields⟩ ?_
      rintro ⟨address, ha, hknown⟩
      rw [hfields.1, PoolRow.entry, Option.some.injEq] at ha
      rw [answer, hsave, ha, if_pos hknown]

theorem orderly_saveTrade (l : Ledger) (e : TradeEntry) : Orderly l (.saveTrade e) := by
  by_cases hdated : e.Dated
  · obtain ⟨ms, micros, htime, hdate⟩ := hdated
    cases hopen : l.isOpen with
    | false =>
      have hclosed : l.saveTrade e = l.failed .closed := by simp [saveTrade, htime, hdate, hopen]
      exact .refused (by rw [answer, hclosed]) rfl (by simp [hopen]) fun _ => by simp [hopen]
    | true =>
      cases hrow : e.row? micros with
      | none =>
        have hrefused : l.saveTrade e = l.failed .violation := by simp [saveTrade, htime, hdate, hopen, hrow]
        refine .refused (by rw [answer, hrefused]) rfl ?_ fun _ => by simp [hopen]
        rintro ⟨-, row, ms', hdate', rfl⟩
        cases htime
        rw [hdate] at hdate'
        cases hdate'
        cases hrow
      | some row =>
        obtain ⟨rfl, hfields⟩ := TradeEntry.row?_eq_some_iff.1 hrow
        have hsave : l.saveTrade e = if l.trades.has row.txHash then (.ok (), l) else (.ok (), { l with
            trades := l.trades.put row.txHash row, tradesWritten := l.tradesWritten + 1 }) := by
          simp only [saveTrade, htime, hdate, hopen, if_true, hrow]
        refine .accepted (by rw [answer, hsave]; split <;> rfl) rfl ⟨hopen, row, ms, hdate, htime ▸ hfields⟩ ?_
        rintro ⟨txHash, ht, hknown⟩
        rw [hfields, Option.some.injEq] at ht
        rw [answer, hsave, ht, if_pos hknown]
  · -- without a date the entry never reaches the table
    have hinvalid : ¬ (l.isOpen ∧ (Call.saveTrade e).Valid) := fun ⟨_, row, records⟩ => hdated records.dated
    have hfailed : ∃ err, l.saveTrade e = l.failed err := by
      unfold saveTrade
      cases htime : e.time with
      | none => exact ⟨_, rfl⟩
      | some ms =>
        cases hdate : Calendar.microsOfMillis ms with
        | error d => exact ⟨.date d, by simp only [hdate]⟩
        | ok micros => exact absurd ⟨ms, micros, htime, hdate⟩ hdated
    obtain ⟨err, hfailed⟩ := hfailed
    exact .refused (by rw [answer, hfailed]) rfl hinvalid fun h => absurd h hdated

theorem orderly (l : Ledger) (c : Call) : Orderly l c := by
  cases c with
  | savePool e => exact orderly_savePool l e
  | saveTrade e => exact orderly_saveTrade l e
  | pool? address => exact ⟨nofun, nofun, nofun, fun _ _ => rfl⟩
  | recent pool limit => exact ⟨nofun, nofun, nofun, fun _ _ => rfl⟩
  | close => exact ⟨nofun, nofun, nofun, fun _ h => absurd rfl h⟩

/-- What is found in a ledger after some calls. -/
structure Faithful (calls : List Call) (s : Session) : Prop where
  asked : s.past.map (·.1) = calls
  isOpen : s.ledger.isOpen ↔ Call.close ∉ calls
  /-- An open ledger finds the pool that was saved first. -/
  found : s.ledger.isOpen → ∀ address, ∃ row?, s.ledger.pool? (some address) = .ok row? ∧
    row?.map PoolRow.entry = firstPool? s.past address
  closed : s.ledger.isOpen = false → ∀ address, s.ledger.pool? address = .error .closed
  /-- No address has two rows, and no signature; the row that it has is that of the first write. -/
  pools : ∀ address, ((s.ledger.pools.map (·.2)).filter (·.address = address)).map PoolRow.entry =
    (firstPool? s.past address).toList
  trades : ∀ txHash, List.Forall₂ TradeRow.Records ((s.ledger.trades.map (·.2)).filter (·.txHash = txHash))
    (firstTrade? s.past txHash).toList
  written : s.ledger.poolsWritten = s.ledger.pools.length ∧ s.ledger.tradesWritten = s.ledger.trades.length
  failures : s.ledger.writeErrors = s.past.countP isFailure

theorem past_session (path : String) (calls : List Call) : (session path calls).past.map (·.1) = calls := by
  induction calls using List.reverseRecOn with
  | nil => rfl
  | append_singleton calls c ih => rw [session_concat, Session.step, List.map_append, ih, List.map_singleton]

/-- **The first write under a key wins, and the counters are exact.** After any calls of a fresh ledger its tables hold
under each address and each signature one row, of the first write that has not failed, or none if all have failed. The
counters are the numbers of rows and of counted failures. A write is done exactly if its entry keeps the rules and the
ledger is open; one that fails although its time has a date is counted and changes nothing else, and one whose key is
known changes nothing at all. A pool can be asked for until the ledger is closed. -/
theorem session_keeps_first (path : String) (calls : List Call) :
    Faithful calls (session path calls) ∧ ∀ c, Orderly (session path calls).ledger c := by
  have h := session_keeps path calls
  have hpast := past_session path calls
  refine ⟨⟨hpast, h.isOpen.trans (by rw [hpast]), fun hopen address => ⟨_, if_pos hopen, h.pools.get? address⟩,
    fun hclosed _ => if_neg (by simp [hclosed]), fun address => ?_, h.trades.rows,
    ⟨h.pools.counted, h.trades.counted⟩, h.failures⟩, fun c => orderly _ c⟩
  rw [Roster.filter_values h.pools.nodup h.pools.named, ← h.pools.get?, Option.toList_map]

/-- A pool with all its fields. -/
def smallPool : PoolEntry := ⟨some "A", some "M", some "Q", some 6, some 9⟩

/-- Once the ledger is closed the pool that was saved cannot be asked for. -/
theorem smallPool_hidden_once_closed :
    (firstPool? (session ":memory:" [.savePool smallPool, .close]).past "A") = some smallPool ∧
    (session ":memory:" [.savePool smallPool]).ledger.pool? (some "A") = .ok smallPool.row? ∧
    (session ":memory:" [.savePool smallPool, .close]).ledger.pool? (some "A") = .error .closed := by
  refine ⟨by decide, rfl, rfl⟩

end Ledger

end PoolFeed
