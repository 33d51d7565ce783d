import PoolFeed.Proofs.Calendar
import PoolFeed.Proofs.Ledger

/-!
# What is read from a ledger

| here | there |
| --- | --- |
| `Newest` | `TradeStore.get_recent_trades` with a limit |
| `TradeRow.told` | a row as it answers it: `_ms_to_timestamp`, and back |

The trades of a pool are read from the newest to the oldest, up to a limit. A row tells of the write that it came from,
also of its time, for every time that has a date is read back. `recent_newest` says that a reading has as many rows as
it may have, each of them the first write of its signature, and that no trade of the pool is newer that was left out.
`saved_time_survives` says that a time of up to `8 * 10 ^ 12` milliseconds is stored to the microsecond.
-/

namespace PoolFeed

/-- The time of a trade in milliseconds, as it is read. -/
def TradeRow.millis (row : TradeRow) : Int := Calendar.millisOfMicros row.time

/-- The trade that a row tells of. -/
def TradeRow.told (row : TradeRow) : TradeEntry :=
  ⟨some row.txHash, some row.millis, some row.pool, some row.side, some row.price, some row.baseAmount,
    some row.quoteAmount⟩

/-- A row tells of the write that it came from. -/
theorem TradeRow.Records.told_eq {row : TradeRow} {e : TradeEntry} (h : row.Records e) : row.told = e := by
  obtain ⟨ms, hdate, rfl⟩ := h
  rw [told, millis, Calendar.millisOfMicros_of_ok hdate]

namespace Ledger

variable {l : Ledger} {path pool txHash : String} {calls later : List Call} {past : List (Call × Answer)}
  {table : Roster TradeRow} {count : Nat} {row : TradeRow} {e : TradeEntry}

/-! ## The trades of a pool -/

/-- The trades that are stored for a pool. -/
def tradesOf (l : Ledger) (pool : String) : List TradeRow := (l.trades.map (·.2)).filter (·.pool = pool)

/-- The rows are those of the signatures whose first write names the pool. -/
structure Stored (past : List (Call × Answer)) (pool : String) (rows : List TradeRow) : Prop where
  distinct : (rows.map (·.txHash)).Nodup
  told_iff : ∀ e, e ∈ rows.map TradeRow.told ↔ e.pool = some pool ∧ ∃ txHash, firstTrade? past txHash = some e

/-- A row comes from the first write of its signature. -/
theorem TradeTable.records_of_mem (h : TradeTable table count past) (hrow : row ∈ table.map (·.2)) :
    ∃ e, firstTrade? past row.txHash = some e ∧ row.Records e := by
  have hrows := h.rows row.txHash
  have hmem : row ∈ (table.map (·.2)).filter fun r => r.txHash = row.txHash := by simpa using hrow
  change List.Forall₂ _ _ (firstTrade? past row.txHash).toList at hrows
  cases hfirst : firstTrade? past row.txHash with
  | none =>
    rw [hfirst, Option.toList_none, List.forall₂_nil_right_iff] at hrows
    rw [hrows] at hmem
    cases hmem
  | some e =>
    rw [hfirst, Option.toList_some, List.forall₂_cons_right_iff] at hrows
    obtain ⟨old, rest, records, hrest, hfilter⟩ := hrows
    rw [List.forall₂_nil_right_iff] at hrest
    rw [hfilter, hrest, List.mem_singleton] at hmem
    exact ⟨e, rfl, hmem ▸ records⟩

/-- A row tells of the first write of its signature. -/
theorem TradeTable.first_of_mem (h : TradeTable table count past) (hrow : row ∈ table.map (·.2)) :
    firstTrade? past row.txHash = some row.told := by
  obtain ⟨e, hfirst, records⟩ := h.records_of_mem hrow
  rw [hfirst, records.told_eq]

/-- The first write of a signature has a row. -/
theorem TradeTable.exists_row (h : TradeTable table count past) (hfirst : firstTrade? past txHash = some e) :
    ∃ row ∈ table.map (·.2), row.txHash = txHash ∧ row.Records e := by
  have hrows := h.rows txHash
  change List.Forall₂ _ _ (firstTrade? past txHash).toList at hrows
  rw [hfirst, Option.toList_some, List.forall₂_cons_right_iff] at hrows
  obtain ⟨row, rest, records, -, hfilter⟩ := hrows
  have hmem : row ∈ (table.map (·.2)).filter fun r => r.txHash = txHash := hfilter ▸ List.mem_cons_self
  obtain ⟨hrow, hsignature⟩ := List.mem_filter.1 hmem
  exact ⟨row, hrow, of_decide_eq_true hsignature, records⟩

theorem TradeTable.distinct (h : TradeTable table count past) : ((table.map (·.2)).map (·.txHash)).Nodup := by
  have hkeys : (table.map (·.2)).map (·.txHash) = table.keys := by
    rw [List.map_map]
    exact List.map_congr_left h.named
  rw [hkeys]
  exact h.nodup

theorem TradeTable.stored (h : TradeTable l.trades count past) (pool : String) :
    Stored past pool (l.tradesOf pool) where
  distinct := h.distinct.sublist (List.filter_sublist.map _)
  told_iff e := by
    constructor
    · intro he
      obtain ⟨row, hrow, rfl⟩ := List.mem_map.1 he
      obtain ⟨hrow, hpool⟩ := List.mem_filter.1 hrow
      exact ⟨congrArg some (of_decide_eq_true hpool), row.txHash, h.first_of_mem hrow⟩
    · rintro ⟨hpool, txHash, hfirst⟩
      obtain ⟨row, hrow, -, records⟩ := h.exists_row hfirst
      have htold := records.told_eq
      refine List.mem_map.2 ⟨row, List.mem_filter.2 ⟨hrow, decide_eq_true ?_⟩, htold⟩
      rw [← htold] at hpool
      exact Option.some.inj hpool

/-! ## The newest -/

/-- A reading of at most `n` trades of a pool, of which some are stored. -/
structure Newest (past : List (Call × Answer)) (pool : String) (n : Nat) (stored rows : List TradeRow) : Prop where
  count : rows.length = min n stored.length
  ofPool : ∀ row ∈ rows, row.pool = pool
  distinct : (rows.map (·.txHash)).Nodup
  /-- A row has the fields of the first write of its signature, also its time. -/
  first : ∀ row ∈ rows, firstTrade? past row.txHash = some row.told
  ordered : rows.Pairwise fun a b => b.millis ≤ a.millis
  /-- What is left out is not newer than what is read. -/
  newest : ∀ old ∈ stored, old ∉ rows → ∀ row ∈ rows, old.millis ≤ row.millis

/-- From the newest to the oldest. -/
def newestFirst (rows : List TradeRow) : List TradeRow := rows.mergeSort fun a b => decide (b.time ≤ a.time)

theorem newestFirst_ordered (rows : List TradeRow) : (newestFirst rows).Pairwise fun a b => b.millis ≤ a.millis := by
  have hsorted : (newestFirst rows).Pairwise fun a b => decide (b.time ≤ a.time) := by
    apply List.pairwise_mergeSort
    · intro a b c hab hbc
      simp only [decide_eq_true_eq] at hab hbc ⊢
      omega
    · intro a b
      simp only [Bool.or_eq_true, decide_eq_true_eq]
      omega
  exact hsorted.imp fun h => Calendar.millisOfMicros_mono (of_decide_eq_true h)

/-- The rows that are filtered by a field that may be missing are the trades of the pool. -/
theorem filter_pool (l : Ledger) (pool : String) :
    (l.trades.map (·.2)).filter (fun row => some row.pool == some pool) = l.tradesOf pool := by
  apply List.filter_congr
  intro row _
  simp [Bool.beq_eq_decide_eq]

theorem recent_all (hopen : l.isOpen) (pool : String) :
    l.recent (some pool) none = .ok (newestFirst (l.tradesOf pool)) := by
  simp only [recent, hopen, if_true, filter_pool]
  rfl

theorem recent_eq (hopen : l.isOpen) (pool : String) (n : Nat) : l.recent (some pool) (some n) =
    if (n : Int) ≤ maxLimit then .ok ((newestFirst (l.tradesOf pool)).take n) else .error .violation := by
  simp only [recent, hopen, if_true, filter_pool]
  by_cases hlimit : (n : Int) ≤ maxLimit
  · rw [if_pos hlimit, if_neg (by omega)]
    rfl
  · rw [if_neg hlimit, if_pos (by omega)]

theorem Stored.newest_take (h : TradeTable l.trades count past) (n : Nat) :
    Newest past pool n (l.tradesOf pool) ((newestFirst (l.tradesOf pool)).take n) := by
  have hperm : (newestFirst (l.tradesOf pool)).Perm (l.tradesOf pool) := List.mergeSort_perm _ _
  have hordered := newestFirst_ordered (l.tradesOf pool)
  have hstored := h.stored pool
  generalize newestFirst (l.tradesOf pool) = sorted at hperm hordered ⊢
  have hmem : ∀ row ∈ sorted.take n, row ∈ l.tradesOf pool := fun row hrow =>
    hperm.mem_iff.1 (List.mem_of_mem_take hrow)
  refine ⟨?_, fun row hrow => ?_, ?_, fun row hrow => ?_, hordered.sublist (List.take_sublist n sorted), ?_⟩
  · rw [List.length_take, hperm.length_eq]
  · exact of_decide_eq_true (List.mem_filter.1 (hmem row hrow)).2
  · have hdistinct := (hperm.map (·.txHash)).nodup_iff.2 hstored.distinct
    exact hdistinct.sublist ((List.take_sublist n sorted).map _)
  · exact h.first_of_mem (List.mem_filter.1 (hmem row hrow)).1
  · intro old hold hout row hrow
    rw [← List.take_append_drop n sorted, List.pairwise_append] at hordered
    have hdropped : old ∈ sorted.drop n := by
      have hin : old ∈ sorted.take n ++ sorted.drop n := by
        rw [List.take_append_drop]
        exact hperm.mem_iff.2 hold
      exact (List.mem_append.1 hin).resolve_left hout
    exact hordered.2.2 row hrow old hdropped

/-! ## Readings of a session -/

/-- **Recent trades are the newest.** In a session that has not closed its ledger the rows of a pool are those of the
signatures whose first write names it. A reading of at most `n` of them has `n` rows, or as many as there are, all
of the pool and each of a signature of its own and with the fields of its first write, from the newest to the oldest; and
no row that is left out is newer than one that is read. A limit past the largest is refused. -/
theorem recent_newest (path : String) (calls : List Call) (hopen : Call.close ∉ calls) (pool : String) (n : Nat) :
    let s := session path calls
    Stored s.past pool (s.ledger.tradesOf pool) ∧
      if (n : Int) ≤ maxLimit then
        ∃ rows, s.ledger.recent (some pool) (some n) = .ok rows ∧ Newest s.past pool n (s.ledger.tradesOf pool) rows
      else s.ledger.recent (some pool) (some n) = .error .violation := by
  intro s
  have h := session_keeps path calls
  have hledger : s.ledger.isOpen := h.isOpen.2 (by rwa [past_session])
  refine ⟨h.trades.stored pool, ?_⟩
  rw [recent_eq hledger]
  split
  · exact ⟨_, rfl, Stored.newest_take h.trades n⟩
  · rfl

/-- Two tokens for three. -/
def twoForThree (txHash : String) (ms : Int) : TradeEntry :=
  ⟨some txHash, some ms, some "P", some "BUY", some (Binary64.ofRatio false 3 2), some (Binary64.ofRatio false 2 1),
    some (Binary64.ofRatio false 3 1)⟩

/-- Of two trades at one time and one before them, the older one is left out. -/
theorem recent_newest_of_three :
    let calls := [Call.saveTrade (twoForThree "a" 5), .saveTrade (twoForThree "b" 4), .saveTrade (twoForThree "c" 5)]
    ∃ rows, (session "" calls).ledger.recent (some "P") (some 2) = .ok rows ∧
      rows.length = min 2 ((session "" calls).ledger.tradesOf "P").length ∧
      ∀ old ∈ (session "" calls).ledger.tradesOf "P", old ∉ rows → ∀ row ∈ rows, old.millis ≤ row.millis := by
  intro calls
  have h := (recent_newest "" calls (by simp [calls]) "P" 2).2
  rw [if_pos (by decide)] at h
  obtain ⟨rows, hrows, hnewest⟩ := h
  exact ⟨rows, hrows, hnewest.count, hnewest.newest⟩

/-- A trade is stored, and yet a reading with a large limit has no rows. -/
theorem recent_refuses_large_limit :
    let l := (session "" [.saveTrade (twoForThree "a" 5)]).ledger
    (l.tradesOf "P").map TradeRow.told = [twoForThree "a" 5] ∧
      l.recent (some "P") (some (2 ^ 64)) = .error .violation := by
  decide +kernel

/-! ## Times -/

theorem exists_past_append (path : String) (calls later : List Call) :
    ∃ more, (session path (calls ++ later)).past = (session path calls).past ++ more := by
  induction later using List.reverseRecOn with
  | nil => exact ⟨[], by rw [List.append_nil, List.append_nil]⟩
  | append_singleton later c ih =>
    obtain ⟨more, hmore⟩ := ih
    rw [← List.append_assoc, session_concat, Session.step, hmore]
    exact ⟨_, List.append_assoc ..⟩

/-- The first write of a signature is the first one whatever comes later. -/
theorem firstTrade?_of_first (hnew : firstTrade? (session path calls).past txHash = none)
    (hsaved : ((session path calls).ledger.saveTrade e).1 = .ok ()) (htx : e.txHash = some txHash) :
    firstTrade? (session path (calls ++ .saveTrade e :: later)).past txHash = some e := by
  obtain ⟨more, hmore⟩ := exists_past_append path (calls ++ [.saveTrade e]) later
  rw [List.append_assoc, List.singleton_append, session_concat, Session.step, answer, hsaved] at hmore
  unfold firstTrade? at hnew ⊢
  rw [hmore, List.findSome?_append, List.findSome?_append, hnew, List.findSome?_singleton, savedTrade?, if_pos htx]
  rfl

/-- What is read is stored. -/
theorem mem_of_recent {pool : Option String} {limit : Option Int} {rows : List TradeRow}
    (h : l.recent pool limit = .ok rows) (hrow : row ∈ rows) : row ∈ l.trades.map (·.2) := by
  have hsub : ∀ row, row ∈ newestFirst ((l.trades.map (·.2)).filter fun row => some row.pool == pool) →
      row ∈ l.trades.map (·.2) := fun row hrow => (List.mem_filter.1 (List.mem_mergeSort.1 hrow)).1
  unfold recent at h
  split at h
  · cases limit with
    | none =>
      cases h
      exact hsub row hrow
    | some n =>
      dsimp only at h
      split at h
      · cases h
      · cases h
        exact hsub row (List.mem_of_mem_take hrow)
  · cases h

/-- **Stored times survive the floating point.** A trade at a time from `0` to `8 * 10 ^ 12` milliseconds that is the
first of its signature is saved by a ledger that is open. Whatever is asked later, short of closing it, the trade is
among those of its pool, with its time; and wherever its signature is read, its time is the same: to the microsecond as
it is stored, and in milliseconds as it is told. -/
theorem saved_time_survives (path : String) (calls later : List Call) (hopen : Call.close ∉ calls ++ later)
    (txHash pool side : String) (ms : Int) (price baseAmount quoteAmount : Binary64) (hlow : 0 ≤ ms)
    (hhigh : ms ≤ 8000000000000) (hnew : firstTrade? (session path calls).past txHash = none) :
    let e : TradeEntry := ⟨some txHash, some ms, some pool, some side, some price, some baseAmount, some quoteAmount⟩
    let l := (session path (calls ++ .saveTrade e :: later)).ledger
    ((session path calls).ledger.saveTrade e).1 = .ok () ∧
      (∃ rows, l.recent (some pool) none = .ok rows ∧ e ∈ rows.map TradeRow.told) ∧
      ∀ pool limit rows, l.recent pool limit = .ok rows → ∀ row ∈ rows, row.txHash = txHash →
        row.time = 1000 * ms ∧ row.millis = ms := by
  intro e l
  have hdate := Calendar.microsOfMillis_eq hlow hhigh
  rw [List.mem_append, not_or] at hopen
  have hsaved : ((session path calls).ledger.saveTrade e).1 = .ok () := by
    have hledger := (session_keeps path calls).isOpen.2 (by rw [past_session]; exact hopen.1)
    have hvalid : (Call.saveTrade e).Valid :=
      ⟨⟨txHash, 1000 * ms, pool, side, price, baseAmount, quoteAmount⟩, ms, hdate, rfl⟩
    exact Answer.saved.inj (((orderly_saveTrade _ e).done rfl).2 ⟨hledger, hvalid⟩)
  have h := session_keeps path (calls ++ .saveTrade e :: later)
  have hfirst : firstTrade? (session path (calls ++ .saveTrade e :: later)).past txHash = some e :=
    firstTrade?_of_first hnew hsaved rfl
  have hledger : l.isOpen := by
    refine h.isOpen.2 ?_
    rw [past_session]
    simp [hopen.1, hopen.2]
  refine ⟨hsaved, ⟨newestFirst (l.tradesOf pool), ?_, ?_⟩, fun _ _ rows hrows row hrow htx => ?_⟩
  · rw [recent_all hledger]
  · have hstored : e ∈ (l.tradesOf pool).map TradeRow.told :=
      ((h.trades.stored pool).told_iff e).2 ⟨rfl, txHash, hfirst⟩
    exact ((List.mergeSort_perm _ _).map TradeRow.told).mem_iff.2 hstored
  · obtain ⟨first, hread, ms', hdate', rfl⟩ := h.trades.records_of_mem (mem_of_recent hrows hrow)
    rw [htx, hfirst] at hread
    obtain rfl : ms = ms' := Option.some.inj (congrArg TradeEntry.time (Option.some.inj hread))
    exact ⟨Except.ok.inj (hdate'.symm.trans hdate), Calendar.millisOfMicros_of_ok hdate'⟩

/-- The last time that is known to survive, stored before an older trade. -/
theorem saved_time_survives_last :
    let e : TradeEntry := twoForThree "a" 8000000000000
    let l := (session "" [.saveTrade e, .saveTrade (twoForThree "b" 4)]).ledger
    ((session "" []).ledger.saveTrade e).1 = .ok () ∧
      ∀ pool limit rows, l.recent pool limit = .ok rows →
        ∀ row ∈ rows, row.txHash = "a" → row.time = 8000000000000000 ∧ row.millis = 8000000000000 := by
  intro e l
  have h := saved_time_survives "" [] [.saveTrade (twoForThree "b" 4)] (by simp) "a" "P" "BUY" 8000000000000
    (Binary64.ofRatio false 3 2) (Binary64.ofRatio false 2 1) (Binary64.ofRatio false 3 1) (by decide) (by decide) rfl
  exact ⟨h.1, h.2.2⟩

end Ledger

end PoolFeed
