import PoolFeed.Proofs.Batcher.Runs
import PoolFeed.Proofs.Intake.Fanout
import Mathlib.Data.List.Nodup

/-!
# The order of batched trades

| here | there |
| --- | --- |
| `Overtakes` | a later call of `_on_trade` whose `insert_trade` ends first |
| `Batched` | insertion order in `TradeBatcher`, for the calls of `enqueue` in `_on_trade` |

A trade goes to the batch of its pool when its write to the ledger has been answered, so trades of one pool are batched
in the order in which their writes end (`batched_eq`), and not in the order in which they arrived: a later trade whose
write ends first comes first (`overtaken_trade_batched_last`). `batched_in_order_iff` says that this is the only way in
which they come out of order, however the batcher is run meanwhile.
-/

namespace PoolFeed.Intake

/-! ## Lines for a pool -/

def Effect.line? (pool : String) : Effect → Option TradeLine
  | .batch other line => if other = pool then some line else none
  | .savePool _ | .saveTrade _ _ | .lookUp _ | .announce _ => none

/-- The lines that effects put into the batch of a pool. -/
def lines (pool : String) (effects : List Effect) : List TradeLine := effects.filterMap (Effect.line? pool)

/-- The line of a trade of the pool, if the pool is known and the trade can be scaled. -/
def lineOf? (known : Known) (pool : String) : Option Event → Option TradeLine
  | some (.trade e) =>
    if e.pool = pool then (known pool).bind fun scale => (TradeLine.ofTrade e scale.base scale.quote).toOption else none
  | some (.migration _) | some (.poolCreation _) | none => none

/-- The line of a transaction that is such a trade; what counts is which pools were known when it came. -/
def line? (i : Intake) (r : Registry) (pool : String) (as : List Arrival) (j : Nat) : Option TradeLine :=
  ((eventsOf i r as)[j]?).bind (lineOf? (referenceOf i r (as.take j)).known pool)

variable {pool : String}

theorem lines_append (effects later : List Effect) : lines pool (effects ++ later) = lines pool effects ++ lines pool later :=
  List.filterMap_append

theorem lines_eq_nil {effects : List Effect} (h : effects.countP Effect.isBatch = 0) : lines pool effects = [] := by
  refine List.filterMap_eq_nil_iff.2 fun e he => ?_
  have hnot := List.countP_eq_zero.1 h e he
  cases e with
  | batch other line => exact absurd rfl hnot
  | savePool | saveTrade | lookUp | announce => rfl

theorem lines_trade (other : String) (line : TradeLine) :
    lines pool [.saveTrade other line, .batch other line] = if other = pool then [line] else [] := by
  by_cases h : other = pool
  · have hline : Effect.line? pool (.batch other line) = some line := if_pos h
    rw [if_pos h, lines, List.filterMap_cons_none rfl, List.filterMap_cons_some hline, List.filterMap_nil]
  · have hline : Effect.line? pool (.batch other line) = none := if_neg h
    rw [if_neg h, lines, List.filterMap_cons_none rfl, List.filterMap_cons_none hline, List.filterMap_nil]

theorem lines_script (t : Terms) (known : Known) (e : Option Event) :
    lines pool (script t known e) = (lineOf? known pool e).toList := by
  cases e with
  | none => rfl
  | some e =>
    cases e with
    | migration m => rfl
    | poolCreation c =>
      rw [script]
      split <;> rfl
    | trade e =>
      rw [script, lineOf?]
      by_cases hp : e.pool = pool
      · subst hp
        rw [if_pos rfl]
        cases known e.pool with
        | none => rfl
        | some scale =>
          rw [Option.bind_some]
          cases hl : TradeLine.ofTrade e scale.base scale.quote with
          | error fault => simp only [hl]; rfl
          | ok line =>
            simp only [hl, lines_trade, if_true]
            rfl
      · rw [if_neg hp]
        split
        · rfl
        · split
          · rw [lines_trade, if_neg hp]
            rfl
          · rfl

/-- The lines in the script of a transaction. -/
def linesAt (i : Intake) (r : Registry) (pool : String) (as : List Arrival) (j : Nat) : List TradeLine :=
  lines pool ((referenceOf i r as).scripts[j]?.getD [])

theorem linesAt_eq (i : Intake) (r : Registry) (as : List Arrival) (j : Nat) :
    linesAt i r pool as j = (line? i r pool as j).toList := by
  rw [linesAt, line?, referenceOf, reference_scripts, referenceOf, eventsOf, eventsOf, ← List.map_take]
  cases (as.map (eventOf (terms i r)))[j]? with
  | none => rfl
  | some e => exact lines_script _ _ e

/-! ## Answers -/

/-- How many transactions have arrived, and which of them have been answered. -/
def note (x : Nat × List Nat) : Move → Nat × List Nat
  | .arrive _ => (x.1 + 1, x.2)
  | .answer j _ => if j < x.1 ∧ j ∉ x.2 then (x.1, x.2 ++ [j]) else x
  | .writeThrough _ _ => x

/-- Transactions in the order of the first answers to them. That of a trade is the answer to its write. -/
def answered (moves : List Move) : List Nat := (moves.foldl note (0, [])).2

theorem answered_concat (moves : List Move) (m : Move) :
    answered (moves ++ [m]) = (note ((arrivals moves).length, answered moves) m).2 := by
  have harrived : ∀ moves : List Move, (moves.foldl note (0, [])).1 = (arrivals moves).length := by
    intro moves
    induction moves using List.reverseRecOn with
    | nil => rfl
    | append_singleton moves m ih =>
      rw [List.foldl_append, arrivals_concat, List.length_append, ← ih]
      cases m with
      | arrive a => rfl
      | writeThrough ticket failure => rfl
      | answer j failure =>
        simp only [List.foldl_cons, List.foldl_nil, note]
        split <;> rfl
  rw [answered, List.foldl_append, ← harrived]
  rfl

/-- The transaction that a move goes on with. -/
def Traffic.mover (s : Traffic) : Move → Nat
  | .arrive _ => s.errands.length
  | .answer j _ => j
  | .writeThrough _ _ => 0

/-- The lines that moves put into the batch of a pool, each with the number of its transaction. -/
def batched (pool : String) (s : Traffic) : List Move → List (Nat × TradeLine)
  | [] => []
  | m :: moves => (lines pool (s.effects m)).map (s.mover m, ·) ++ batched pool (s.step m) moves

theorem batched_concat (s : Traffic) (moves : List Move) (m : Move) :
    batched pool s (moves ++ [m]) = batched pool s moves ++
      (lines pool ((moves.foldl Traffic.step s).effects m)).map ((moves.foldl Traffic.step s).mover m, ·) := by
  induction moves generalizing s with
  | nil => simp [batched]
  | cons first moves ih => rw [List.cons_append, batched, ih, batched, List.append_assoc, List.foldl_cons]

/-! ## What has been batched -/

/-- After the first answer to it a transaction has batched what it has to batch, and before that nothing. -/
structure Ends (i : Intake) (r : Registry) (moves : List Move) (s : Traffic) : Prop where
  arrived : s.errands.length = (arrivals moves).length
  below : ∀ j ∈ answered moves, j < (arrivals moves).length
  nodup : (answered moves).Nodup
  done : ∀ (j : Nat) e, s.errands[j]? = some e → j ∈ answered moves → e.progress.rest.countP Effect.isBatch = 0
  due : ∀ (j : Nat) e, s.errands[j]? = some e → j ∉ answered moves → e.effects.countP Effect.isBatch = 0

/-- A transaction that has gone on once has no batching to do any more. -/
theorem resume_rest (i : Intake) (r : Registry) (w : Wait) (failure : Option String) :
    (resume i r w failure).progress.rest = [] := by
  cases w with
  | savingPool row migration => cases migration <;> cases failure <;> rfl
  | savingTrade other line => cases failure <;> rfl
  | announcing m => cases failure <;> rfl

theorem opened_isBatch (i : Intake) (r : Registry) (a : Arrival) :
    (i.opened r a).effects.countP Effect.isBatch = 0 := by
  obtain ⟨-, t, -, -, ht⟩ := begin_handles i r a
  rw [opened, ht.effects]
  exact script_begins _ _ _

theorem Traffic.step_arrive (s : Traffic) (a : Arrival) :
    (s.step (.arrive a)).errands = s.errands ++ [s.intake.opened s.registry a] := rfl

variable {i : Intake} {r : Registry} {moves : List Move} {s : Traffic}

theorem ends_start (i : Intake) (r : Registry) : Ends i r [] { intake := i, registry := r } where
  arrived := rfl
  below _ h := absurd h List.not_mem_nil
  nodup := List.nodup_nil
  done _ _ h := by simp at h
  due _ _ h := by simp at h

/-- A move with which no transaction goes on. -/
theorem Ends.idle {moves' : List Move} {s' : Traffic} (h : Ends i r moves s) (harrivals : arrivals moves' = arrivals moves)
    (hanswered : answered moves' = answered moves) (herrands : s'.errands = s.errands) : Ends i r moves' s' where
  arrived := by rw [herrands, harrivals, h.arrived]
  below j hj := harrivals ▸ h.below j (hanswered ▸ hj)
  nodup := hanswered ▸ h.nodup
  done j e he hj := h.done j e (herrands ▸ he) (hanswered ▸ hj)
  due j e he hj := h.due j e (herrands ▸ he) (hanswered ▸ hj)

theorem Ends.arrive (h : Ends i r moves s) (a : Arrival) : Ends i r (moves ++ [.arrive a]) (s.step (.arrive a)) := by
  have hanswered : answered (moves ++ [.arrive a]) = answered moves := by rw [answered_concat, note]
  have hlength : (arrivals (moves ++ [.arrive a])).length = (arrivals moves).length + 1 := by
    rw [arrivals_concat, List.length_append, Move.arrival?, Option.toList_some, List.length_singleton]
  refine ⟨?_, fun j hj => ?_, hanswered ▸ h.nodup, fun j e he hj => ?_, fun j e he hj => ?_⟩
  · rw [Traffic.step_arrive, List.length_append, h.arrived, hlength, List.length_singleton]
  · rw [hanswered] at hj
    rw [hlength]
    exact Nat.lt_succ_of_lt (h.below j hj)
  · rw [hanswered] at hj
    rw [Traffic.step_arrive, List.getElem?_append_left (by rw [h.arrived]; exact h.below j hj)] at he
    exact h.done j e he hj
  · rw [hanswered] at hj
    rw [Traffic.step_arrive, List.getElem?_append] at he
    split at he
    · exact h.due j e he hj
    · rw [List.getElem?_singleton] at he
      split at he
      · rw [← Option.some.inj he]
        exact opened_isBatch _ _ _
      · cases he

/-- With an answer a transaction does all that is left of its script but an announcement, and nothing is left. -/
theorem Traffic.answer_errand {j : Nat} {e : Errand} (hj : s.errands[j]? = some e) (failure : Option String) :
    s.effects (.answer j failure) = e.progress.rest ∧ ∃ e' : Errand,
      (s.step (.answer j failure)).errands = s.errands.set j e' ∧ e'.progress.rest = [] := by
  obtain ⟨event, effects, progress⟩ := e
  have hsame : s.errands.set j ⟨event, effects, progress⟩ = s.errands := by
    obtain ⟨hlt, hget⟩ := List.getElem?_eq_some_iff.1 hj
    rw [← hget, List.set_getElem_self]
  simp only [Traffic.effects, step, hj]
  cases progress with
  | waits w =>
    have hrest := (resume_follows s.intake s.registry w failure).1
    rw [resume_rest, List.append_nil] at hrest
    exact ⟨hrest, _, rfl, resume_rest _ _ _ _⟩
  | finished => exact ⟨rfl, _, hsame.symm, rfl⟩
  | failed fault => exact ⟨rfl, _, hsame.symm, rfl⟩

theorem Traffic.answer_none {j : Nat} (hj : s.errands[j]? = none) (failure : Option String) :
    s.effects (.answer j failure) = [] ∧ s.step (.answer j failure) = s := by
  simp only [Traffic.effects, step, hj]
  exact ⟨trivial, trivial⟩

theorem answered_answer (moves : List Move) (j : Nat) (failure : Option String) :
    answered (moves ++ [.answer j failure]) =
      if j < (arrivals moves).length ∧ j ∉ answered moves then answered moves ++ [j] else answered moves := by
  rw [answered_concat, note]
  split <;> rfl

theorem arrivals_answer (moves : List Move) (j : Nat) (failure : Option String) :
    arrivals (moves ++ [.answer j failure]) = arrivals moves := by
  rw [arrivals_concat, Move.arrival?, Option.toList_none, List.append_nil]

/-- An answer to a transaction that has not arrived is passed over. -/
theorem Ends.answered_unknown (h : Ends i r moves s) {j : Nat} (hj : s.errands[j]? = none) (failure : Option String) :
    answered (moves ++ [.answer j failure]) = answered moves := by
  have hlate : ¬j < (arrivals moves).length := by
    rw [← h.arrived]
    exact Nat.not_lt.2 (List.getElem?_eq_none_iff.1 hj)
  rw [answered_answer, if_neg fun hnew => hlate hnew.1]

theorem Ends.lt_of_errand (h : Ends i r moves s) {j : Nat} {e : Errand} (hj : s.errands[j]? = some e) :
    j < (arrivals moves).length := h.arrived ▸ (List.getElem?_eq_some_iff.1 hj).1

theorem mem_answered_answer {j : Nat} (hlt : j < (arrivals moves).length) (failure : Option String) {k : Nat} :
    k ∈ answered (moves ++ [.answer j failure]) ↔ k ∈ answered moves ∨ k = j := by
  rw [answered_answer]
  by_cases hin : j ∈ answered moves
  · rw [if_neg fun hnew => hnew.2 hin]
    exact ⟨.inl, fun hk => hk.elim id fun hk => hk ▸ hin⟩
  · rw [if_pos ⟨hlt, hin⟩, List.mem_append, List.mem_singleton]

theorem nodup_answered_answer (h : (answered moves).Nodup) (j : Nat) (failure : Option String) :
    (answered (moves ++ [.answer j failure])).Nodup := by
  rw [answered_answer]
  split
  · rename_i hnew
    exact List.nodup_append'.2 ⟨h, List.nodup_singleton j, by simpa using hnew.2⟩
  · exact h

theorem Ends.answer (h : Ends i r moves s) (j : Nat) (failure : Option String) :
    Ends i r (moves ++ [.answer j failure]) (s.step (.answer j failure)) := by
  cases hj : s.errands[j]? with
  | none =>
    rw [(Traffic.answer_none hj failure).2]
    exact h.idle (arrivals_answer moves j failure) (h.answered_unknown hj failure) rfl
  | some e =>
    obtain ⟨-, e', herrands, hrest⟩ := Traffic.answer_errand hj failure
    have hlt := h.lt_of_errand hj
    refine ⟨?_, fun k hk => ?_, nodup_answered_answer h.nodup j failure, fun k x hx hk => ?_, fun k x hx hk => ?_⟩
    · rw [herrands, List.length_set, arrivals_answer, h.arrived]
    · rw [arrivals_answer]
      obtain hk | rfl := (mem_answered_answer hlt failure).1 hk
      · exact h.below k hk
      · exact hlt
    · rw [herrands, List.getElem?_set] at hx
      split at hx
      · split at hx
        · obtain rfl := Option.some.inj hx
          rw [hrest, List.countP_nil]
        · cases hx
      · rename_i hne
        exact h.done k x hx (((mem_answered_answer hlt failure).1 hk).resolve_right (Ne.symm hne))
    · rw [mem_answered_answer hlt, not_or] at hk
      rw [herrands, List.getElem?_set_ne (Ne.symm hk.2)] at hx
      exact h.due k x hx hk.1

theorem arrivals_writeThrough (moves : List Move) (ticket : Nat) (failure : Option String) :
    arrivals (moves ++ [.writeThrough ticket failure]) = arrivals moves := by
  rw [arrivals_concat, Move.arrival?, Option.toList_none, List.append_nil]

theorem answered_writeThrough (moves : List Move) (ticket : Nat) (failure : Option String) :
    answered (moves ++ [.writeThrough ticket failure]) = answered moves := by
  rw [answered_concat, note]

theorem run_ends (i : Intake) (r : Registry) (moves : List Move) : Ends i r moves (run i r moves) := by
  induction moves using List.reverseRecOn with
  | nil => exact ends_start i r
  | append_singleton moves m ih =>
    rw [run_concat]
    cases m with
    | arrive a => exact ih.arrive a
    | answer j failure => exact ih.answer j failure
    | writeThrough ticket failure =>
      exact ih.idle (arrivals_writeThrough moves ticket failure) (answered_writeThrough moves ticket failure) rfl

/-! ## The order of batching -/

/-- Intake and registry before anything has arrived. -/
def start (i : Intake) (r : Registry) : Traffic := { intake := i, registry := r }

theorem getElem?_scripts (h : Follows i r (arrivals moves) s) {j : Nat} {e : Errand} (hj : s.errands[j]? = some e) :
    (referenceOf i r (arrivals moves)).scripts[j]? = some (e.effects ++ e.progress.rest) := by
  rw [← h.scripts, List.getElem?_map, hj, Option.map_some]

/-- The lines of earlier transactions stay when another arrives. -/
theorem linesAt_arrive (i : Intake) (r : Registry) (as : List Arrival) (a : Arrival) {j : Nat} (hj : j < as.length) :
    linesAt i r pool (as ++ [a]) j = linesAt i r pool as j := by
  have hlength : (referenceOf i r as).scripts.length = as.length := by
    rw [referenceOf, reference_scripts_length, eventsOf, List.length_map]
  rw [linesAt, linesAt, referenceOf_concat, Reference.next, List.getElem?_append_left (hlength ▸ hj)]

/-- **Trades are batched in the order in which their writes end.** -/
theorem batched_eq_flatMap (i : Intake) (r : Registry) (pool : String) (moves : List Move) :
    batched pool (start i r) moves =
      (answered moves).flatMap fun j => (linesAt i r pool (arrivals moves) j).map (j, ·) := by
  induction moves using List.reverseRecOn with
  | nil => rfl
  | append_singleton moves m ih =>
    have ends := run_ends i r moves
    have follows := run_follows i r moves
    rw [batched_concat, ih]
    show _ ++ (lines pool ((run i r moves).effects m)).map ((run i r moves).mover m, ·) = _
    cases m with
    | arrive a =>
      have hnone : lines pool ((run i r moves).effects (.arrive a)) = [] := lines_eq_nil (opened_isBatch _ _ _)
      have harrivals : arrivals (moves ++ [.arrive a]) = arrivals moves ++ [a] := by
        rw [arrivals_concat, Move.arrival?, Option.toList_some]
      rw [hnone, List.map_nil, List.append_nil, answered_concat, note, harrivals]
      exact List.flatMap_congr fun j hj => by rw [linesAt_arrive i r _ a (ends.below j hj)]
    | writeThrough ticket failure =>
      rw [arrivals_writeThrough, answered_writeThrough, Traffic.effects, lines, List.filterMap_nil, List.map_nil,
        List.append_nil]
    | answer j failure =>
      rw [arrivals_answer]
      cases hj : (run i r moves).errands[j]? with
      | none =>
        rw [ends.answered_unknown hj, (Traffic.answer_none hj failure).1, lines, List.filterMap_nil, List.map_nil,
          List.append_nil]
      | some e =>
        rw [(Traffic.answer_errand hj failure).1, answered_answer]
        by_cases hin : j ∈ answered moves
        · rw [if_neg fun hnew => hnew.2 hin, lines_eq_nil (ends.done j e hj hin), List.map_nil, List.append_nil]
        · have hscript : linesAt i r pool (arrivals moves) j = lines pool e.progress.rest := by
            rw [linesAt, getElem?_scripts follows hj, Option.getD_some, lines_append, lines_eq_nil (ends.due j e hj hin),
              List.nil_append]
          rw [if_pos ⟨ends.lt_of_errand hj, hin⟩, List.flatMap_append, List.flatMap_singleton, hscript, Traffic.mover]

/-- The numbers of the trades of a pool, in the order in which they are batched. -/
theorem batched_eq (i : Intake) (r : Registry) (pool : String) (moves : List Move) :
    batched pool (start i r) moves =
      (answered moves).filterMap fun j => (line? i r pool (arrivals moves) j).map (j, ·) := by
  rw [batched_eq_flatMap, List.filterMap_eq_flatMap_toList]
  simp only [linesAt_eq, Option.toList_map]

/-- A trade of the pool overtakes an earlier one: its write ends first. -/
def Overtakes (i : Intake) (r : Registry) (pool : String) (moves : List Move) (k j : Nat) : Prop :=
  j < k ∧ (line? i r pool (arrivals moves) j).isSome ∧ (line? i r pool (arrivals moves) k).isSome ∧
    [k, j].Sublist (answered moves)

theorem inOrder_iff (i : Intake) (r : Registry) (pool : String) (moves : List Move) :
    ((batched pool (start i r) moves).map (·.1)).Pairwise (· < ·) ↔ ∀ j k, ¬Overtakes i r pool moves k j := by
  have hnumbers : (batched pool (start i r) moves).map (·.1) =
      (answered moves).filter fun j => (line? i r pool (arrivals moves) j).isSome := by
    rw [batched_eq, List.map_filterMap, ← List.filterMap_eq_filter]
    refine List.filterMap_congr fun j _ => ?_
    cases hline : line? i r pool (arrivals moves) j <;> simp [Option.guard, hline]
  have hnodup := (run_ends i r moves).nodup
  rw [hnumbers, List.pairwise_filter, List.pairwise_iff_forall_sublist]
  constructor
  · rintro h j k ⟨hlt, hj, hk, hfirst⟩
    exact absurd (h hfirst hk hj) (Nat.not_lt.2 (Nat.le_of_lt hlt))
  · intro h k j hfirst hk hj
    have hne : k ≠ j := List.nodup_iff_sublist.1 hnodup k |> fun hdouble he => hdouble (he ▸ hfirst)
    exact Nat.lt_of_le_of_ne (Nat.not_lt.1 fun hlt => h j k ⟨hlt, hj, hk, hfirst⟩) hne

/-! ## Batches -/

/-- The intake makes a move, or the batcher goes on of its own accord. -/
inductive Act where
  | intake (m : Move)
  | batcher (m : Batcher.Move Json) (own : m.came = [])

def Fanout.act (s : Fanout) : Act → Fanout
  | .intake m => s.step m
  | .batcher m _ => { s with batcher := (m.turn s.batcher).batcher }

def Act.move? : Act → Option Move
  | .intake m => some m
  | .batcher _ _ => none

/-- The moves of the intake. -/
def intakeMoves (acts : List Act) : List Move := acts.filterMap Act.move?

def Effect.enqueue? : Effect → Option (Batcher.Move Json)
  | .batch pool line => some (.enqueue pool line.payload)
  | .savePool _ | .saveTrade _ _ | .lookUp _ | .announce _ => none

/-- The moves that the batcher makes. -/
def batcherMoves (s : Traffic) : List Act → List (Batcher.Move Json)
  | [] => []
  | .intake m :: acts => (s.effects m).filterMap Effect.enqueue? ++ batcherMoves (s.step m) acts
  | .batcher m _ :: acts => m :: batcherMoves s acts

/-- Batches after some moves of the batcher. -/
def turned (b : Batcher Json) (moves : List (Batcher.Move Json)) : Batcher Json :=
  moves.foldl (fun b m => (m.turn b).batcher) b

theorem turned_append (b : Batcher Json) (moves later : List (Batcher.Move Json)) :
    turned b (moves ++ later) = turned (turned b moves) later := List.foldl_append

theorem Fanout.foldl_feed_batcher (effects : List Effect) (s : Fanout) :
    (effects.foldl Fanout.feed s).batcher = turned s.batcher (effects.filterMap Effect.enqueue?) := by
  induction effects generalizing s with
  | nil => rfl
  | cons e effects ih =>
    rw [List.foldl_cons, ih]
    cases e <;> rfl

theorem Fanout.foldl_act_batcher (acts : List Act) (s : Fanout) :
    (acts.foldl Fanout.act s).batcher = turned s.batcher (batcherMoves s.traffic acts) := by
  induction acts generalizing s with
  | nil => rfl
  | cons x acts ih =>
    rw [List.foldl_cons, ih]
    cases x with
    | batcher m own => rfl
    | intake m =>
      rw [batcherMoves, turned_append, Fanout.act, Fanout.step_traffic, Fanout.step, Fanout.foldl_feed_batcher]

theorem run_batcher (interval : Nat) (limit : Option Int) (moves : List (Batcher.Move Json)) :
    (Batcher.run interval limit moves).batcher =
      turned { interval := interval, batches := { limit := limit } } moves := by
  induction moves using List.reverseRecOn with
  | nil => rfl
  | append_singleton moves m ih => rw [Batcher.run_concat, turned_append, ← ih]; rfl

theorem arrivals_enqueue (effects : List Effect) :
    Batcher.arrivals pool (effects.filterMap Effect.enqueue?) = (lines pool effects).map TradeLine.payload := by
  rw [Batcher.arrivals, lines, List.filterMap_filterMap, List.map_filterMap]
  refine List.filterMap_congr fun e _ => ?_
  cases e with
  | batch other line => by_cases h : other = pool <;> simp [Effect.enqueue?, Effect.line?, h]
  | savePool | saveTrade | lookUp | announce => rfl

/-- Nothing else is enqueued than the lines of trades. -/
theorem arrivals_batcherMoves (acts : List Act) (s : Traffic) :
    Batcher.arrivals pool (batcherMoves s acts) = (batched pool s (intakeMoves acts)).map (·.2.payload) := by
  induction acts generalizing s with
  | nil => rfl
  | cons x acts ih =>
    cases x with
    | batcher m own =>
      have hnone : Batcher.arrivals pool (m :: batcherMoves s acts) = Batcher.arrivals pool (batcherMoves s acts) := by
        cases m with
        | enqueue key record => cases own
        | start now | ask c now | resume task turn now o => rfl
      exact hnone.trans (ih s)
    | intake m =>
      have hfirst : Batcher.arrivals pool ((s.effects m).filterMap Effect.enqueue?) =
          (lines pool (s.effects m)).map TradeLine.payload := arrivals_enqueue (s.effects m)
      have hmoves : intakeMoves (.intake m :: acts) = m :: intakeMoves acts := rfl
      rw [hmoves, batched, batcherMoves, List.map_append, ← ih (s.step m), List.map_map]
      rw [Batcher.arrivals, List.filterMap_append]
      exact congrArg (· ++ _) hfirst

/-- What becomes of the trades of a pool. -/
structure Batched (i : Intake) (r : Registry) (limit : Option Int) (pool : String) (moves : List Move)
    (w : Batcher.Watch Json) : Prop where
  /-- Every trade is enqueued when its write ends. -/
  order : batched pool (start i r) moves =
    (answered moves).filterMap fun j => (line? i r pool (arrivals moves) j).map (j, ·)
  enqueued : Batcher.History.records pool w.history = (batched pool (start i r) moves).map (·.2.payload)
  /-- Batches keep the order in which trades are enqueued. -/
  kept : ((Batcher.History.batches pool w.history).flatten ++ w.batcher.batches.pending pool).Sublist
    ((batched pool (start i r) moves).map (·.2.payload))
  complete : limit = none → (Batcher.History.batches pool w.history).flatten ++ w.batcher.batches.pending pool =
    (batched pool (start i r) moves).map (·.2.payload)

/-- **Trades of a pool are batched in order of arrival exactly if none overtakes another.** -/
theorem batched_in_order_iff (i : Intake) (r : Registry) (interval : Nat) (limit : Option Int) (acts : List Act)
    (pool : String) :
    (acts.foldl Fanout.act
        { traffic := start i r, batcher := { interval := interval, batches := { limit := limit } } }).batcher =
      (Batcher.run interval limit (batcherMoves (start i r) acts)).batcher ∧
    Batched i r limit pool (intakeMoves acts) (Batcher.run interval limit (batcherMoves (start i r) acts)) ∧
    (((batched pool (start i r) (intakeMoves acts)).map (·.1)).Pairwise (· < ·) ↔
      ∀ j k, ¬Overtakes i r pool (intakeMoves acts) k j) := by
  have sound := Batcher.run_sound interval limit (batcherMoves (start i r) acts)
  have enqueued := (Batcher.records_run interval limit pool (batcherMoves (start i r) acts)).trans
    (arrivals_batcherMoves acts (start i r))
  refine ⟨?_, ⟨batched_eq i r pool _, enqueued, ?_, ?_⟩, inOrder_iff i r pool _⟩
  · rw [Fanout.foldl_act_batcher, run_batcher]
  · rw [← enqueued, sound.pending]
    exact ((Batcher.cut_sublist limit _).append_left _).trans (sound.fair.sublist_batches pool)
  · rintro rfl
    rw [← enqueued, sound.pending]
    exact sound.fair.flatten_batches pool

/-! ## A trade that is overtaken -/

/-- A buy in pool P, numbered by its signature. -/
def numberedBuy (n : UInt8) : Arrival := { smallBuy with transaction := { smallBuy.transaction with signature := [n] } }

/-- The transaction that a payload tells of. -/
def txHash? : Json → Option String
  | .obj (("txHash", .str s) :: _) => some s
  | _ => none

/-- Two buys arrive, and the write of the second ends first. -/
def overtaking : List Act := [
  .intake (.arrive (numberedBuy 0)), .intake (.arrive (numberedBuy 1)), .intake (.answer 1 none),
  .intake (.answer 0 none), .batcher (.ask .flush 0) rfl]

theorem overtaken_trade_batched_last :
    let known : Registry := { pools := [("P", ⟨6, 9⟩)] }
    (line? {} known "P" (arrivals (intakeMoves overtaking)) 0).map (·.txHash) = some "1" ∧
    (line? {} known "P" (arrivals (intakeMoves overtaking)) 1).map (·.txHash) = some "2" ∧
    (batched "P" (start {} known) (intakeMoves overtaking)).map (·.1) = [1, 0] ∧
    (Batcher.History.batches "P" (Batcher.run 200 none (batcherMoves (start {} known) overtaking)).history).map
      (·.map txHash?) = [[some "2", some "1"]] := by
  refine ⟨?_, ?_, ?_, ?_⟩ <;> decide +kernel

end PoolFeed.Intake
