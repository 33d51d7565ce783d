import PoolFeed.Proofs.Chain.EventBounds
import PoolFeed.Proofs.Intake.Turns
import PoolFeed.Proofs.Scaling

/-!
# Transactions under way together

| here | there |
| --- | --- |
| `Move` | a call of `TransactionProcessor.process`, the end of an awaited `upsert_pool`, `insert_trade` or `emit_global`, or that of a command in `_write_through` |
| `Errand` | such a call under way |

Transactions arrive one after the other and then wait, each for its own answers, which come in any order
and may be failures. Meanwhile the registry writes its changes through, as it likes. `run_agrees` says that
none of this matters: in every state, what each transaction has done is the beginning of its script in the
reference, and all of it once it waits no more.
-/

namespace PoolFeed.Intake

/-- A transaction that has arrived, with what it has done so far. -/
structure Errand where
  event : Option Event
  effects : List Effect
  progress : Progress

structure Traffic where
  intake : Intake
  registry : Registry
  /-- In order of arrival. -/
  errands : List Errand := []
  /-- Writes to the ledger that have failed. -/
  refusals : Nat := 0

inductive Move where
  | arrive (a : Arrival)
  /-- What a transaction waits for is answered: it has failed for a reason, or not. -/
  | answer (errand : Nat) (failure : Option String)
  /-- A command of the registry's write-through is answered. -/
  | writeThrough (ticket : Nat) (failure : Option String)

def Move.arrival? : Move → Option Arrival
  | .arrive a => some a
  | .answer _ _ | .writeThrough _ _ => none

/-- The transactions that arrive in the course of some moves. -/
def arrivals (moves : List Move) : List Arrival := moves.filterMap Move.arrival?

def Traffic.step (s : Traffic) : Move → Traffic
  | .arrive a =>
    let (event, t) := s.intake.begin s.registry a.now a.transaction
    { s with intake := t.intake, registry := t.registry, errands := s.errands ++ [⟨event, t.effects, t.progress⟩] }
  | .answer j failure =>
    match s.errands[j]? with
    | some ⟨event, effects, .waits w⟩ =>
      let t := s.intake.resume s.registry w failure
      { intake := t.intake
        registry := t.registry
        errands := s.errands.set j ⟨event, effects ++ t.effects, t.progress⟩
        refusals := s.refusals + (w.isSave && failure.isSome).toNat }
    | _ => s
  | .writeThrough ticket failure =>
    { s with registry := match failure with
        | none => s.registry.writeDone ticket
        | some reason => (s.registry.writeFailed ticket reason).1 }

def run (i : Intake) (r : Registry) (moves : List Move) : Traffic :=
  moves.foldl Traffic.step { intake := i, registry := r }

theorem run_concat (i : Intake) (r : Registry) (moves : List Move) (m : Move) :
    run i r (moves ++ [m]) = (run i r moves).step m := by
  simp only [run, List.foldl_append, List.foldl_cons, List.foldl_nil]

theorem arrivals_concat (moves : List Move) (m : Move) :
    arrivals (moves ++ [m]) = arrivals moves ++ m.arrival?.toList := by
  simp only [arrivals, List.filterMap_append]
  cases m <;> rfl

/-- The events of transactions, in order of arrival. -/
def eventsOf (i : Intake) (r : Registry) (as : List Arrival) : List (Option Event) := as.map (eventOf (terms i r))

/-- What the reference makes of transactions. -/
def referenceOf (i : Intake) (r : Registry) (as : List Arrival) : Reference :=
  reference (terms i r) r.pools.get? (eventsOf i r as)

/-! ## The invariant -/

/-- What each transaction has done and what it still has to do make up its script, and the registry knows the
pools that the reference knows. -/
structure Follows (i : Intake) (r : Registry) (as : List Arrival) (s : Traffic) : Prop where
  terms : terms s.intake s.registry = terms i r
  known : s.registry.pools.get? = (referenceOf i r as).known
  events : s.errands.map (·.event) = eventsOf i r as
  scripts : (s.errands.map fun e => e.effects ++ e.progress.rest) = (referenceOf i r as).scripts
  begins : ∀ e ∈ s.errands, e.effects = [] → e.progress.rest = []
  intake : s.intake =
    { as.foldl look i with
      migrations := i.migrations + (referenceOf i r as).migrations
      creations := i.creations + (referenceOf i r as).creations
      untracked := i.untracked + (referenceOf i r as).untracked
      forwarded := i.forwarded + (s.errands.flatMap (·.effects)).countP Effect.isBatch
      storageErrors := i.storageErrors + s.refusals }

theorem follows_start (i : Intake) (r : Registry) : Follows i r [] { intake := i, registry := r } :=
  ⟨rfl, rfl, rfl, rfl, fun _ h => absurd h List.not_mem_nil, rfl⟩

theorem referenceOf_concat (i : Intake) (r : Registry) (as : List Arrival) (a : Arrival) :
    referenceOf i r (as ++ [a]) = (referenceOf i r as).next (terms i r) (eventOf (terms i r) a) := by
  rw [referenceOf, eventsOf, List.map_append, List.map_singleton, reference_concat]
  rfl

variable {i : Intake} {r : Registry} {as : List Arrival} {s : Traffic}

/-- An arrival is the next event of the reference. -/
theorem Follows.arrive (h : Follows i r as s) (a : Arrival) : Follows i r (as ++ [a]) (s.step (.arrive a)) := by
  obtain ⟨hevent, t, hi, hr, ht⟩ := begin_handles s.intake s.registry a
  rw [h.terms] at hevent ht
  obtain ⟨heffects, hrest, hknown, hdefaults, hintake⟩ := ht
  have hterms : Intake.terms t.intake t.registry = Intake.terms i r := by rw [hi, hr, terms_look, h.terms]
  rw [hterms, hr, h.known] at heffects hrest hknown hintake
  rw [hi] at hintake
  have hstep : s.step (.arrive a) =
      { s with
        intake := (s.intake.begin s.registry a.now a.transaction).2.intake
        registry := (s.intake.begin s.registry a.now a.transaction).2.registry
        errands := s.errands ++ [⟨eventOf (Intake.terms i r) a,
          (s.intake.begin s.registry a.now a.transaction).2.effects,
          (s.intake.begin s.registry a.now a.transaction).2.progress⟩] } := by
    rw [← hevent]
    rfl
  rw [hstep]
  generalize (s.intake.begin s.registry a.now a.transaction).2 = t' at *
  refine ⟨?_, ?_, ?_, ?_, ?_, ?_⟩
  · show Intake.terms t'.intake t'.registry = _
    rw [← hterms]
    simp only [Intake.terms, hintake, hi, hdefaults, count]
  · rw [referenceOf_concat]
    exact hknown
  · simp only [List.map_append, h.events, eventsOf, List.map_cons, List.map_nil]
  · rw [referenceOf_concat]
    simp only [List.map_append, h.scripts, Reference.next, List.map_cons, List.map_nil, heffects, hrest,
      List.take_append_drop]
  · intro e he hnone
    rcases List.mem_append.1 he with he | he
    · exact h.begins e he hnone
    · rw [List.mem_singleton.1 he] at hnone ⊢
      have hnil := heffects.symm.trans hnone
      rw [List.take_eq_nil_iff] at hnil
      rw [hrest, hnil.resolve_left Nat.one_ne_zero, List.drop_nil]
  · rw [referenceOf_concat]
    simp only [hintake, count, h.intake, Reference.next, List.foldl_append, List.foldl_cons, List.foldl_nil,
      List.flatMap_append, List.countP_append, heffects, List.flatMap_cons, List.flatMap_nil, List.append_nil,
      script_begins, Nat.add_zero, Nat.add_assoc, look]

/-- An answer moves effects of one transaction from those to come to those that are done. -/
theorem Follows.answer (h : Follows i r as s) (j : Nat) (failure : Option String) :
    Follows i r as (s.step (.answer j failure)) := by
  unfold Traffic.step
  dsimp only
  split
  · rename_i event effects w hj
    obtain ⟨heffects, hr, hi⟩ := resume_follows s.intake s.registry w failure
    obtain ⟨hlt, hget⟩ := List.getElem?_eq_some_iff.1 hj
    obtain ⟨before, after, hsplit, -, hset⟩ := @List.exists_of_set _ j (Errand.mk event (effects ++
      (s.intake.resume s.registry w failure).effects) (s.intake.resume s.registry w failure).progress) _ hlt
    rw [hget] at hsplit
    generalize s.intake.resume s.registry w failure = t at *
    refine ⟨?_, ?_, ?_, ?_, fun e he hnone => ?_, ?_⟩
    · rw [← h.terms]
      simp only [Intake.terms, hr, hi]
    · rw [← h.known, hr]
    · rw [← h.events, hset, hsplit]
      simp only [List.map_append, List.map_cons]
    · rw [← h.scripts, hset, hsplit]
      simp only [List.map_append, List.map_cons, List.append_assoc, heffects]
    · simp only [hset, List.mem_append, List.mem_cons] at he
      rcases he with he | rfl | he
      · exact h.begins e (by rw [hsplit]; exact List.mem_append_left _ he) hnone
      · obtain ⟨hold, hnew⟩ := List.append_eq_nil_iff.1 hnone
        have hrest := h.begins ⟨event, effects, .waits w⟩ (List.mem_of_getElem? hj) hold
        rw [hrest] at heffects
        exact (List.append_eq_nil_iff.1 heffects).2
      · exact h.begins e (by rw [hsplit]; exact List.mem_append_right _ (List.mem_cons_of_mem _ he)) hnone
    · rw [hi, h.intake]
      simp only [hset]
      rw [hsplit]
      simp only [List.flatMap_append, List.flatMap_cons, List.countP_append, Nat.add_assoc, Nat.add_comm,
        Nat.add_left_comm]
  · exact h

theorem Follows.writeThrough (h : Follows i r as s) (ticket : Nat) (failure : Option String) :
    Follows i r as (s.step (.writeThrough ticket failure)) := by
  cases failure with
  | none =>
    obtain ⟨hp, hb, hq⟩ := Registry.writeDone_answers s.registry ticket
    exact { h with
      terms := by rw [← h.terms]; simp only [Traffic.step, Intake.terms, hb, hq]
      known := by rw [← h.known]; simp only [Traffic.step, hp] }
  | some reason =>
    obtain ⟨hp, hb, hq⟩ := Registry.writeFailed_answers s.registry ticket reason
    exact { h with
      terms := by rw [← h.terms]; simp only [Traffic.step, Intake.terms, hb, hq]
      known := by rw [← h.known]; simp only [Traffic.step, hp] }

/-! ## Runs -/

theorem run_follows (i : Intake) (r : Registry) (moves : List Move) : Follows i r (arrivals moves) (run i r moves) := by
  induction moves using List.reverseRecOn with
  | nil => exact follows_start i r
  | append_singleton moves m ih =>
    rw [run_concat, arrivals_concat]
    cases m with
    | arrive a => exact ih.arrive a
    | answer j failure =>
      rw [Move.arrival?, Option.toList_none, List.append_nil]
      exact ih.answer j failure
    | writeThrough ticket failure =>
      rw [Move.arrival?, Option.toList_none, List.append_nil]
      exact ih.writeThrough ticket failure

/-! ## Decimals -/

/-- Pools that can be scaled: none has negative decimals. -/
def Unsigned (known : Known) : Prop := ∀ pool scale, known pool = some scale → 0 ≤ scale.base ∧ 0 ≤ scale.quote

/-- Events report decimals in single bytes. -/
theorem learn_unsigned {t : Terms} {known : Known} (a : Arrival) (ht : 0 ≤ t.default.base ∧ 0 ≤ t.default.quote)
    (h : Unsigned known) : Unsigned (learn t known (eventOf t a)) := by
  intro pool scale
  unfold eventOf
  cases migrationOf t a with
  | some m =>
    simp only [learn]
    split
    · exact h pool scale
    · dsimp only
      split
      · rintro ⟨⟩
        exact ht
      · exact h pool scale
  | none =>
    cases hread : (Chain.Swaps.read { program := t.swapProgram } a.now a.transaction).1 with
    | none => exact h pool scale
    | some e =>
      cases e with
      | migration m => exact absurd hread (Chain.Swaps.read_ne_migration _ _ _ m)
      | trade e => exact h pool scale
      | poolCreation c =>
        simp only [learn]
        split
        · dsimp only
          split
          · rintro ⟨⟩
            exact ⟨(Chain.Swaps.decimals_of_poolCreation hread).1, ht.2⟩
          · exact h pool scale
        · exact h pool scale

theorem referenceOf_unsigned {i : Intake} {r : Registry} (hdefault : 0 ≤ r.defaultBase ∧ 0 ≤ r.quote)
    (hpools : Unsigned r.pools.get?) (as : List Arrival) : Unsigned (referenceOf i r as).known := by
  induction as using List.reverseRecOn with
  | nil => exact hpools
  | append_singleton as a ih =>
    rw [referenceOf_concat]
    exact learn_unsigned a hdefault ih

theorem amounts_of_eventOf {t : Terms} {a : Arrival} {e : Trade} (h : eventOf t a = some (.trade e)) :
    e.tokenAmount.natAbs < Bytes.span 8 ∧ e.solAmount.natAbs < Bytes.span 8 := by
  unfold eventOf at h
  split at h
  · cases h
  · exact Chain.Swaps.amounts_of_trade h

/-! ## The whole -/

def Progress.isWaiting : Progress → Bool
  | .waits _ => true
  | .finished | .failed _ => false

/-- A state in which everything is as the reference has it: each transaction has done the beginning of its script,
at least the first effect of it, and all of it if it waits no more; and everything that is known, counted or read
is what the arrivals make of it, except for the answers that the ledger has given. -/
structure Agrees (i : Intake) (r : Registry) (as : List Arrival) (s : Traffic) : Prop where
  events : s.errands.map (·.event) = eventsOf i r as
  effects : ∀ (j : Nat) (e : Errand), s.errands[j]? = some e → ∃ effects,
    (referenceOf i r as).scripts[j]? = some effects ∧ e.effects <+: effects ∧ (e.effects = [] → effects = []) ∧
    (e.progress.isWaiting = false → e.effects = effects)
  known : s.registry.pools.get? = (referenceOf i r as).known
  intake : s.intake =
    { as.foldl look i with
      migrations := i.migrations + (referenceOf i r as).migrations
      creations := i.creations + (referenceOf i r as).creations
      untracked := i.untracked + (referenceOf i r as).untracked
      forwarded := i.forwarded + (s.errands.flatMap (·.effects)).countP Effect.isBatch
      storageErrors := i.storageErrors + s.refusals }

theorem Follows.agrees (h : Follows i r as s) : Agrees i r as s where
  events := h.events
  effects j e hj := by
    refine ⟨e.effects ++ e.progress.rest, ?_, List.prefix_append _ _, fun hnone => ?_, fun hover => ?_⟩
    · rw [← h.scripts, List.getElem?_map, hj, Option.map_some]
    · rw [hnone, h.begins e (List.mem_of_getElem? hj) hnone, List.append_nil]
    · have hrest : e.progress.rest = [] := by
        cases hp : e.progress with
        | waits w =>
          rw [hp] at hover
          cases hover
        | finished => rfl
        | failed f => rfl
      rw [hrest, List.append_nil]
  known := h.known
  intake := h.intake

/-- **Whatever transactions wait for and however that ends, what they do is settled by their order of arrival.** The
script of each depends on the pools known when it came: those known at first and those that an earlier event has
made known. A trade of a known pool whose decimals are not negative can be scaled, so that its script is to save
it and batch it; decimals are not negative if the configured and the loaded ones are not. -/
theorem run_agrees (i : Intake) (r : Registry) (moves : List Move) :
    Agrees i r (arrivals moves) (run i r moves) ∧
    (∀ (j : Nat) e, (eventsOf i r (arrivals moves))[j]? = some e → (referenceOf i r (arrivals moves)).scripts[j]? =
      some (script (terms i r) (referenceOf i r ((arrivals moves).take j)).known e)) ∧
    (∀ (j : Nat) pool, ((referenceOf i r ((arrivals moves).take j)).known pool).isSome ↔
      (r.pools.get? pool).isSome ∨ ∃ e ∈ (eventsOf i r (arrivals moves)).take j, Tracks (terms i r) pool e) ∧
    (∀ (j : Nat) e scale, (eventsOf i r (arrivals moves))[j]? = some (some (.trade e)) →
      (referenceOf i r ((arrivals moves).take j)).known e.pool = some scale → 0 ≤ scale.base → 0 ≤ scale.quote →
      ∃ line, (referenceOf i r (arrivals moves)).scripts[j]? = some [.saveTrade e.pool line, .batch e.pool line]) ∧
    (0 ≤ r.defaultBase ∧ 0 ≤ r.quote → Unsigned r.pools.get? →
      ∀ j, Unsigned (referenceOf i r ((arrivals moves).take j)).known) := by
  have hscript : ∀ (j : Nat) e, (eventsOf i r (arrivals moves))[j]? = some e →
      (referenceOf i r (arrivals moves)).scripts[j]? =
        some (script (terms i r) (referenceOf i r ((arrivals moves).take j)).known e) := by
    intro j e hj
    rw [referenceOf, reference_scripts, hj, Option.map_some, referenceOf, eventsOf, eventsOf, List.map_take]
  refine ⟨(run_follows i r moves).agrees, hscript, fun j pool => ?_, fun j e scale hj hk hbase hquote => ?_,
    fun hdefault hpools j => referenceOf_unsigned hdefault hpools _⟩
  · rw [referenceOf, reference_known, eventsOf, eventsOf, List.map_take]
  · have hmem := List.mem_of_getElem? hj
    obtain ⟨a, -, ha⟩ := List.mem_map.1 hmem
    obtain ⟨htokens, hsol⟩ := amounts_of_eventOf ha
    obtain ⟨line, hline⟩ := TradeLine.ofTrade_of_nonneg htokens hsol hbase hquote
    refine ⟨line, ?_⟩
    rw [hscript j _ hj, script, hk]
    simp only [hline]

/-- A buy in pool P. -/
def smallBuy : Arrival where
  now := .ok 1700000000000
  transaction := {
    signature := [0]
    slot := 1
    keys := ["P", "U", "G", "B", "Q", Chain.pumpSwapProgram]
    instructions :=
      [⟨5, Chain.buyCall ++ Bytes.ofLeNat 8 1000000 ++ Bytes.ofLeNat 8 2000000000, [0, 1, 2, 3, 4]⟩] }

/-- Of decimals below -323 the power of ten is zero as a double: a trade of a tracked pool with such decimals is
given up without any effect. -/
theorem smallBuy_unscaled :
    ({ pools := [("P", ⟨-324, 9⟩)] } : Registry).isTracked "P" ∧
    ((run {} { pools := [("P", ⟨-324, 9⟩)] } [.arrive smallBuy]).errands.map fun e =>
      (match e.event with | some (.trade t) => some t.pool | _ => none, e.effects.length, e.progress.isWaiting)) =
      [(some "P", 0, false)] ∧
    (run {} { pools := [("P", ⟨-324, 9⟩)] } [.arrive smallBuy]).intake.untracked = 0 := by
  refine ⟨by decide, by decide +kernel, by decide +kernel⟩

end PoolFeed.Intake
