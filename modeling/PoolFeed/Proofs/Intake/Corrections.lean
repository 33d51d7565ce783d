import PoolFeed.Proofs.Intake.Filing

/-!
# What corrects the decimals of a pool

| here | there |
| --- | --- |
| `Drafts` | a `CreatePoolEvent` with the decimals that the class gives it, which `_on_create_pool` registers |
| `Evident` | decimals are corrected by a `CreatePoolEvent` into which an event record was merged |

A creation is drafted with decimals 6 and 9, and a payload of the swap program fills in those of the mints. What the
intake tells the registry does not show whether that has happened, so that a draft corrects decimals just as a payload
does. `corrections_evident_iff` says when all corrections of a run rest on a payload, and what each move makes of the
decimals of a pool; `draftedCreation_misleads` is a draft that overrides the decimals which the shared store knew.
-/

namespace PoolFeed

theorem Roster.put_put_self {α : Type} {key : String} (v w : α) :
    ∀ r : Roster α, (r.put key v).put key w = r.put key w
  | [] => by simp [put]
  | (k, u) :: rest => by
    by_cases h : k = key
    · simp [put, h]
    · simp [put, h, put_put_self v w rest]

namespace Chain.Swaps

/-- There is no event without a time. -/
theorem read_untimed (d : Swaps) (e : ClockError) (t : Transaction) : (d.read (.error e) t).1 = none := by
  simp only [read]
  split
  · rfl
  · simp only [scan]
    split
    · rfl
    · split <;> rfl

/-- The source of an event has its record. -/
theorem parse_of_source {d : Swaps} {t : Transaction} {position : Nat} {ix : Instruction} {call : Call} {p : Parties}
    {e : Instruction} (hdraft : d.drafted? t = some (position, ix, call, p)) (hsource : d.source? t = some e) :
    ∃ record, call.event.parse? e.data = some record := by
  rw [source?, hdraft, Option.bind_some] at hsource
  have hcarries : Carries call.eventTag call.event.size e := of_decide_eq_true (List.find?_some hsource :)
  exact Layout.exists_parse hcarries.2

end Chain.Swaps

namespace Intake

/-! ## Payloads and drafts -/

/-- The record of a created pool in the payload that fills the event in. -/
def payload? (t : Terms) (a : Arrival) : Option Record :=
  (Chain.Swaps.source? { program := t.swapProgram } a.transaction).bind (Chain.createPoolEvent.parse? ·.data)

/-- The base decimals that an arrival proves for a pool. -/
def proved? (t : Terms) (pool : String) (a : Arrival) : Option Int :=
  match eventOf t a with
  | some (.poolCreation c) =>
    if t.tracksCreations ∧ pool = c.pool then (payload? t a).map (·.number "base_mint_decimals") else none
  | some (.migration _) | some (.trade _) | none => none

/-- An arrival is the creation of a pool, is not passed over, and has no payload. -/
def Drafts (t : Terms) (pool : String) (a : Arrival) : Prop :=
  ∃ c, eventOf t a = some (.poolCreation c) ∧ t.tracksCreations ∧ pool = c.pool ∧ payload? t a = none

/-- A creation has the decimals of its payload, or those of drafts. -/
theorem baseDecimals_of_eventOf {t : Terms} {a : Arrival} {c : PoolCreation}
    (h : eventOf t a = some (.poolCreation c)) :
    c.baseDecimals = ((payload? t a).map (·.number "base_mint_decimals")).getD 6 := by
  unfold eventOf at h
  split at h
  · cases h
  · cases hnow : a.now with
    | error e =>
      rw [hnow, Chain.Swaps.read_untimed] at h
      cases h
    | ok ms =>
      rw [hnow, Chain.Swaps.read_event_eq] at h
      obtain ⟨⟨position, ix, call, p⟩, hdraft, hfilled⟩ := Option.map_eq_some_iff.1 h
      cases call with
      | trade side => cases hfilled
      | createPool =>
        unfold payload?
        cases hsource : Chain.Swaps.source? { program := t.swapProgram } a.transaction with
        | none =>
          rw [hsource] at hfilled
          cases hfilled
          rfl
        | some e =>
          obtain ⟨record, hrecord⟩ := Chain.Swaps.parse_of_source hdraft hsource
          simp only [hsource, Chain.Swaps.filled, Option.bind_some, hrecord] at hfilled
          cases hfilled
          rw [Option.bind_some, show Chain.createPoolEvent.parse? e.data = some record from hrecord]
          rfl

/-- What an arrival tells of a pool is proved by its payload, or is a draft. -/
theorem told?_eventOf (t : Terms) (pool : String) (a : Arrival) :
    (proved? t pool a = told? t pool (eventOf t a) ∧ ¬ Drafts t pool a) ∨
      proved? t pool a = none ∧ told? t pool (eventOf t a) = some 6 ∧ Drafts t pool a := by
  unfold proved? Drafts
  cases hevent : eventOf t a with
  | none => exact .inl ⟨rfl, by simp⟩
  | some e =>
    cases e with
    | migration m => exact .inl ⟨rfl, by simp⟩
    | trade e => exact .inl ⟨rfl, by simp⟩
    | poolCreation c =>
      have hbase := baseDecimals_of_eventOf hevent
      simp only [told?]
      by_cases hc : t.tracksCreations ∧ pool = c.pool
      · cases hpayload : payload? t a with
        | none =>
          rw [hpayload] at hbase
          refine .inr ⟨by simp, ?_, c, rfl, hc.1, hc.2, rfl⟩
          rw [if_pos hc, hbase]
          rfl
        | some record =>
          rw [hpayload] at hbase
          refine .inl ⟨?_, by simp⟩
          rw [if_pos hc, if_pos hc, hbase]
          rfl
      · refine .inl ⟨by rw [if_neg hc, if_neg hc], ?_⟩
        rintro ⟨c', hc', htracks, hpool, -⟩
        cases hc'
        exact hc ⟨htracks, hpool⟩

/-- The creation of pool P, without a payload. -/
def draftedCreation : Arrival where
  now := .ok 1700000000000
  transaction := {
    signature := [0]
    slot := 1
    keys := ["P", "G", "U", "B", "Q", Chain.pumpSwapProgram]
    instructions := [⟨5, Chain.createPoolCall ++ Bytes.ofLeNat 2 0 ++ Bytes.ofLeNat 8 1 ++ Bytes.ofLeNat 8 1,
      [0, 1, 2, 3, 4]⟩] }

/-- The same creation with a payload, in which the decimals of the mints are 9 and 9. -/
def confirmedCreation : Arrival :=
  { draftedCreation with
    transaction := { draftedCreation.transaction with
      inner := [(0, [⟨5, Chain.createPoolEventTag ++ List.replicate 106 0 ++ [9, 9], []⟩])] } }

example : proved? (terms { tracksCreations := true } {}) "P" draftedCreation = none := by decide +kernel
example : proved? (terms { tracksCreations := true } {}) "P" confirmedCreation = some 9 := by decide +kernel

/-! ## Decimals along a run -/

/-- The base decimals of a pool, if it is tracked. -/
def Traffic.base? (s : Traffic) (pool : String) : Option Int := (s.registry.pools.get? pool).map Scale.base

/-- A pool that is known gets the decimals that an event tells of it. -/
theorem learn_base {t : Terms} {known : Known} {pool : String} {old : Int}
    (h : (known pool).map Scale.base = some old) (e : Option Event) :
    (learn t known e pool).map Scale.base = some ((told? t pool e).getD old) := by
  rcases e with _ | m | c | e
  · exact h
  · simp only [learn, told?]
    split
    · exact h
    · rename_i hunknown
      by_cases hp : pool = m.pool
      · rw [hp, Option.not_isSome_iff_eq_none.1 hunknown] at h
        cases h
      · simpa [hp] using h
  · simp only [learn, told?]
    by_cases hp : pool = c.pool
    · subst hp
      by_cases ht : t.tracksCreations
      · by_cases hsame : (known c.pool).map Scale.base = some c.baseDecimals
        · simp [ht, hsame]
        · simp [ht, hsame]
      · simpa [ht] using h
    · split
      · simpa [hp] using h
      · simpa [hp] using h
  · exact h

variable {i : Intake} {r : Registry} {moves : List Move} {pool : String} {old : Int}

theorem run_base? (i : Intake) (r : Registry) (moves : List Move) (pool : String) :
    (run i r moves).base? pool = ((referenceOf i r (arrivals moves)).known pool).map Scale.base := by
  rw [Traffic.base?, (run_follows i r moves).known]

/-- Only an arrival can change the decimals of a pool, to those that its event tells. -/
theorem base?_concat (h : (run i r moves).base? pool = some old) (m : Move) :
    (run i r (moves ++ [m])).base? pool =
      some ((m.arrival?.bind fun a => told? (terms i r) pool (eventOf (terms i r) a)).getD old) := by
  rw [run_base?] at h
  rw [run_base?, arrivals_concat]
  cases m with
  | arrive a =>
    rw [Move.arrival?, Option.toList_some, referenceOf_concat, Reference.next, Option.bind_some]
    exact learn_base h _
  | answer j failure => simpa [Move.arrival?] using h
  | writeThrough ticket failure => simpa [Move.arrival?] using h

/-- What a move makes of the base decimals of a pool that is tracked. -/
inductive Revises (t : Terms) (pool : String) (old : Int) : Move → Int → Prop where
  | proof {a : Arrival} {new : Int} : proved? t pool a = some new → Revises t pool old (.arrive a) new
  | draft {a : Arrival} : Drafts t pool a → Revises t pool old (.arrive a) 6
  | other {m : Move} : (∀ a, m = .arrive a → proved? t pool a = none ∧ ¬ Drafts t pool a) → Revises t pool old m old

/-- A pool that is tracked stays so. -/
theorem exists_revises (h : (run i r moves).base? pool = some old) (m : Move) :
    ∃ new, (run i r (moves ++ [m])).base? pool = some new ∧ Revises (terms i r) pool old m new := by
  refine ⟨_, base?_concat h m, ?_⟩
  cases m with
  | arrive a =>
    rw [Move.arrival?, Option.bind_some]
    obtain ⟨htold, hdraft⟩ | ⟨-, htold, hdraft⟩ := told?_eventOf (terms i r) pool a
    · rw [← htold]
      cases hproved : proved? (terms i r) pool a with
      | none =>
        refine .other fun b hb => ?_
        cases hb
        exact ⟨hproved, hdraft⟩
      | some new => exact .proof hproved
    · rw [htold]
      exact .draft hdraft
  | answer j failure => exact .other (by rintro _ ⟨⟩)
  | writeThrough ticket failure => exact .other (by rintro _ ⟨⟩)

/-! ## The order of events -/

/-- The pools of a registry after an event, in the order in which they have come. -/
def enroll (t : Terms) (pools : Roster Scale) : Option Event → Roster Scale
  | some (.migration m) => if pools.has m.pool then pools else pools.put m.pool t.default
  | some (.poolCreation c) =>
    if t.tracksCreations ∧ (pools.get? c.pool).map Scale.base ≠ some c.baseDecimals then
      pools.put c.pool ⟨c.baseDecimals, t.default.quote⟩
    else pools
  | some (.trade _) | none => pools

theorem enroll_congr {t u : Terms} (htracks : t.tracksCreations = u.tracksCreations) (hdefault : t.default = u.default) :
    enroll t = enroll u := by
  funext pools e
  unfold enroll
  simp only [htracks, hdefault]

theorem Turn.migration_pools (t : Turn) (m : Migration) :
    (t.migration m).registry.pools = enroll (terms t.intake t.registry) t.registry.pools (some (.migration m)) := by
  show ((t.change fun i => { i with migrations := i.migrations + 1 }).track m.pool).registry.pools = _
  unfold Turn.track Registry.isTracked
  split
  · rename_i hhas
    exact (if_pos hhas).symm
  · rename_i hhas
    have hnone : t.registry.pools.get? m.pool = none := Option.not_isSome_iff_eq_none.1 hhas
    rw [(Turn.register_eq _ _).2.1, Registry.register_pools, Turn.change_registry, hnone,
      if_neg (by simp)]
    exact (if_neg hhas).symm

theorem Turn.creation_pools (t : Turn) (c : PoolCreation) :
    (t.creation c).registry.pools = enroll (terms t.intake t.registry) t.registry.pools (some (.poolCreation c)) := by
  simp only [Turn.creation, enroll, terms]
  by_cases htracks : t.intake.tracksCreations
  · rw [if_pos htracks]
    show (Turn.register _ c.pool c.baseDecimals).registry.pools = _
    rw [(Turn.register_eq _ _).2.1, Registry.register_pools, Turn.change_registry]
    by_cases hsame : (t.registry.pools.get? c.pool).map Scale.base = some c.baseDecimals
    · simp [hsame]
    · simp [hsame, htracks]
  · simp [htracks]

theorem Turn.trade_pools (t : Turn) (e : Trade) : (t.trade e).registry.pools = t.registry.pools := by
  unfold Turn.trade
  split
  · dsimp only
    split <;> rfl
  · rfl

theorem begin_pools (i : Intake) (r : Registry) (a : Arrival) :
    (begin i r a.now a.transaction).2.registry.pools = enroll (terms i r) r.pools (eventOf (terms i r) a) := by
  rw [← (begin_handles i r a).1]
  have hnot := Chain.Swaps.read_ne_migration i.swapsReader a.now a.transaction
  unfold begin
  obtain ⟨m, reader, log⟩ := i.migrationsReader.read a.now a.transaction
  obtain ⟨hi, hr, -, -⟩ := Turn.foldl_log log ⟨{ i with migrationsReader := reader }, r, [], .finished⟩
  cases m with
  | some m =>
    dsimp only
    rw [Turn.migration_pools, enroll_congr (u := terms i r) (by rw [terms, hi]; rfl) (by rw [terms, hr]; rfl), hr]
  | none =>
    dsimp only
    generalize i.swapsReader.read a.now a.transaction = read at hnot ⊢
    obtain ⟨event, swapsReader, swapsLog⟩ := read
    obtain ⟨hi', hr', -, -⟩ := Turn.foldl_log swapsLog ((log.foldl Turn.log
      ⟨{ i with migrationsReader := reader }, r, [], .finished⟩).change fun i => { i with swapsReader := swapsReader })
    rw [Turn.change_intake, hi] at hi'
    rw [Turn.change_registry, hr] at hr'
    cases event with
    | none => exact congrArg Registry.pools hr'
    | some event =>
      cases event with
      | migration m => exact absurd rfl (hnot m)
      | trade e => exact (Turn.trade_pools _ e).trans (congrArg Registry.pools hr')
      | poolCreation c =>
        dsimp only
        rw [Turn.creation_pools, enroll_congr (u := terms i r) (by rw [terms, hi']; rfl) (by rw [terms, hr']; rfl), hr']

/-- The pools of a registry follow from the events that have arrived, in their order. -/
theorem run_pools (i : Intake) (r : Registry) (moves : List Move) :
    (run i r moves).registry.pools = (eventsOf i r (arrivals moves)).foldl (enroll (terms i r)) r.pools := by
  induction moves using List.reverseRecOn with
  | nil => rfl
  | append_singleton moves m ih =>
    rw [run_concat, arrivals_concat]
    cases m with
    | arrive a =>
      have hterms := (run_follows i r moves).terms
      rw [Move.arrival?, Option.toList_some, eventsOf, List.map_append, List.foldl_append, List.map_singleton,
        List.foldl_cons, List.foldl_nil, ← eventsOf, ← ih, ← hterms]
      exact begin_pools _ _ a
    | answer j failure =>
      rw [Move.arrival?, Option.toList_none, List.append_nil, ← ih]
      unfold Traffic.step
      dsimp only
      split
      · exact congrArg Registry.pools (resume_follows _ _ _ failure).2.1
      · rfl
    | writeThrough ticket failure =>
      rw [Move.arrival?, Option.toList_none, List.append_nil, ← ih]
      cases failure with
      | none => exact (Registry.writeDone_answers _ ticket).1
      | some reason => exact (Registry.writeFailed_answers _ ticket reason).1

/-- A migration and a creation of one pool may come in either order. -/
theorem enroll_comm (t : Terms) (pools : Roster Scale) {m : Migration} {c : PoolCreation} (h : m.pool = c.pool) :
    enroll t (enroll t pools (some (.migration m))) (some (.poolCreation c)) =
      enroll t (enroll t pools (some (.poolCreation c))) (some (.migration m)) := by
  by_cases htracks : t.tracksCreations
  · simp only [enroll, h, htracks, true_and, Roster.has]
    cases hknown : pools.get? c.pool with
    | some old =>
      by_cases hsame : old.base = c.baseDecimals
      · simp [hknown, hsame]
      · simp [hknown, hsame]
    | none =>
      by_cases hsame : t.default.base = c.baseDecimals
      · simp [← hsame]
      · simp [hsame, Roster.put_put_self]
  · simp [enroll, htracks]

/-! ## Evidence -/

/-- The base decimals of tracked pools change only by arrivals that prove the new ones. -/
def Evident (i : Intake) (r : Registry) (moves : List Move) : Prop :=
  ∀ before m after pool old new, before ++ m :: after = moves → (run i r before).base? pool = some old →
    (run i r (before ++ [m])).base? pool = some new → new ≠ old →
    ∃ a, m = .arrive a ∧ proved? (terms i r) pool a = some new

/-- A draft comes of a tracked pool that has other decimals than drafts have. -/
def Misled (i : Intake) (r : Registry) (moves : List Move) : Prop :=
  ∃ before a after pool old, before ++ .arrive a :: after = moves ∧ Drafts (terms i r) pool a ∧
    (run i r before).base? pool = some old ∧ old ≠ 6

theorem evident_iff (i : Intake) (r : Registry) (moves : List Move) : Evident i r moves ↔ ¬ Misled i r moves := by
  constructor
  · rintro h ⟨before, a, after, pool, old, hmoves, hdraft, hold, hne⟩
    obtain ⟨-, hnot⟩ | ⟨hproved, htold, -⟩ := told?_eventOf (terms i r) pool a
    · exact hnot hdraft
    · have hnew := base?_concat hold (.arrive a)
      rw [Move.arrival?, Option.bind_some, htold, Option.getD_some] at hnew
      obtain ⟨b, hb, hproof⟩ := h before (.arrive a) after pool old 6 hmoves hold hnew (Ne.symm hne)
      cases hb
      rw [hproved] at hproof
      cases hproof
  · intro h before m after pool old new hmoves hold hnew hne
    obtain ⟨new', hnew', hrevises⟩ := exists_revises hold m
    obtain rfl : new = new' := Option.some.inj (hnew.symm.trans hnew')
    cases hrevises with
    | proof hproved => exact ⟨_, rfl, hproved⟩
    | draft hdraft => exact absurd ⟨before, _, after, pool, old, hmoves, hdraft, hold, Ne.symm hne⟩ h
    | other _ => exact absurd rfl hne

/-- **Corrections rest on payloads exactly if no draft comes of a tracked pool whose base decimals are not 6.** A move
makes the base decimals of a tracked pool those of a payload, or 6 by a draft, or leaves them as they are, as every
migration does; a migration and a creation of one pool, one after the other, may change places. -/
theorem corrections_evident_iff (i : Intake) (r : Registry) (moves : List Move) :
    (Evident i r moves ↔ ¬ Misled i r moves) ∧
    (∀ before m pool old, (run i r before).base? pool = some old →
      ∃ new, (run i r (before ++ [m])).base? pool = some new ∧ Revises (terms i r) pool old m new) ∧
    (∀ before a m pool old, eventOf (terms i r) a = some (.migration m) → (run i r before).base? pool = some old →
      (run i r (before ++ [.arrive a])).base? pool = some old) ∧
    (∀ moves₁ moves₂ as bs a b m c, arrivals moves₁ = as ++ a :: b :: bs → arrivals moves₂ = as ++ b :: a :: bs →
      eventOf (terms i r) a = some (.migration m) → eventOf (terms i r) b = some (.poolCreation c) →
      m.pool = c.pool → (run i r moves₁).registry.pools = (run i r moves₂).registry.pools) := by
  refine ⟨evident_iff i r moves, fun before m pool old hold => exists_revises hold m, ?_, ?_⟩
  · intro before a m pool old hevent hold
    have hnew := base?_concat hold (.arrive a)
    rwa [Move.arrival?, Option.bind_some, hevent, told?, Option.getD_none] at hnew
  · intro moves₁ moves₂ as bs a b m c h₁ h₂ ha hb hpool
    rw [run_pools, run_pools, h₁, h₂]
    simp only [eventsOf, List.map_append, List.map_cons, List.foldl_append, List.foldl_cons, ha, hb,
      enroll_comm _ _ hpool]

/-- The shared store knows pool P with decimals 9; a draft makes them 6. -/
theorem draftedCreation_misleads :
    (run { tracksCreations := true } (Registry.load {} ["P"] [("P", 9)]).2.1 []).base? "P" = some 9 ∧
    (run { tracksCreations := true } (Registry.load {} ["P"] [("P", 9)]).2.1 [.arrive draftedCreation]).base? "P" =
      some 6 ∧
    payload? (terms { tracksCreations := true } {}) draftedCreation = none ∧
    ¬ Evident { tracksCreations := true } (Registry.load {} ["P"] [("P", 9)]).2.1 [.arrive draftedCreation] := by
  have hnew : (run { tracksCreations := true } (Registry.load {} ["P"] [("P", 9)]).2.1
      [.arrive draftedCreation]).base? "P" = some 6 := by decide +kernel
  refine ⟨by decide, hnew, by decide +kernel, fun h => ?_⟩
  obtain ⟨a, ha, hproved⟩ := h [] _ [] "P" 9 6 rfl (by decide) hnew (by decide)
  cases ha
  exact absurd hproved (by decide +kernel)

end Intake

end PoolFeed
