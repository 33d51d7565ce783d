import PoolFeed.Proofs.Intake.Reference
import PoolFeed.Proofs.Registry

/-!
# Turns follow the reference

The first turn of a transaction asks and tells the registry all there is to ask and tell; what it waits
for then fixes the effects that are still to come (`Progress.rest`). So the effects of a turn and the rest
together are the script of the event (`begin_follows`), and every later turn moves effects from the rest to
what is done, whether what was waited for has failed or not (`resume_follows`).
-/

namespace PoolFeed.Intake

/-! ## Effects of a turn -/

def Action.effect? : Action → Option Effect
  | .log _ => none
  | .lookUp job => some (.lookUp job)
  | .batch pool line => some (.batch pool line)

/-- What has been asked of the world when a transaction waits. -/
def Wait.effect : Wait → Effect
  | .savingPool row _ => .savePool row
  | .savingTrade pool line => .saveTrade pool line
  | .announcing m => .announce m

def Progress.asked : Progress → List Effect
  | .waits w => [w.effect]
  | .finished | .failed _ => []

/-- The effects that are still to come. -/
def Progress.rest : Progress → List Effect
  | .waits (.savingPool row none) => [.lookUp ⟨row.address, row.baseMint⟩]
  | .waits (.savingPool row (some m)) => [.lookUp ⟨row.address, row.baseMint⟩, .announce m]
  | .waits (.savingTrade pool line) => [.batch pool line]
  | .waits (.announcing _) | .finished | .failed _ => []

def Wait.isSave : Wait → Bool
  | .savingPool _ _ | .savingTrade _ _ => true
  | .announcing _ => false

namespace Turn

variable {t : Turn}

def done (t : Turn) : List Effect := t.actions.filterMap Action.effect?

/-- The effects of a turn: those that it has done on its way and what it has asked for in the end. -/
def effects (t : Turn) : List Effect := t.done ++ t.progress.asked

@[simp] theorem change_intake (f : Intake → Intake) : (t.change f).intake = f t.intake := rfl
@[simp] theorem change_registry (f : Intake → Intake) : (t.change f).registry = t.registry := rfl
@[simp] theorem change_progress (f : Intake → Intake) : (t.change f).progress = t.progress := rfl
@[simp] theorem change_done (f : Intake → Intake) : (t.change f).done = t.done := rfl

@[simp] theorem act_done (a : Action) : (t.act a).done = t.done ++ a.effect?.toList := by
  simp only [done, act, List.filterMap_append]
  cases h : a.effect? <;> simp [h]

@[simp] theorem log_done (e : Log.Entry) : (t.log e).done = t.done := by simp [log, Action.effect?]

/-- Notes change nothing but the notes. -/
theorem foldl_log (es : List Log.Entry) : ∀ t : Turn, (es.foldl log t).intake = t.intake ∧
    (es.foldl log t).registry = t.registry ∧ (es.foldl log t).progress = t.progress ∧
    (es.foldl log t).done = t.done := by
  induction es with
  | nil => exact fun _ => ⟨rfl, rfl, rfl, rfl⟩
  | cons e es ih =>
    intro t
    obtain ⟨hi, hr, hp, hd⟩ := ih (t.log e)
    exact ⟨hi, hr, hp, hd.trans (log_done e)⟩

/-- A registration changes the registry alone. -/
theorem register_eq (pool : String) (decimals : Int) : (t.register pool decimals).intake = t.intake ∧
    (t.register pool decimals).registry = (t.registry.register pool (some decimals)).2.1 ∧
    (t.register pool decimals).progress = t.progress ∧ (t.register pool decimals).done = t.done :=
  foldl_log _ _

end Turn

/-! ## Handling an event -/

/-- An intake that has counted an event. -/
def count (i : Intake) (t : Terms) (known : Known) (e : Option Event) : Intake :=
  { i with
    migrations := i.migrations + (isMigration e).toNat
    creations := i.creations + (isCreation t e).toNat
    untracked := i.untracked + (isUntracked known e).toNat }

theorem count_eq_self {i : Intake} {t : Terms} {known : Known} {e : Option Event} (hm : isMigration e = false)
    (hc : isCreation t e = false) (hu : isUntracked known e = false) : count i t known e = i := by
  simp only [count, hm, hc, hu, Bool.toNat_false, Nat.add_zero]

/-- A turn that has handled an event as the reference does: the first effect is begun at once, the others wait. -/
structure Handles (t : Turn) (e : Option Event) (t' : Turn) : Prop where
  effects : t'.effects = (script (terms t.intake t.registry) t.registry.pools.get? e).take 1
  rest : t'.progress.rest = (script (terms t.intake t.registry) t.registry.pools.get? e).drop 1
  known : t'.registry.pools.get? = learn (terms t.intake t.registry) t.registry.pools.get? e
  defaults : t'.registry.defaultBase = t.registry.defaultBase ∧ t'.registry.quote = t.registry.quote
  intake : t'.intake = count t.intake (terms t.intake t.registry) t.registry.pools.get? e

variable {t : Turn}

/-- Makes a pool tracked unless it is, with the default decimals. -/
def Turn.track (t : Turn) (pool : String) : Turn :=
  if t.registry.isTracked pool then t else t.register pool t.registry.defaultBase

theorem Turn.track_eq (t : Turn) (pool : String) : (t.track pool).intake = t.intake ∧ (t.track pool).done = t.done ∧
    (t.track pool).registry.defaultBase = t.registry.defaultBase ∧ (t.track pool).registry.quote = t.registry.quote ∧
    (t.track pool).registry.pools.get? =
      if (t.registry.pools.get? pool).isSome then t.registry.pools.get?
      else fun other =>
        if other = pool then some ⟨t.registry.defaultBase, t.registry.quote⟩ else t.registry.pools.get? other := by
  unfold Turn.track Registry.isTracked Roster.has
  split
  · exact ⟨rfl, rfl, rfl, rfl, rfl⟩
  · rename_i h
    obtain ⟨hi, hr, -, hd⟩ := t.register_eq pool t.registry.defaultBase
    have hdef := Registry.register_defaults t.registry pool (some t.registry.defaultBase)
    rw [hr]
    refine ⟨hi, hd, hdef.1, hdef.2, ?_⟩
    funext other
    rw [Registry.register_get?, Option.not_isSome_iff_eq_none.1 h]
    simp

/-- A turn that notes something and waits has asked for one thing more. -/
theorem Turn.effects_wait (t : Turn) (e : Log.Entry) (w : Wait) :
    ((t.log e).wait w).effects = t.done ++ [w.effect] := by
  show (t.log e).done ++ [w.effect] = _
  rw [log_done]

theorem migration_handles (m : Migration) (hd : t.done = []) : Handles t (some (.migration m)) (t.migration m) := by
  obtain ⟨u, e, hu, hmig⟩ : ∃ u e, u = (t.change fun i => { i with migrations := i.migrations + 1 }).track m.pool ∧
      t.migration m = (u.log e).wait (.savingPool
        ⟨m.pool, m.mint, u.intake.wrappedSol, t.registry.defaultBase, u.registry.quote⟩ (some m)) := ⟨_, _, rfl, rfl⟩
  obtain ⟨hi, hdone, hbase, hquote, hget⟩ :=
    (t.change fun i => { i with migrations := i.migrations + 1 }).track_eq m.pool
  simp only [← hu, Turn.change_intake, Turn.change_registry, Turn.change_done, hd] at hi hdone hbase hquote hget
  rw [hmig]
  refine ⟨?_, rfl, hget, ⟨hbase, hquote⟩, hi⟩
  rw [Turn.effects_wait, hdone, hi, hquote]
  rfl

theorem creation_handles (c : PoolCreation) (hd : t.done = []) (hp : t.progress = .finished) :
    Handles t (some (.poolCreation c)) (t.creation c) := by
  by_cases htr : t.intake.tracksCreations
  · obtain ⟨u, e, hu, hcre⟩ : ∃ u e,
        u = (t.change fun i => { i with creations := i.creations + 1 }).register c.pool c.baseDecimals ∧
        t.creation c = (u.log e).wait (.savingPool
          ⟨c.pool, c.baseMint, c.quoteMint, c.baseDecimals, c.quoteDecimals⟩ none) := ⟨_, _, rfl, if_pos htr⟩
    obtain ⟨hi, hr, -, hdone⟩ :=
      (t.change fun i => { i with creations := i.creations + 1 }).register_eq c.pool c.baseDecimals
    simp only [← hu, Turn.change_intake, Turn.change_registry, Turn.change_done, hd] at hi hr hdone
    rw [hcre]
    refine ⟨?_, ?_, ?_, ?_, hi.trans ?_⟩
    · rw [Turn.effects_wait, hdone, script, if_pos (show (terms t.intake t.registry).tracksCreations from htr)]
      rfl
    · rw [script, if_pos (show (terms t.intake t.registry).tracksCreations from htr)]
      rfl
    · funext pool
      show u.registry.pools.get? pool = _
      rw [hr, Registry.register_get?]
      simp only [learn, terms, htr, true_and]
      by_cases hk : (t.registry.pools.get? c.pool).map Scale.base = some c.baseDecimals
      · simp [hk]
      · simp [hk]
    · show u.registry.defaultBase = _ ∧ u.registry.quote = _
      rw [hr]
      exact Registry.register_defaults _ _ _
    · simp [count, isMigration, isCreation, isUntracked, terms, htr]
  · have hcre : t.creation c = t := if_neg htr
    rw [hcre]
    refine ⟨?_, ?_, ?_, ⟨rfl, rfl⟩, ?_⟩
    · simp [Turn.effects, Progress.asked, hd, hp, script, terms, htr]
    · simp [Progress.rest, hp, script, terms, htr]
    · simp [learn, terms, htr]
    · exact (count_eq_self rfl (by simp [isCreation, terms, htr]) rfl).symm

theorem trade_handles (e : Trade) (hd : t.done = []) (hp : t.progress = .finished) :
    Handles t (some (.trade e)) (t.trade e) := by
  cases hk : t.registry.pools.get? e.pool with
  | none =>
    have htrade : t.trade e = t.change fun i => { i with untracked := i.untracked + 1 } := by
      simp [Turn.trade, Registry.isTracked, Roster.has, hk]
    rw [htrade]
    refine ⟨?_, ?_, rfl, ⟨rfl, rfl⟩, ?_⟩
    · simp [Turn.effects, Progress.asked, hd, hp, script, hk]
    · simp [Progress.rest, hp, script, hk]
    · simp [count, isMigration, isCreation, isUntracked, hk]
  | some scale =>
    have hcount : t.intake = count t.intake (terms t.intake t.registry) t.registry.pools.get? (some (.trade e)) :=
      (count_eq_self rfl rfl (by rw [isUntracked, hk, Option.isNone_some])).symm
    cases hl : TradeLine.ofTrade e scale.base scale.quote with
    | ok line =>
      have htrade : t.trade e = t.wait (.savingTrade e.pool line) := by
        simp [Turn.trade, Registry.isTracked, Registry.decimalsOf, Roster.has, hk, hl]
      rw [htrade]
      refine ⟨?_, ?_, rfl, ⟨rfl, rfl⟩, hcount⟩
      · show t.done ++ [_] = _
        simp [hd, script, hk, hl, Wait.effect]
      · simp [Turn.wait, Progress.rest, script, hk, hl]
    | error fault =>
      have htrade : t.trade e = { t with progress := .failed (.scale fault) } := by
        simp [Turn.trade, Registry.isTracked, Registry.decimalsOf, Roster.has, hk, hl]
      rw [htrade]
      refine ⟨?_, ?_, rfl, ⟨rfl, rfl⟩, hcount⟩
      · show t.done ++ [] = _
        simp [hd, script, hk, hl]
      · simp [Progress.rest, script, hk, hl]

theorem nothing_handles (hd : t.done = []) (hp : t.progress = .finished) : Handles t none t := by
  refine ⟨?_, ?_, rfl, ⟨rfl, rfl⟩, (count_eq_self rfl rfl rfl).symm⟩
  · simp [Turn.effects, Progress.asked, hd, hp, script]
  · simp [Progress.rest, hp, script]

/-! ## First turns -/

/-- An intake whose readers have looked at a transaction: the swaps are not read where there is a migration. -/
def look (i : Intake) (a : Arrival) : Intake :=
  let migrations := i.migrationsReader.read a.now a.transaction
  { i with
    migrationsReader := migrations.2.1
    swapsReader := if migrations.1.isSome then i.swapsReader else (i.swapsReader.read a.now a.transaction).2.1 }

theorem terms_look (i : Intake) (r : Registry) (a : Arrival) : terms (i.look a) r = terms i r := by
  simp only [terms, look]
  split
  · rfl
  · rw [Chain.Swaps.read_program]
    rfl

/-- The first turn looks at the transaction and handles its event. -/
theorem begin_handles (i : Intake) (r : Registry) (a : Arrival) :
    (begin i r a.now a.transaction).1 = eventOf (terms i r) a ∧
    ∃ t : Turn, t.intake = i.look a ∧ t.registry = r ∧
      Handles t (eventOf (terms i r) a) (begin i r a.now a.transaction).2 := by
  have hmig : migrationOf (terms i r) a = (i.migrationsReader.read a.now a.transaction).1 := rfl
  have hswap : (Chain.Swaps.read { program := (terms i r).swapProgram } a.now a.transaction).1 =
      (i.swapsReader.read a.now a.transaction).1 := (Chain.Swaps.read_event _ _ _).symm
  have hnot := Chain.Swaps.read_ne_migration i.swapsReader a.now a.transaction
  unfold begin eventOf look
  rw [hmig, hswap]
  obtain ⟨m, migrationsReader, migrationsLog⟩ := i.migrationsReader.read a.now a.transaction
  cases m with
  | some m =>
    obtain ⟨hi, hr, -, hd⟩ := Turn.foldl_log migrationsLog
      ⟨{ i with migrationsReader := migrationsReader }, r, [], .finished⟩
    exact ⟨rfl, _, hi, hr, migration_handles m hd⟩
  | none =>
    obtain ⟨hi, hr, hp, hd⟩ := Turn.foldl_log migrationsLog
      ⟨{ i with migrationsReader := migrationsReader }, r, [], .finished⟩
    generalize i.swapsReader.read a.now a.transaction = read at hnot ⊢
    obtain ⟨event, swapsReader, swapsLog⟩ := read
    obtain ⟨hi', hr', hp', hd'⟩ := Turn.foldl_log swapsLog ((migrationsLog.foldl Turn.log
      ⟨{ i with migrationsReader := migrationsReader }, r, [], .finished⟩).change fun i =>
        { i with swapsReader := swapsReader })
    rw [Turn.change_intake, hi] at hi'
    refine ⟨rfl, _, hi', hr'.trans hr, ?_⟩
    cases event with
    | none => exact nothing_handles (hd'.trans hd) (hp'.trans hp)
    | some event =>
      cases event with
      | migration m => exact absurd rfl (hnot m)
      | poolCreation c => exact creation_handles c (hd'.trans hd) (hp'.trans hp)
      | trade e => exact trade_handles e (hd'.trans hd) (hp'.trans hp)

/-! ## Later turns -/

/-- Going on after a wait moves effects from those to come to those that are done. Whether what was waited for
has failed changes nothing else but the count of failures. -/
theorem resume_follows (i : Intake) (r : Registry) (w : Wait) (failure : Option String) :
    (resume i r w failure).effects ++ (resume i r w failure).progress.rest = (Progress.waits w).rest ∧
    (resume i r w failure).registry = r ∧
    (resume i r w failure).intake =
      { i with
        storageErrors := i.storageErrors + (w.isSave && failure.isSome).toNat
        forwarded := i.forwarded + (resume i r w failure).effects.countP Effect.isBatch } := by
  cases w with
  | savingPool row migration =>
    cases migration with
    | none => cases failure <;> exact ⟨rfl, rfl, rfl⟩
    | some m => cases failure <;> exact ⟨rfl, rfl, rfl⟩
  | savingTrade pool line => cases failure <;> exact ⟨rfl, rfl, rfl⟩
  | announcing m => cases failure <;> exact ⟨rfl, rfl, rfl⟩

end PoolFeed.Intake
