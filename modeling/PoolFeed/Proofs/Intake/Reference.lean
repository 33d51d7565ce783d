import Mathlib.Data.List.Induction
import PoolFeed.Intake

/-!
# What a sequence of transactions should do

| here | there |
| --- | --- |
| `script` | the effects of `_on_migrate`, `_on_create_pool`, `_on_trade` in their order, as if nothing were awaited |
| `learn` | what they have `PoolRegistry.register` do |

The reference takes transactions one after the other, in order of arrival, as if nothing ever waited or
failed. All it carries along is which pools are known with which decimals; from that follow the effects
of the next event (`script`) and the pools known after it (`learn`). What the readers and the registry
have counted plays no part: the reference depends on the few things that never change (`Terms`).
-/

namespace PoolFeed

/-! ## Readers

What a reader reports does not depend on what it has counted. -/

namespace Chain.Swaps

theorem read_event (d : Swaps) (now : Except ClockError Int) (t : Transaction) :
    (d.read now t).1 = (read { program := d.program } now t).1 := by
  simp only [read]
  split <;> rfl

theorem read_program (d : Swaps) (now : Except ClockError Int) (t : Transaction) :
    (d.read now t).2.1.program = d.program := by
  simp only [read]
  split <;> rfl

/-- Migrations are not read from swaps. -/
theorem read_ne_migration (d : Swaps) (now : Except ClockError Int) (t : Transaction) (m : Migration) :
    (d.read now t).1 ≠ some (.migration m) := by
  simp only [read]
  split
  · nofun
  · simp only [scan]
    split
    · nofun
    · split
      · nofun
      · nofun
      · split
        · nofun
        · simp only [merged]
          split
          · nofun
          · nofun

end Chain.Swaps

namespace Intake

/-- The pools that are known, with the decimals that scale their amounts. -/
abbrev Known := String → Option Scale

/-- What never changes while transactions are taken in. -/
structure Terms where
  migrationProgram : String
  swapProgram : String
  tracksCreations : Bool
  wrappedSol : String
  /-- The decimals of a pool of which nothing else is known. -/
  default : Scale
  deriving DecidableEq

def terms (i : Intake) (r : Registry) : Terms where
  migrationProgram := i.migrationsReader.program
  swapProgram := i.swapsReader.program
  tracksCreations := i.tracksCreations
  wrappedSol := i.wrappedSol
  default := ⟨r.defaultBase, r.quote⟩

structure Arrival where
  now : Except ClockError Int
  transaction : Transaction

/-! ## Events -/

/-- The migration that a transaction tells. -/
def migrationOf (t : Terms) (a : Arrival) : Option Migration :=
  (Chain.Migrations.read { program := t.migrationProgram } a.now a.transaction).1

/-- The event that a transaction tells: a migration before all else. -/
def eventOf (t : Terms) (a : Arrival) : Option Event :=
  match migrationOf t a with
  | some m => some (.migration m)
  | none => (Chain.Swaps.read { program := t.swapProgram } a.now a.transaction).1

/-! ## Effects -/

/-- What a transaction does to the world outside. -/
inductive Effect where
  | savePool (row : PoolRow)
  | saveTrade (pool : String) (line : TradeLine)
  | lookUp (job : LookupJob)
  | announce (m : Migration)
  | batch (pool : String) (line : TradeLine)

/-- The effects of an event, in order, where these pools are known. -/
def script (t : Terms) (known : Known) : Option Event → List Effect
  | some (.migration m) =>
    [.savePool ⟨m.pool, m.mint, t.wrappedSol, t.default.base, t.default.quote⟩, .lookUp ⟨m.pool, m.mint⟩, .announce m]
  | some (.poolCreation c) =>
    if t.tracksCreations then
      [.savePool ⟨c.pool, c.baseMint, c.quoteMint, c.baseDecimals, c.quoteDecimals⟩, .lookUp ⟨c.pool, c.baseMint⟩]
    else []
  | some (.trade e) =>
    match known e.pool with
    | none => []
    | some scale => match TradeLine.ofTrade e scale.base scale.quote with
      | .ok line => [.saveTrade e.pool line, .batch e.pool line]
      | .error _ => []
  | none => []

def Effect.isBatch : Effect → Bool
  | .batch _ _ => true
  | _ => false

/-- A trade is batched only after it has been saved. -/
theorem script_begins (t : Terms) (known : Known) (e : Option Event) :
    ((script t known e).take 1).countP Effect.isBatch = 0 := by
  unfold script
  split
  · rfl
  · split <;> rfl
  · split
    · rfl
    · split <;> rfl
  · rfl

/-- The pools that are known after an event. A migration adds its pool if it is unknown; a creation sets
the decimals of its pool. -/
def learn (t : Terms) (known : Known) : Option Event → Known
  | some (.migration m) =>
    if (known m.pool).isSome then known else fun pool => if pool = m.pool then some t.default else known pool
  | some (.poolCreation c) =>
    if t.tracksCreations ∧ (known c.pool).map Scale.base ≠ some c.baseDecimals then
      fun pool => if pool = c.pool then some ⟨c.baseDecimals, t.default.quote⟩ else known pool
    else known
  | some (.trade _) | none => known

/-- Whether an event makes a pool known. -/
def Tracks (t : Terms) (pool : String) : Option Event → Prop
  | some (.migration m) => m.pool = pool
  | some (.poolCreation c) => t.tracksCreations ∧ c.pool = pool
  | some (.trade _) | none => False

theorem learn_isSome (t : Terms) (known : Known) (pool : String) (e : Option Event) :
    (learn t known e pool).isSome ↔ (known pool).isSome ∨ Tracks t pool e := by
  cases e with
  | none => simp [learn, Tracks]
  | some e =>
    cases e with
    | trade e => simp [learn, Tracks]
    | migration m =>
      simp only [learn, Tracks]
      split
      · rename_i h
        refine ⟨.inl, fun hp => hp.elim id fun hp => hp ▸ h⟩
      · by_cases hp : pool = m.pool
        · simp [hp]
        · simp [hp, Ne.symm hp]
    | poolCreation c =>
      simp only [learn, Tracks]
      split
      · rename_i h
        by_cases hp : pool = c.pool
        · simp [hp, h.1]
        · simp [hp, Ne.symm hp]
      · rename_i h
        refine ⟨.inl, fun hp => hp.elim id fun hp => ?_⟩
        obtain ⟨ht, rfl⟩ := hp
        cases hk : known c.pool with
        | some s => rfl
        | none => exact absurd ⟨ht, by simp [hk]⟩ h

/-! ## The reference -/

/-- What the reference has done so far. -/
structure Reference where
  known : Known
  /-- The effects of each transaction, in order of arrival. -/
  scripts : List (List Effect) := []
  migrations : Nat := 0
  creations : Nat := 0
  /-- Trades of unknown pools. -/
  untracked : Nat := 0

/-- Whether an event is a migration, a creation that is tracked, or a trade of an unknown pool. -/
def isMigration : Option Event → Bool
  | some (.migration _) => true
  | _ => false

def isCreation (t : Terms) : Option Event → Bool
  | some (.poolCreation _) => t.tracksCreations
  | _ => false

def isUntracked (known : Known) : Option Event → Bool
  | some (.trade e) => (known e.pool).isNone
  | _ => false

def Reference.next (t : Terms) (ref : Reference) (e : Option Event) : Reference where
  known := learn t ref.known e
  scripts := ref.scripts ++ [script t ref.known e]
  migrations := ref.migrations + (isMigration e).toNat
  creations := ref.creations + (isCreation t e).toNat
  untracked := ref.untracked + (isUntracked ref.known e).toNat

/-- What these events do, in their order, where some pools are known before. -/
def reference (t : Terms) (known : Known) (events : List (Option Event)) : Reference :=
  events.foldl (Reference.next t) { known := known }

theorem reference_concat (t : Terms) (known : Known) (events : List (Option Event)) (e : Option Event) :
    reference t known (events ++ [e]) = (reference t known events).next t e := by
  simp only [reference, List.foldl_append, List.foldl_cons, List.foldl_nil]

/-- The reference tracks a pool if it was known before or an event so far has made it known. -/
theorem reference_known (t : Terms) (known : Known) (pool : String) (events : List (Option Event)) :
    ((reference t known events).known pool).isSome ↔ (known pool).isSome ∨ ∃ e ∈ events, Tracks t pool e := by
  induction events using List.reverseRecOn with
  | nil => simp [reference]
  | append_singleton events e ih =>
    rw [reference_concat, Reference.next, learn_isSome, ih]
    simp only [List.mem_append, List.mem_singleton]
    constructor
    · rintro ((h | ⟨e', he', ht⟩) | h)
      · exact .inl h
      · exact .inr ⟨e', .inl he', ht⟩
      · exact .inr ⟨e, .inr rfl, h⟩
    · rintro (h | ⟨e', he' | rfl, ht⟩)
      · exact .inl (.inl h)
      · exact .inl (.inr ⟨e', he', ht⟩)
      · exact .inr ht

theorem reference_scripts_length (t : Terms) (known : Known) (events : List (Option Event)) :
    (reference t known events).scripts.length = events.length := by
  induction events using List.reverseRecOn with
  | nil => rfl
  | append_singleton events e ih => simp [reference_concat, Reference.next, ih]

/-- The script of each event is the one for the pools known when it came. -/
theorem reference_scripts (t : Terms) (known : Known) (events : List (Option Event)) (j : Nat) :
    (reference t known events).scripts[j]? = events[j]?.map (script t (reference t known (events.take j)).known) := by
  induction events using List.reverseRecOn with
  | nil => rfl
  | append_singleton events e ih =>
    have hlen := reference_scripts_length t known events
    rw [reference_concat, Reference.next]
    rcases Nat.lt_trichotomy j events.length with hj | rfl | hj
    · rw [List.getElem?_append_left (by omega), List.getElem?_append_left hj, ih,
        List.take_append_of_le_length (Nat.le_of_lt hj)]
    · rw [List.getElem?_append_right (Nat.le_of_eq hlen), hlen, List.getElem?_append_right (Nat.le_refl _),
        List.take_left]
      simp
    · rw [List.getElem?_eq_none (by simp [hlen]; omega), List.getElem?_eq_none (by simp; omega), Option.map_none]

end Intake

end PoolFeed
