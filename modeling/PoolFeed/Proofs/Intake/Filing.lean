import PoolFeed.Proofs.Chain.Authority
import PoolFeed.Proofs.Intake.Traffic

/-!
# Decimals in the ledger and in the registry

| here | there |
| --- | --- |
| `Filing` | `TransactionProcessor` with the pools of its `TradeStore` |
| `carried?`, `told?` | the decimals in the arguments of `upsert_pool`, and in those of `PoolRegistry.register` |

Both know the decimals of a pool. The ledger keeps the row that was written first, with the decimals that its
event carries: those of the event itself for a creation, the defaults for a migration. The registry keeps the
base decimals that it was told last, by the shared store or by a creation, and has one number of quote decimals for
all pools. `row_agrees_iff` says when the two are the same. A pool that the shared store knows with other decimals than
the default gets a row that differs once it migrates (`loadedMigration_differs`).
-/

namespace PoolFeed

/-! ## Rows -/

def PoolRow.scale (r : PoolRow) : Scale := ⟨r.baseDecimals, r.quoteDecimals⟩

/-- A row that is written is found unless there was one before; a write that is refused changes no row. -/
theorem Ledger.savePool_get? (l : Ledger) (row : PoolRow) (address : String) :
    (l.savePool row.entry).2.pools.get? address =
      match (l.savePool row.entry).1 with
      | .ok () => (l.pools.get? address).or (if address = row.address then some row else none)
      | .error _ => l.pools.get? address := by
  have hrow : row.entry.row? = if fits32 row.baseDecimals && fits32 row.quoteDecimals then some row else none := rfl
  simp only [savePool, hrow]
  split
  · split
    · rfl
    · rename_i found h
      split at h
      · cases h
        by_cases hhas : l.pools.has row.address
        · simp only [hhas, if_true]
          by_cases ha : address = row.address
          · obtain ⟨old, hold⟩ := Option.isSome_iff_exists.1 hhas
            rw [ha, hold, Option.some_or]
          · simp [ha]
        · have hnone := Option.not_isSome_iff_eq_none.1 hhas
          simp only [hhas, Bool.false_eq_true, if_false, Roster.get?_put]
          by_cases ha : address = row.address
          · simp [ha, hnone]
          · simp [ha]
      · cases h
  · rfl

namespace Intake

/-! ## What events say of decimals -/

/-- The decimals that an event carries into the ledger for a pool. -/
def carried? (t : Terms) (address : String) : Option Event → Option Scale
  | some (.migration m) => if address = m.pool then some t.default else none
  | some (.poolCreation c) =>
    if t.tracksCreations ∧ address = c.pool then some ⟨c.baseDecimals, c.quoteDecimals⟩ else none
  | some (.trade _) | none => none

/-- The base decimals that an event tells the registry for a pool, whether it is known or not. -/
def told? (t : Terms) (address : String) : Option Event → Option Int
  | some (.poolCreation c) => if t.tracksCreations ∧ address = c.pool then some c.baseDecimals else none
  | some (.migration _) | some (.trade _) | none => none

/-- What events have told last. -/
def lastTold? (t : Terms) (address : String) (events : List (Option Event)) : Option Int :=
  events.reverse.findSome? (told? t address)

theorem lastTold?_concat (t : Terms) (address : String) (events : List (Option Event)) (e : Option Event) :
    lastTold? t address (events ++ [e]) = (told? t address e).or (lastTold? t address events) := by
  simp only [lastTold?, List.reverse_append, List.reverse_singleton, List.singleton_append, List.findSome?_cons]
  cases told? t address e <;> rfl

/-- The pools that are known have the decimals told last, or else those known at first or the default. -/
theorem reference_decimals {t : Terms} {known : Known} (hquote : ∀ a s, known a = some s → s.quote = t.default.quote)
    (address : String) (events : List (Option Event)) :
    (((reference t known events).known address).getD t.default) =
      ⟨(lastTold? t address events).getD ((known address).getD t.default).base, t.default.quote⟩ := by
  induction events using List.reverseRecOn with
  | nil =>
    cases hk : known address with
    | none => simp [reference, lastTold?, hk]
    | some s => simp [reference, lastTold?, hk, ← hquote address s hk]
  | append_singleton events e ih =>
    rw [reference_concat, Reference.next, lastTold?_concat]
    generalize (reference t known events).known = before at ih ⊢
    rcases e with _ | m | c | e
    · exact ih
    · simp only [learn, told?, Option.none_or]
      rw [← ih]
      split
      · rfl
      · rename_i hunknown
        by_cases ha : address = m.pool
        · simp [ha, Option.not_isSome_iff_eq_none.1 hunknown]
        · simp [ha]
    · simp only [learn, told?]
      by_cases ha : address = c.pool
      · subst ha
        by_cases ht : t.tracksCreations
        · by_cases hsame : (before c.pool).map Scale.base = some c.baseDecimals
          · obtain ⟨s, hs, hbase⟩ := Option.map_eq_some_iff.1 hsame
            rw [hs, Option.getD_some] at ih
            rw [if_neg fun h => h.2 hsame, if_pos ⟨ht, rfl⟩, hs, Option.getD_some, Option.some_or, Option.getD_some,
              ← hbase, ih]
          · simp [ht, hsame]
        · simpa [ht] using ih
      · split
        · simpa [ha] using ih
        · simpa [ha] using ih
    · exact ih

/-- What an event asks to write is what it carries. -/
theorem carried?_of_script {t : Terms} {known : Known} {e : Option Event} {row : PoolRow}
    (h : (script t known e).head? = some (.savePool row)) (address : String) :
    carried? t address e = if address = row.address then some row.scale else none := by
  unfold script at h
  split at h
  · cases h
    rfl
  · split at h
    · rename_i ht
      cases h
      simp [carried?, ht, PoolRow.scale]
    · cases h
  · split at h
    · cases h
    · split at h <;> cases h
  · cases h

/-! ## Writing pools -/

/-- Traffic together with the ledger to which it writes pools. -/
structure Filing where
  traffic : Traffic
  ledger : Ledger
  /-- The events whose pools have been written, in the order of the writes. -/
  filed : List (Option Event) := []

/-- The row that is written when a transaction gets its answer, and the event of that transaction. -/
def Traffic.writes? (s : Traffic) : Move → Option (Option Event × PoolRow)
  | .answer j none => match s.errands[j]? with
    | some ⟨event, _, .waits (.savingPool row _)⟩ => some (event, row)
    | _ => none
  | .answer _ (some _) | .arrive _ | .writeThrough _ _ => none

def Filing.step (s : Filing) (m : Move) : Filing :=
  match s.traffic.writes? m with
  | none => { s with traffic := s.traffic.step m }
  | some (event, row) => {
      traffic := s.traffic.step m
      ledger := (s.ledger.savePool row.entry).2
      filed := match (s.ledger.savePool row.entry).1 with
        | .ok () => s.filed ++ [event]
        | .error _ => s.filed }

def filing (i : Intake) (r : Registry) (l : Ledger) (moves : List Move) : Filing :=
  moves.foldl Filing.step { traffic := { intake := i, registry := r }, ledger := l }

theorem filing_concat (i : Intake) (r : Registry) (l : Ledger) (moves : List Move) (m : Move) :
    filing i r l (moves ++ [m]) = (filing i r l moves).step m := by
  simp only [filing, List.foldl_append, List.foldl_cons, List.foldl_nil]

theorem Filing.step_traffic (s : Filing) (m : Move) : (s.step m).traffic = s.traffic.step m := by
  unfold step
  split <;> rfl

theorem filing_traffic (i : Intake) (r : Registry) (l : Ledger) (moves : List Move) :
    (filing i r l moves).traffic = run i r moves := by
  induction moves using List.reverseRecOn with
  | nil => rfl
  | append_singleton moves m ih =>
    rw [filing_concat, Filing.step_traffic, ih, run_concat]

/-! ## The rows of the ledger -/

/-- An errand that waits for a row to be written has an event that carries the decimals of that row. -/
def Errand.Asks (t : Terms) (e : Errand) : Prop := ∀ row m, e.progress = .waits (.savingPool row m) →
  ∀ address, carried? t address e.event = if address = row.address then some row.scale else none

/-- A turn that begins waits to write what its event carries. -/
theorem begin_asks (i : Intake) (r : Registry) (a : Arrival) : Errand.Asks (terms i r)
    ⟨eventOf (terms i r) a, (begin i r a.now a.transaction).2.effects,
      (begin i r a.now a.transaction).2.progress⟩ := by
  obtain ⟨-, t, hi, hr, ht⟩ := begin_handles i r a
  have hterms : terms t.intake t.registry = terms i r := by rw [hi, hr, terms_look]
  intro row m hprogress address
  have hscript := ht.effects
  simp only at hprogress
  rw [hterms, Turn.effects, hprogress] at hscript
  have hhead : (script (terms i r) t.registry.pools.get? (eventOf (terms i r) a)).head? = some (.savePool row) := by
    cases hs : script (terms i r) t.registry.pools.get? (eventOf (terms i r) a) with
    | nil => simp [hs, Progress.asked] at hscript
    | cons effect rest =>
      rw [hs, List.take_succ_cons, List.take_zero] at hscript
      have hlast := congrArg List.getLast? hscript
      rw [Progress.asked, Wait.effect, List.getLast?_concat, List.getLast?_singleton] at hlast
      rw [List.head?_cons, ← hlast]
  exact carried?_of_script hhead address

/-- Going on never comes to the writing of a pool. -/
theorem resume_ne_savingPool (i : Intake) (r : Registry) (w : Wait) (failure : Option String) (row : PoolRow)
    (m : Option Migration) : (resume i r w failure).progress ≠ .waits (.savingPool row m) := by
  cases w with
  | savingPool row migration => cases migration <;> cases failure <;> nofun
  | savingTrade pool line => cases failure <;> nofun
  | announcing m => cases failure <;> nofun

/-- The ledger holds of each pool what the first event that has been written carries. -/
structure Files (i : Intake) (r : Registry) (s : Filing) : Prop where
  asks : ∀ e ∈ s.traffic.errands, e.Asks (terms i r)
  filed : ∀ e ∈ s.filed, e ∈ s.traffic.errands.map (·.event)
  rows : ∀ address, (s.ledger.pools.get? address).map PoolRow.scale = s.filed.findSome? (carried? (terms i r) address)

theorem files_start (i : Intake) (r : Registry) {l : Ledger} (h : l.pools = []) :
    Files i r { traffic := { intake := i, registry := r }, ledger := l } where
  asks _ he := absurd he List.not_mem_nil
  filed _ he := absurd he List.not_mem_nil
  rows address := by rw [h]; rfl

variable {i : Intake} {r : Registry} {as : List Arrival} {s : Filing}

/-- A row that is written belongs to an errand. -/
theorem Traffic.exists_errand {s : Traffic} {m : Move} {event : Option Event} {row : PoolRow}
    (h : s.writes? m = some (event, row)) :
    ∃ e ∈ s.errands, e.event = event ∧ ∃ m, e.progress = .waits (.savingPool row m) := by
  unfold writes? at h
  split at h
  · split at h
    · rename_i hget
      cases h
      exact ⟨_, List.mem_of_getElem? hget, rfl, _, rfl⟩
    · cases h
  all_goals cases h

theorem Files.asks_step (h : Files i r s) (hf : Follows i r as s.traffic) (m : Move) :
    ∀ e ∈ (s.traffic.step m).errands, e.Asks (terms i r) := by
  cases m with
  | arrive a =>
    intro e he
    simp only [Traffic.step] at he
    rcases List.mem_append.1 he with he | he
    · exact h.asks e he
    · rw [List.mem_singleton.1 he, (begin_handles s.traffic.intake s.traffic.registry a).1, ← hf.terms]
      exact begin_asks s.traffic.intake s.traffic.registry a
  | answer j failure =>
    unfold Traffic.step
    dsimp only
    split
    · intro e he
      rcases List.mem_or_eq_of_mem_set he with he | rfl
      · exact h.asks e he
      · exact fun row m hrow => absurd hrow (resume_ne_savingPool _ _ _ _ row m)
    · exact h.asks
  | writeThrough ticket failure => exact h.asks

/-- Errands keep their events. -/
theorem Traffic.events_step (s : Traffic) (m : Move) :
    s.errands.map (·.event) <+: (s.step m).errands.map (·.event) := by
  cases m with
  | arrive a => simp only [step, List.map_append, List.prefix_append]
  | answer j failure =>
    unfold step
    dsimp only
    split
    · rename_i event effects w hj
      have hevent : (s.errands.map (·.event))[j]? = some event := by rw [List.getElem?_map, hj, Option.map_some]
      obtain ⟨hlt, hget⟩ := List.getElem?_eq_some_iff.1 hevent
      have hsame : (s.errands.map (·.event)).set j event = s.errands.map (·.event) := by
        rw [← hget, List.set_getElem_self]
      simp only [List.map_set, hsame, List.prefix_refl]
    · exact List.prefix_refl _
  | writeThrough ticket failure => exact List.prefix_refl _

theorem Files.step (h : Files i r s) (hf : Follows i r as s.traffic) (m : Move) : Files i r (s.step m) := by
  have hevents := (s.traffic.events_step m).subset
  refine ⟨by rw [Filing.step_traffic]; exact h.asks_step hf m, ?_, ?_⟩
  all_goals unfold Filing.step; split
  · exact fun e he => hevents (h.filed e he)
  · rename_i event row hw
    obtain ⟨errand, herrand, rfl, -⟩ := Traffic.exists_errand hw
    intro e he
    dsimp only at he ⊢
    split at he
    · rcases List.mem_append.1 he with he | he
      · exact hevents (h.filed e he)
      · rw [List.mem_singleton.1 he]
        exact hevents (List.mem_map_of_mem herrand)
    · exact hevents (h.filed e he)
  · exact h.rows
  · rename_i event row hw
    intro address
    obtain ⟨errand, herrand, rfl, migration, hwaits⟩ := Traffic.exists_errand hw
    have hasks := h.asks errand herrand row migration hwaits address
    have hsaved := s.ledger.savePool_get? row address
    dsimp only
    generalize s.ledger.savePool row.entry = saved at hsaved ⊢
    obtain ⟨result, ledger⟩ := saved
    cases result with
    | error _ => simpa only [hsaved] using h.rows address
    | ok _ =>
      simp only at hsaved
      simp only [hsaved, List.findSome?_append, List.findSome?_singleton, ← h.rows address, hasks]
      cases s.ledger.pools.get? address with
      | some old => rfl
      | none => split <;> rfl

theorem filing_files (i : Intake) (r : Registry) {l : Ledger} (hl : l.pools = []) (moves : List Move) :
    Files i r (filing i r l moves) := by
  induction moves using List.reverseRecOn with
  | nil => exact files_start i r hl
  | append_singleton moves m ih =>
    rw [filing_concat]
    have hfollows : Follows i r (arrivals moves) (filing i r l moves).traffic := by
      rw [filing_traffic]
      exact run_follows i r moves
    exact ih.step hfollows m

/-! ## Agreement -/

/-- Only migrations carry decimals where creations are not tracked: the defaults. -/
theorem carried?_of_untracked {t : Terms} (ht : t.tracksCreations = false) {address : String} {e : Option Event}
    {scale : Scale} (h : carried? t address e = some scale) : scale = t.default := by
  unfold carried? at h
  split at h
  · split at h
    · exact (Option.some.inj h).symm
    · cases h
  · rw [ht] at h
    simp at h
  · cases h
  · cases h

theorem lastTold?_of_untracked {t : Terms} (ht : t.tracksCreations = false) (address : String)
    (events : List (Option Event)) : lastTold? t address events = none := by
  refine List.findSome?_eq_none_iff.2 fun e _ => ?_
  unfold told?
  split
  · rw [ht]
    simp
  · rfl
  · rfl
  · rfl

/-- **A row has the decimals of the first event of its pool that was written; the registry has the base decimals
that an event has told last, or else those it was loaded with or the default, and its own quote decimals.** They
agree exactly if these are the same. Where creations are not tracked this is so exactly if the pool was loaded with
the default, or not at all. -/
theorem row_agrees_iff (i : Intake) (base quote : Int) (shared : Bool) (tracked : List String) (decimals : Roster Int)
    (path : String) (moves : List Move) (r : Registry) (s : Filing) (address : String) (row : PoolRow)
    (hr : r = (Registry.load { defaultBase := base, quote := quote, shared := shared } tracked decimals).2.1)
    (hs : s = filing i r { path := path } moves) (hrow : s.ledger.pools.get? address = some row) :
    s.filed.findSome? (carried? (terms i r) address) = some row.scale ∧
    (∀ e ∈ s.filed, e ∈ eventsOf i r (arrivals moves)) ∧
    s.traffic.registry.decimalsOf address =
      ⟨(lastTold? (terms i r) address (eventsOf i r (arrivals moves))).getD (r.decimalsOf address).base, quote⟩ ∧
    (row.scale = s.traffic.registry.decimalsOf address ↔
      row.baseDecimals =
        (lastTold? (terms i r) address (eventsOf i r (arrivals moves))).getD (r.decimalsOf address).base ∧
      row.quoteDecimals = quote) ∧
    (i.tracksCreations = false →
      (row.scale = s.traffic.registry.decimalsOf address ↔ (r.decimalsOf address).base = base)) := by
  have hfollows : Follows i r (arrivals moves) s.traffic := by
    rw [hs, filing_traffic]
    exact run_follows i r moves
  have hfiles : Files i r s := hs ▸ filing_files i r (l := { path := path }) rfl moves
  have hdefault : (terms i r).default = ⟨base, quote⟩ := by rw [hr]; rfl
  have hquote : ∀ a scale, r.pools.get? a = some scale → scale.quote = (terms i r).default.quote := by
    intro a scale ha
    rw [hr, Registry.load_get?] at ha
    split at ha
    · cases ha
      rw [hdefault]
    · cases ha
  have hdecimals : s.traffic.registry.decimalsOf address =
      ⟨(lastTold? (terms i r) address (eventsOf i r (arrivals moves))).getD (r.decimalsOf address).base, quote⟩ := by
    have hnow := reference_decimals hquote address (eventsOf i r (arrivals moves))
    rw [hdefault] at hnow
    have hbefore : r.decimalsOf address = (r.pools.get? address).getD ⟨base, quote⟩ := by rw [hr]; rfl
    have hterms : (⟨s.traffic.registry.defaultBase, s.traffic.registry.quote⟩ : Scale) = ⟨base, quote⟩ :=
      (congrArg Terms.default hfollows.terms).trans hdefault
    rw [Registry.decimalsOf, hterms, hfollows.known, hbefore]
    exact hnow
  have hfirst : s.filed.findSome? (carried? (terms i r) address) = some row.scale := by
    rw [← hfiles.rows address, hrow, Option.map_some]
  refine ⟨hfirst, fun e he => hfollows.events ▸ hfiles.filed e he, hdecimals, ?_, fun htracks => ?_⟩
  · rw [hdecimals, PoolRow.scale, Scale.mk.injEq]
  · obtain ⟨e, -, he⟩ := List.exists_of_findSome?_eq_some hfirst
    have hscale := carried?_of_untracked (t := terms i r) htracks he
    rw [hdecimals, lastTold?_of_untracked (t := terms i r) htracks, hscale, hdefault, Option.getD_none, Scale.mk.injEq]
    exact ⟨fun h => h.1.symm, fun h => ⟨h.symm, rfl⟩⟩

/-- The pool of `genuineMigration`. -/
def migratedPool : String := "11111111111111111111111111111112"

/-- A migration arrives and its pool is written, where the pool was loaded with some base decimals. -/
def filingOfLoaded (decimals : Int) : Filing :=
  filing { migrationsReader := { program := "curve" } }
    (Registry.load {} [migratedPool] [(migratedPool, decimals)]).2.1 {}
    [.arrive ⟨.ok 1700000000000, Chain.genuineMigration⟩, .answer 0 none]

/-- With the default decimals the row agrees. -/
theorem loadedMigration_agrees :
    ∃ row, (filingOfLoaded 6).ledger.pools.get? migratedPool = some row ∧
      row.scale = (filingOfLoaded 6).traffic.registry.decimalsOf migratedPool := by
  have hrow : (filingOfLoaded 6).ledger.pools.get? migratedPool =
      some ⟨migratedPool, "mint", "So11111111111111111111111111111111111111112", 6, 9⟩ := by decide +kernel
  refine ⟨_, hrow, ?_⟩
  obtain ⟨-, -, -, -, hiff⟩ := row_agrees_iff { migrationsReader := { program := "curve" } } 6 9 false [migratedPool]
    [(migratedPool, 6)] ":memory:" [.arrive ⟨.ok 1700000000000, Chain.genuineMigration⟩, .answer 0 none] _
    (filingOfLoaded 6) migratedPool _ rfl rfl hrow
  exact (hiff rfl).2 (by decide +kernel)

/-- A migration writes the default decimals, although the registry has kept those it was loaded with. -/
theorem loadedMigration_differs :
    (filingOfLoaded 9).ledger.pools.get? migratedPool =
      some ⟨migratedPool, "mint", "So11111111111111111111111111111111111111112", 6, 9⟩ ∧
    (filingOfLoaded 9).traffic.registry.decimalsOf migratedPool = ⟨9, 9⟩ := by
  refine ⟨by decide +kernel, by decide +kernel⟩

end Intake

end PoolFeed
