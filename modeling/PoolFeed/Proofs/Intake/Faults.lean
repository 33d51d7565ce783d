import PoolFeed.Proofs.Intake.Traffic

/-!
# Faults of the stores

| here | there |
| --- | --- |
| `bare` | all but `storage_errors` of `TransactionProcessor` and `_pending`, `mirror_writes`, `mirror_failures` of `PoolRegistry` |

A ledger that refuses a write, or a shared store that fails in the write-through, is noted and changes nothing else.
What they leave behind is the count of storage errors in the intake and the registry's account of its write-through;
nothing reads either when a transaction is handled. So two states that are the same but for these (`bare`) stay so,
and have the same effects, with every arrival (`Traffic.bare_arrive`), with answers that may differ where a write is
awaited (`Traffic.bare_answer`), and with whatever becomes of the write-through (`Traffic.bare_writeThrough`).
-/

namespace PoolFeed

/-- A registry without an account of its write-through. -/
def Registry.bare (r : Registry) : Registry := { r with writes := [], nextTicket := 0, written := 0, failed := 0 }

theorem Registry.bare_register {r q : Registry} (h : r.bare = q.bare) (address : String) (decimals : Option Int) :
    (r.register address decimals).2.1.bare = (q.register address decimals).2.1.bare ∧
      (r.register address decimals).2.2 = (q.register address decimals).2.2 := by
  cases r
  cases q
  simp only [bare, mk.injEq, and_true] at h
  obtain ⟨rfl, rfl, rfl, rfl, rfl⟩ := h
  simp only [register, startWrite]
  split
  · exact ⟨rfl, rfl⟩
  · split <;> exact ⟨rfl, rfl⟩

theorem Registry.bare_writeDone (r : Registry) (ticket : Nat) : (r.writeDone ticket).bare = r.bare := by
  unfold writeDone
  split
  · rfl
  · split <;> rfl

theorem Registry.bare_writeFailed (r : Registry) (ticket : Nat) (reason : String) :
    (r.writeFailed ticket reason).1.bare = r.bare := by
  unfold writeFailed
  split <;> rfl

namespace Intake

/-- An intake that has counted no storage errors. -/
def bare (i : Intake) : Intake := { i with storageErrors := 0 }

/-! ## First turns -/

namespace Turn

/-- Two turns that differ at most in what the stores leave behind. -/
structure Alike (t u : Turn) : Prop where
  intake : t.intake.bare = u.intake.bare
  registry : t.registry.bare = u.registry.bare
  actions : t.actions = u.actions
  progress : t.progress = u.progress

namespace Alike

variable {t u : Turn}

theorem act (h : Alike t u) (a : Action) : Alike (t.act a) (u.act a) :=
  { h with actions := congrArg (· ++ [a]) h.actions }

theorem foldl_log (h : Alike t u) (es : List Log.Entry) : Alike (es.foldl log t) (es.foldl log u) := by
  induction es generalizing t u with
  | nil => exact h
  | cons e es ih => exact ih (h.act _)

theorem change (h : Alike t u) (f : Intake → Intake) (hf : ∀ i : Intake, (f i).bare = f i.bare) :
    Alike (t.change f) (u.change f) :=
  { h with intake := (hf t.intake).trans ((congrArg f h.intake).trans (hf u.intake).symm) }

theorem wait (h : Alike t u) (w : Wait) : Alike (t.wait w) (u.wait w) := { h with progress := rfl }

theorem isTracked (h : Alike t u) : t.registry.isTracked = u.registry.isTracked :=
  (congrArg Registry.isTracked h.registry :)

theorem decimalsOf (h : Alike t u) : t.registry.decimalsOf = u.registry.decimalsOf :=
  (congrArg Registry.decimalsOf h.registry :)

theorem defaultBase (h : Alike t u) : t.registry.defaultBase = u.registry.defaultBase :=
  (congrArg Registry.defaultBase h.registry :)

theorem quote (h : Alike t u) : t.registry.quote = u.registry.quote := (congrArg Registry.quote h.registry :)

theorem wrappedSol (h : Alike t u) : t.intake.wrappedSol = u.intake.wrappedSol :=
  (congrArg Intake.wrappedSol h.intake :)

theorem tracksCreations (h : Alike t u) : t.intake.tracksCreations = u.intake.tracksCreations :=
  (congrArg Intake.tracksCreations h.intake :)

theorem register (h : Alike t u) (pool : String) (decimals : Int) :
    Alike (t.register pool decimals) (u.register pool decimals) := by
  obtain ⟨hregistry, hlog⟩ := Registry.bare_register h.registry pool (some decimals)
  have hset : Alike { t with registry := (t.registry.register pool (some decimals)).2.1 }
      { u with registry := (u.registry.register pool (some decimals)).2.1 } :=
    ⟨h.intake, hregistry, h.actions, h.progress⟩
  simp only [Turn.register, hlog]
  exact hset.foldl_log _

theorem track (h : Alike t u) (pool : String) : Alike (t.track pool) (u.track pool) := by
  rw [Turn.track, Turn.track, h.isTracked, h.defaultBase]
  split
  · exact h
  · exact h.register _ _

theorem migration (h : Alike t u) (m : Migration) : Alike (t.migration m) (u.migration m) := by
  obtain ⟨e, hform⟩ : ∃ e, ∀ t : Turn, t.migration m =
      ((((t.change fun i => { i with migrations := i.migrations + 1 }).track m.pool).log e).wait (.savingPool
        ⟨m.pool, m.mint, ((t.change fun i => { i with migrations := i.migrations + 1 }).track m.pool).intake.wrappedSol,
          t.registry.defaultBase,
          ((t.change fun i => { i with migrations := i.migrations + 1 }).track m.pool).registry.quote⟩ (some m))) :=
    ⟨_, fun _ => rfl⟩
  have htrack := (h.change (fun i => { i with migrations := i.migrations + 1 }) fun _ => rfl).track m.pool
  rw [hform, hform, htrack.wrappedSol, htrack.quote, h.defaultBase]
  exact (htrack.act _).wait _

theorem creation (h : Alike t u) (c : PoolCreation) : Alike (t.creation c) (u.creation c) := by
  simp only [Turn.creation, h.tracksCreations]
  split
  · exact (((h.change (fun i => { i with creations := i.creations + 1 }) fun _ => rfl).register _ _).act _).wait _
  · exact h

theorem trade (h : Alike t u) (e : Trade) : Alike (t.trade e) (u.trade e) := by
  simp only [Turn.trade, h.isTracked, h.decimalsOf]
  split
  · generalize TradeLine.ofTrade e _ _ = scaled
    cases scaled with
    | error fault => exact { h with progress := rfl }
    | ok line => exact h.wait _
  · exact h.change (fun i => { i with untracked := i.untracked + 1 }) fun _ => rfl

theorem effects (h : Alike t u) : t.effects = u.effects := by
  simp only [Turn.effects, Turn.done, h.actions, h.progress]

end Alike

end Turn

theorem begin_alike {i j : Intake} {r q : Registry} (hi : i.bare = j.bare) (hr : r.bare = q.bare) (a : Arrival) :
    (begin i r a.now a.transaction).1 = (begin j q a.now a.transaction).1 ∧
      Turn.Alike (begin i r a.now a.transaction).2 (begin j q a.now a.transaction).2 := by
  have hmigrations : i.migrationsReader = j.migrationsReader := (congrArg Intake.migrationsReader hi :)
  have hswaps : i.swapsReader = j.swapsReader := (congrArg Intake.swapsReader hi :)
  have hfirst : i.migrationsReader.read a.now a.transaction = j.migrationsReader.read a.now a.transaction := by
    rw [hmigrations]
  have hsecond : i.swapsReader.read a.now a.transaction = j.swapsReader.read a.now a.transaction := by rw [hswaps]
  unfold begin
  rw [hfirst, hsecond]
  obtain ⟨m, reader, log⟩ := j.migrationsReader.read a.now a.transaction
  have hstart : Turn.Alike ⟨{ i with migrationsReader := reader }, r, [], .finished⟩
      ⟨{ j with migrationsReader := reader }, q, [], .finished⟩ :=
    ⟨congrArg (fun i => { i with migrationsReader := reader }) hi, hr, rfl, rfl⟩
  cases m with
  | some m => exact ⟨rfl, (hstart.foldl_log log).migration m⟩
  | none =>
    obtain ⟨event, reader, swapsLog⟩ := j.swapsReader.read a.now a.transaction
    have hread := ((hstart.foldl_log log).change (fun i => { i with swapsReader := reader }) fun _ => rfl).foldl_log
      swapsLog
    refine ⟨rfl, ?_⟩
    cases event with
    | none => exact hread
    | some event =>
      cases event with
      | migration m => exact hread
      | poolCreation c => exact hread.creation c
      | trade e => exact hread.trade e

/-- A script that is not empty goes on after its first effect. -/
theorem script_goes_on {t : Terms} {known : Known} {e : Option Event} (h : (script t known e).drop 1 = []) :
    script t known e = [] := by
  unfold script at h ⊢
  split at h
  · cases h
  · split at h
    · cases h
    · rename_i hoff
      exact if_neg hoff
  · split at h
    · rfl
    · split at h
      · cases h
      · rfl
  · rfl

/-- The errand of a transaction that has arrived. -/
def opened (i : Intake) (r : Registry) (a : Arrival) : Errand where
  event := (begin i r a.now a.transaction).1
  effects := (begin i r a.now a.transaction).2.effects
  progress := (begin i r a.now a.transaction).2.progress

/-- A transaction has begun: it waits for a write and has done nothing else, or it has ended without any effect. -/
def Errand.Opens (e : Errand) : Prop :=
  (∃ w : Wait, w.isSave ∧ e.progress = .waits w ∧ e.effects = [w.effect]) ∨
    (∀ w, e.progress ≠ .waits w) ∧ e.effects = []

theorem opened_opens (i : Intake) (r : Registry) (a : Arrival) : (i.opened r a).Opens := by
  obtain ⟨-, t, -, -, heffects, hrest, -⟩ := begin_handles i r a
  unfold opened
  generalize (begin i r a.now a.transaction).2 = u at heffects hrest ⊢
  have hover (h : u.progress.rest = []) : u.effects = [] := by
    rw [heffects, script_goes_on (hrest.symm.trans h), List.take_nil]
  cases hp : u.progress with
  | finished => exact .inr ⟨nofun, hover (by rw [hp]; rfl)⟩
  | failed f => exact .inr ⟨nofun, hover (by rw [hp]; rfl)⟩
  | waits w =>
    have hasks : u.effects = u.done ++ [w.effect] := by rw [Turn.effects, hp, Progress.asked]
    have hlength : u.effects.length ≤ 1 := by
      rw [heffects]
      exact List.length_take_le _ _
    rw [hasks, List.length_append, List.length_singleton] at hlength
    have hdone : u.done = [] := List.eq_nil_of_length_eq_zero (by omega)
    refine .inl ⟨w, ?_, rfl, by rw [hasks, hdone, List.nil_append]⟩
    cases w with
    | savingPool row m => rfl
    | savingTrade pool line => rfl
    | announcing m =>
      have hnone := hover (by rw [hp]; rfl)
      rw [hasks] at hnone
      simp at hnone

theorem begin_storageErrors (i : Intake) (r : Registry) (a : Arrival) :
    (begin i r a.now a.transaction).2.intake.storageErrors = i.storageErrors := by
  obtain ⟨-, t, hi, -, ht⟩ := begin_handles i r a
  rw [ht.intake, hi]
  rfl

/-! ## Later turns -/

/-- Whether a write has failed makes no difference to what follows; the same answer to an announcement does neither. -/
theorem resume_alike {i j : Intake} {r q : Registry} (hi : i.bare = j.bare) (hr : r.bare = q.bare) (w : Wait)
    {f g : Option String} (h : w.isSave ∨ f = g) :
    (resume i r w f).effects = (resume j q w g).effects ∧ (resume i r w f).progress = (resume j q w g).progress ∧
      (resume i r w f).intake.bare = (resume j q w g).intake.bare ∧
      (resume i r w f).registry.bare = (resume j q w g).registry.bare := by
  obtain ⟨-, hregistry, hintake⟩ := resume_follows i r w f
  obtain ⟨-, hregistry', hintake'⟩ := resume_follows j q w g
  have hsame : (resume i r w f).effects = (resume j q w g).effects ∧
      (resume i r w f).progress = (resume j q w g).progress := by
    cases w with
    | savingPool row migration => cases migration <;> cases f <;> cases g <;> exact ⟨rfl, rfl⟩
    | savingTrade pool line => cases f <;> cases g <;> exact ⟨rfl, rfl⟩
    | announcing m =>
      obtain rfl : f = g := h.resolve_left Bool.false_ne_true
      cases f <;> exact ⟨rfl, rfl⟩
  refine ⟨hsame.1, hsame.2, ?_, by rw [hregistry, hregistry', hr]⟩
  rw [hintake, hintake', hsame.1]
  exact congrArg (fun k : Intake =>
    { k with forwarded := k.forwarded + (resume j q w g).effects.countP Effect.isBatch }) hi

/-- After a write a transaction has ended, or is announced. -/
theorem resume_saved (i : Intake) (r : Registry) {w : Wait} (h : w.isSave) (failure : Option String) :
    (resume i r w failure).progress = .finished ∨ ∃ m, (resume i r w failure).progress = .waits (.announcing m) := by
  cases w with
  | savingPool row migration =>
    cases migration with
    | none => cases failure <;> exact .inl rfl
    | some m => cases failure <;> exact .inr ⟨m, rfl⟩
  | savingTrade pool line => cases failure <;> exact .inl rfl
  | announcing m => cases h

/-! ## Moves -/

/-- Whether an effect is a write to the ledger. -/
def Effect.isSave : Effect → Bool
  | .savePool _ | .saveTrade _ _ => true
  | .lookUp _ | .announce _ | .batch _ _ => false

/-- Whether a transaction has asked for a write. -/
def Errand.saves (e : Errand) : Bool := e.effects.any Effect.isSave

theorem Wait.isSave_effect (w : Wait) : w.effect.isSave = w.isSave := by
  cases w <;> rfl

namespace Traffic

/-- Traffic without what the stores leave behind. -/
def bare (s : Traffic) : Traffic := { s with intake := s.intake.bare, registry := s.registry.bare, refusals := 0 }

/-- The effects of a move. -/
def effects (s : Traffic) : Move → List Effect
  | .arrive a => (s.intake.begin s.registry a.now a.transaction).2.effects
  | .answer j failure => match s.errands[j]? with
    | some ⟨_, _, .waits w⟩ => (s.intake.resume s.registry w failure).effects
    | _ => []
  | .writeThrough _ _ => []

variable {s s' : Traffic}

theorem bare_eq (hi : s.intake.bare = s'.intake.bare) (hr : s.registry.bare = s'.registry.bare)
    (he : s.errands = s'.errands) : s.bare = s'.bare := by
  rw [bare, bare, hi, hr, he]

theorem intake_bare (h : s.bare = s'.bare) : s.intake.bare = s'.intake.bare := (congrArg Traffic.intake h :)

theorem registry_bare (h : s.bare = s'.bare) : s.registry.bare = s'.registry.bare := (congrArg Traffic.registry h :)

theorem errands_bare (h : s.bare = s'.bare) : s.errands = s'.errands := (congrArg Traffic.errands h :)

theorem bare_arrive (h : s.bare = s'.bare) (a : Arrival) :
    (s.step (.arrive a)).bare = (s'.step (.arrive a)).bare ∧ s.effects (.arrive a) = s'.effects (.arrive a) := by
  obtain ⟨hevent, hturn⟩ := begin_alike (intake_bare h) (registry_bare h) a
  refine ⟨bare_eq hturn.intake hturn.registry ?_, hturn.effects⟩
  simp only [step, errands_bare h, hevent, hturn.effects, hturn.progress]

/-- The answers to one transaction may differ if it waits for a write. -/
theorem bare_answer (h : s.bare = s'.bare) (j : Nat) {f g : Option String}
    (hanswers : ∀ e w, s.errands[j]? = some e → e.progress = .waits w → w.isSave ∨ f = g) :
    (s.step (.answer j f)).bare = (s'.step (.answer j g)).bare ∧
      s.effects (.answer j f) = s'.effects (.answer j g) := by
  have herrands := errands_bare h
  simp only [step, effects, ← herrands]
  cases hj : s.errands[j]? with
  | none => exact ⟨h, rfl⟩
  | some e =>
    obtain ⟨event, effects, progress⟩ := e
    cases progress with
    | waits w =>
      obtain ⟨heffects, hprogress, hi, hr⟩ :=
        resume_alike (intake_bare h) (registry_bare h) w (hanswers _ w hj rfl)
      refine ⟨bare_eq hi hr ?_, heffects⟩
      simp only [heffects, hprogress]
    | finished => exact ⟨h, rfl⟩
    | failed fault => exact ⟨h, rfl⟩

theorem bare_writeThrough (s : Traffic) (ticket : Nat) (failure : Option String) :
    (s.step (.writeThrough ticket failure)).bare = s.bare := by
  refine bare_eq rfl ?_ rfl
  cases failure with
  | none => exact s.registry.bare_writeDone ticket
  | some reason => exact s.registry.bare_writeFailed ticket reason

variable {before : List Errand} {e : Errand}

/-- The last transaction gets an answer for which it has not waited. -/
theorem answer_idle (h : s.errands = before ++ [e]) (hw : ∀ w, e.progress ≠ .waits w) (failure : Option String) :
    s.step (.answer before.length failure) = s := by
  simp only [step, h, List.getElem?_concat_length]
  obtain ⟨event, effects, progress⟩ := e
  cases progress with
  | waits w => exact absurd rfl (hw w)
  | finished => rfl
  | failed fault => rfl

/-- The last transaction goes on with an answer. -/
theorem answer_waiting {w : Wait} (h : s.errands = before ++ [e]) (hw : e.progress = .waits w)
    (failure : Option String) :
    (s.step (.answer before.length failure)).errands = before ++
      [⟨e.event, e.effects ++ (s.intake.resume s.registry w failure).effects,
        (s.intake.resume s.registry w failure).progress⟩] ∧
    (s.step (.answer before.length failure)).intake.storageErrors =
      s.intake.storageErrors + (w.isSave && failure.isSome).toNat := by
  obtain ⟨event, effects, progress⟩ := e
  obtain rfl : progress = .waits w := hw
  have hcount := congrArg Intake.storageErrors (resume_follows s.intake s.registry w failure).2.2
  simp only [step, h, List.getElem?_concat_length, hcount]
  simp

end Traffic

end Intake

end PoolFeed
