import PoolFeed.Batcher.Turn
import PoolFeed.Proofs.Batches
import PoolFeed.Proofs.Tasks

/-!
# What the steps of a turn do to the batches

All steps but one leave the batches alone and bring no task to a stage where it emits (`Idle`). The one is
`flush`: it takes the next batch among its keys, if there is one, and parks its task with the keys that follow
(`flush_cases`).
-/

namespace PoolFeed.Batcher

variable {ρ : Type}

def Stage.emits : Stage → Bool
  | .emitting _ _ _ => true
  | _ => false

def Action.taken : Action ρ → Option (Batch ρ)
  | .await _ _ (.emitted batch) => some batch
  | _ => none

namespace Turn

variable {t u v : Turn ρ} {me now : Nat}

/-- The batches a turn has taken to be emitted. -/
def taken (t : Turn ρ) : List (Batch ρ) := t.actions.filterMap Action.taken

/-- From one point of a turn to another nothing has happened to the batches. -/
structure Idle (t u : Turn ρ) : Prop where
  batches : u.batcher.batches = t.batcher.batches
  taken : u.taken = t.taken
  ordered : t.batcher.tasks.Ordered → u.batcher.tasks.Ordered
  /-- No task has come to emit. -/
  stages : t.batcher.tasks.Ordered → ∀ id s, u.batcher.tasks.stage? id = some s → s.emits →
    t.batcher.tasks.stage? id = some s

namespace Idle

theorem refl (t : Turn ρ) : Idle t t := ⟨rfl, rfl, id, fun _ _ _ h _ => h⟩

theorem trans (h : Idle t u) (h' : Idle u v) : Idle t v where
  batches := h'.batches.trans h.batches
  taken := h'.taken.trans h.taken
  ordered ho := h'.ordered (h.ordered ho)
  stages ho id s hs he := h.stages ho id s (h'.stages (h.ordered ho) id s hs he) he

/-- A step that touches neither batches nor tasks, and takes nothing. -/
theorem of_eq (hb : u.batcher.batches = t.batcher.batches) (hts : u.batcher.tasks = t.batcher.tasks)
    (htaken : u.taken = t.taken) : Idle t u :=
  ⟨hb, htaken, fun ho => hts ▸ ho, fun _ id s hs _ => by rwa [hts] at hs⟩

end Idle

theorem act_taken (a : Action ρ) : (t.act a).taken = t.taken ++ a.taken.toList := by
  simp only [taken, act, List.filterMap_append]
  cases h : a.taken <;> simp [h]

theorem act_idle (t : Turn ρ) {a : Action ρ} (ha : a.taken = none) : Idle t (t.act a) :=
  .of_eq rfl rfl (by rw [act_taken, ha, Option.toList_none, List.append_nil])

theorem log_idle (t : Turn ρ) (e : Log.Entry) : Idle t (t.log e) := t.act_idle rfl

theorem foldl_log_idle (es : List Log.Entry) : ∀ t : Turn ρ, Idle t (es.foldl log t) := by
  induction es with
  | nil => exact Idle.refl
  | cons e es ih => exact fun t => (t.log_idle e).trans (ih (t.log e))

theorem finish_idle (t : Turn ρ) (me : Nat) (e : Ending) : Idle t (t.finish me e) where
  batches := rfl
  taken := by
    simp only [taken, finish, act, change, List.filterMap_append, List.filterMap_map]
    simp [Action.taken, Function.comp_def]
  ordered ho := ho.erase me
  stages _ id s hs _ := by
    rw [show (t.finish me e).batcher.tasks = t.batcher.tasks.erase me from rfl, Tasks.stage?_erase] at hs
    split at hs
    · cases hs
    · exact hs

/-- A task may wait for anything but an emission. -/
theorem park_idle (t : Turn ρ) (me : Nat) {s : Stage} {r : Request ρ} (hs : s.emits = false)
    (hr : ∀ batch, r ≠ .emitted batch) : Idle t (t.park me s r) where
  batches := rfl
  taken := by
    rw [park, act_taken]
    cases r with
    | emitted batch => exact absurd rfl (hr batch)
    | slept ms => exact List.append_nil _
    | exited patience => exact List.append_nil _
  ordered ho := ho.advance me s
  stages _ id s' hs' he := by
    rw [show (t.park me s r).batcher.tasks = t.batcher.tasks.advance me s from rfl, Tasks.stage?_advance] at hs'
    split at hs'
    · obtain ⟨_, -, rfl⟩ := Option.map_eq_some_iff.1 hs'
      rw [hs] at he
      cases he
    · exact hs'

theorem cancelTask_idle (t : Turn ρ) (id : Nat) : Idle t (t.cancelTask id) := by
  unfold cancelTask
  split
  · exact .refl t
  · refine Idle.trans (u := t.change fun b => { b with tasks := b.tasks.cancel id }) ?_ (act_idle _ rfl)
    refine ⟨rfl, rfl, fun ho => ho.cancel id, fun _ i s hs _ => ?_⟩
    rw [show (t.change fun b => { b with tasks := b.tasks.cancel id }).batcher.tasks = t.batcher.tasks.cancel id
      from rfl, Tasks.stage?_cancel] at hs
    split at hs
    · cases hs
    · exact hs

/-! ## Loops and stops -/

theorem rest_idle (t : Turn ρ) (me now deadline : Nat) : Idle t (t.rest me now deadline) := by
  unfold rest
  split
  · exact t.park_idle me rfl nofun
  · exact t.finish_idle me _

theorem flushed_idle (t : Turn ρ) (me now : Nat) (f : Flush) : Idle t (t.flushed me now f) := by
  cases f with
  | ofCaller => exact t.finish_idle me _
  | ofLoop deadline => exact t.rest_idle me now _

theorem beginLoop_idle (t : Turn ρ) (me now : Nat) : Idle t (t.beginLoop me now) :=
  (t.log_idle _).trans (rest_idle _ me now _)

theorem stopped_idle (t : Turn ρ) (me : Nat) : Idle t (t.stopped me) := by
  refine Idle.trans (u := t.change fun b => { b with component := t.batcher.component.stop.1 }) ?_
    ((foldl_log_idle _ _).trans (finish_idle _ me _))
  exact .of_eq rfl rfl rfl

theorem loopGone_idle (t : Turn ρ) (me : Nat) : Idle t (t.loopGone me) := by
  refine Idle.trans (u := t.change fun b => { b with loop := none }) ?_ (stopped_idle _ me)
  exact .of_eq rfl rfl rfl

theorem stop_idle (t : Turn ρ) (me : Nat) : Idle t (t.stop me) := by
  have hchange : Idle t (t.change fun b => { b with running := false }) := .of_eq rfl rfl rfl
  unfold stop
  split
  · dsimp only
    split
    · exact hchange.trans (stopped_idle _ me)
    · split
      · exact hchange.trans (park_idle _ me rfl nofun)
      · exact hchange.trans (loopGone_idle _ me)
  · exact t.finish_idle me _

theorem giveUp_idle (t : Turn ρ) (me : Nat) : Idle t (t.giveUp me) := by
  unfold giveUp
  dsimp only
  split
  · exact (t.log_idle _).trans (finish_idle _ me _)
  · split
    · exact (t.log_idle _).trans ((cancelTask_idle _ _).trans (park_idle _ me rfl nofun))
    · exact (t.log_idle _).trans (loopGone_idle _ me)

/-! ## Flushing -/

/-- A task takes a batch: the first among some keys whose buffer is not empty. The keys after it are left over. -/
structure Takes (t : Turn ρ) (me : Nat) (keys : List String) (batch : Batch ρ) (rest : List String) (u : Turn ρ) :
    Prop where
  among : ∃ skipped, keys = skipped ++ batch.key :: rest
  records : batch.records = t.batcher.batches.pending batch.key
  nonempty : batch.records ≠ []
  batches : u.batcher.batches =
    { t.batcher.batches with buffers := t.batcher.batches.buffers.put batch.key [] }
  taken : u.taken = t.taken ++ [batch]
  ordered : t.batcher.tasks.Ordered → u.batcher.tasks.Ordered
  /-- Nobody else has come to emit, and the task itself goes on with the keys that are left. -/
  stages : ∀ id s, u.batcher.tasks.stage? id = some s → s.emits →
    (id ≠ me ∧ t.batcher.tasks.stage? id = some s) ∨ (id = me ∧ ∃ f, s = .emitting batch.key rest f)

theorem flush_cases (t : Turn ρ) (me now : Nat) (keys : List String) (f : Flush) :
    Idle t (t.flush me now keys f) ∨ ∃ batch rest, Takes t me keys batch rest (t.flush me now keys f) := by
  unfold flush
  cases ht : t.batcher.batches.take? keys with
  | none => exact .inl (t.flushed_idle me now f)
  | some taken =>
    obtain ⟨batch, rest, batches⟩ := taken
    obtain ⟨⟨skipped, hkeys, -⟩, hrecords, hne, rfl⟩ := Batches.take?_eq_some ht
    refine .inr ⟨batch, rest, ⟨skipped, hkeys⟩, hrecords, hne, rfl, ?_, fun ho => ho.advance me _, fun id s hs _ => ?_⟩
    · exact act_taken _
    · rw [show (park (t.change fun b => { b with batches := { t.batcher.batches with
          buffers := t.batcher.batches.buffers.put batch.key [] } }) me (.emitting batch.key rest f)
          (.emitted batch)).batcher.tasks = t.batcher.tasks.advance me (.emitting batch.key rest f) from rfl,
        Tasks.stage?_advance] at hs
      split at hs
      · rename_i hid
        obtain ⟨_, -, rfl⟩ := Option.map_eq_some_iff.1 hs
        exact .inr ⟨hid, f, rfl⟩
      · rename_i hid
        exact .inl ⟨hid, hs⟩

end Turn

end PoolFeed.Batcher
