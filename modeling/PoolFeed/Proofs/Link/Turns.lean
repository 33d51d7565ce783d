import PoolFeed.Link.Turn
import PoolFeed.Proofs.Tasks

/-!
# What the steps of a turn do

Each step of a turn is described by the link it leaves and by the subscriptions it cancels (`dropped`).
Notes and listeners change neither; entering a state changes the state alone.
-/

namespace PoolFeed.Link

variable {ρ : Type}

/-! ## Roles -/

/-- The subscription whose records a stage is there to read. -/
def Stage.reads : Stage ρ → Option Nat
  | .toRead n | .reading n => some n
  | _ => none

/-- The subscription that a stage is there to keep alive. -/
def Stage.keeps : Stage ρ → Option Nat
  | .toKeep n | .keeping n | .pinging n => some n
  | _ => none

/-- The subscription that a task reads, unless it has ended or been told to give up. -/
def readBy (l : Link ρ) (id : Nat) : Option Nat := (l.tasks.stage? id).bind Stage.reads

/-- The subscription that a task keeps alive, unless it has ended or been told to give up. -/
def keptBy (l : Link ρ) (id : Nat) : Option Nat := (l.tasks.stage? id).bind Stage.keeps

def Action.dropped : Action ρ → Option Nat
  | .cancel n => some n
  | _ => none

namespace Turn

variable {t : Turn ρ}

/-- The subscriptions a turn has cancelled so far. -/
def dropped (t : Turn ρ) : List Nat := t.actions.filterMap Action.dropped

/-! ## Notes and states -/

@[simp] theorem act_link (a : Action ρ) : (t.act a).link = t.link := rfl
@[simp] theorem log_link (e : Log.Entry) : (t.log e).link = t.link := rfl
@[simp] theorem change_link (f : Link ρ → Link ρ) : (t.change f).link = f t.link := rfl

@[simp] theorem act_dropped (a : Action ρ) : (t.act a).dropped = t.dropped ++ a.dropped.toList := by
  simp only [dropped, act, List.filterMap_append]
  cases h : a.dropped <;> simp [h]

@[simp] theorem log_dropped (e : Log.Entry) : (t.log e).dropped = t.dropped := by simp [log, Action.dropped]
@[simp] theorem change_dropped (f : Link ρ → Link ρ) : (t.change f).dropped = t.dropped := rfl

@[simp] theorem tell_link (old new : LinkState) (l : Listener) : (tell old new t l).link = t.link := by
  cases l <;> rfl

@[simp] theorem tell_dropped (old new : LinkState) (l : Listener) : (tell old new t l).dropped = t.dropped := by
  cases l <;> simp [tell, Action.dropped]

theorem foldl_tell (old new : LinkState) (ls : List Listener) : ∀ t : Turn ρ,
    (ls.foldl (tell old new) t).link = t.link ∧ (ls.foldl (tell old new) t).dropped = t.dropped := by
  induction ls with
  | nil => exact fun _ => ⟨rfl, rfl⟩
  | cons l ls ih =>
    intro t
    obtain ⟨hl, hd⟩ := ih (tell old new t l)
    exact ⟨hl.trans (tell_link old new l), hd.trans (tell_dropped old new l)⟩

theorem foldl_log (es : List Log.Entry) : ∀ t : Turn ρ,
    (es.foldl log t).link = t.link ∧ (es.foldl log t).dropped = t.dropped := by
  induction es with
  | nil => exact fun _ => ⟨rfl, rfl⟩
  | cons e es ih =>
    intro t
    obtain ⟨hl, hd⟩ := ih (t.log e)
    exact ⟨hl.trans (log_link e), hd.trans (log_dropped e)⟩

@[simp] theorem enter_link (s : LinkState) : (t.enter s).link = { t.link with state := s } := by
  simp only [enter]
  split
  · rename_i h
    rw [← h]
  · rw [(foldl_tell _ _ _ _).1]
    rfl

@[simp] theorem enter_dropped (s : LinkState) : (t.enter s).dropped = t.dropped := by
  simp only [enter]
  split
  · rfl
  · rw [(foldl_tell _ _ _ _).2, log_dropped, change_dropped]

/-! ## Tasks -/

@[simp] theorem finish_link (me : Nat) (e : Ending) :
    (t.finish me e).link = { t.link with tasks := t.link.tasks.erase me } := rfl

@[simp] theorem finish_dropped (me : Nat) (e : Ending) : (t.finish me e).dropped = t.dropped := by
  simp [finish, Action.dropped]

@[simp] theorem park_link (me : Nat) (s : Stage ρ) (r : Request ρ) :
    (t.park me s r).link = { t.link with tasks := t.link.tasks.advance me s } := rfl

@[simp] theorem park_dropped (me : Nat) (s : Stage ρ) (r : Request ρ) : (t.park me s r).dropped = t.dropped := by
  simp [park, Action.dropped]

@[simp] theorem spawn_link (s : Stage ρ) : (t.spawn s).link = { t.link with tasks := t.link.tasks.spawn s } := rfl

@[simp] theorem spawn_dropped (s : Stage ρ) : (t.spawn s).dropped = t.dropped := by simp [spawn, Action.dropped]

/-- A task that has ended already cannot be told to give up: the cancellation is no special case. -/
@[simp] theorem cancelTask_link (id : Option Nat) :
    (t.cancelTask id).link = { t.link with tasks := t.link.tasks.cancel? id } := by
  cases id with
  | none => rfl
  | some id =>
    simp only [cancelTask, Option.bind_some, Tasks.cancel?, Option.elim_some]
    split
    · rename_i h
      rw [Tasks.cancel_of_find?_none h]
    · rename_i task h
      rw [act_link, change_link, Tasks.id_of_find? h]

@[simp] theorem cancelTask_dropped (id : Option Nat) : (t.cancelTask id).dropped = t.dropped := by
  simp only [cancelTask]
  split <;> simp [Action.dropped]

/-! ## Closing -/

@[simp] theorem stopKeeper_link :
    t.stopKeeper.link = { t.link with tasks := t.link.tasks.cancel? t.link.keeper, keeper := none } := by
  simp [stopKeeper]

@[simp] theorem stopKeeper_dropped : t.stopKeeper.dropped = t.dropped := by simp [stopKeeper]

@[simp] theorem stopRetry_link :
    t.stopRetry.link = { t.link with tasks := t.link.tasks.cancel? t.link.retry, retry := none } := by
  simp [stopRetry]

@[simp] theorem stopRetry_dropped : t.stopRetry.dropped = t.dropped := by simp [stopRetry]

@[simp] theorem stopReader_link (me : Nat) : (t.stopReader me).link =
    { t.link with
      tasks := t.link.tasks.cancel? (if t.link.reader = some me then none else t.link.reader), reader := none } := by
  simp only [stopReader, change_link]
  split
  · rfl
  · rw [cancelTask_link]

@[simp] theorem stopReader_dropped (me : Nat) : (t.stopReader me).dropped = t.dropped := by
  simp only [stopReader, change_dropped]
  split <;> simp

@[simp] theorem dropSubscription_link (luck : Luck) :
    (t.dropSubscription luck).link = { t.link with subscription := none } := by
  simp only [dropSubscription]
  split
  · rename_i h
    rw [← h]
  · split <;> simp

@[simp] theorem dropSubscription_dropped (luck : Luck) :
    (t.dropSubscription luck).dropped = t.dropped ++ t.link.subscription.toList := by
  simp only [dropSubscription]
  split
  · rename_i h
    simp [h]
  · rename_i h
    split <;> simp [h, Action.dropped]

end Turn

end PoolFeed.Link
