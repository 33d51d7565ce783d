import PoolFeed.Proofs.Batcher.Loops

/-!
# How the tasks of the batcher end

| here | there |
| --- | --- |
| `Overseen` | how the task that `AlwaysOnComponent.stop` waits for has ended: `wait_for` ends as it did |
| `apart` | no `start` comes while a `stop` awaits |

A run is overseen if it is written down how each task has ended (`Overseen`); a task that has ended does not come back
(`Sane.step`). A move is a start, a stop of a batcher that runs, or a turn of a stop, or it leaves aside whether the batcher
runs, counts as started and has its loop: then all it does to the tasks is one of the `Shifts` (`step_cases`).
-/

namespace PoolFeed.Batcher

variable {ρ : Type}

/-! ## How tasks end -/

/-- A stage of a loop. -/
def Stage.isLoop : Stage → Bool
  | .begun | .resting _ | .emitting _ _ (.ofLoop _) => true
  | .called _ | .emitting _ _ .ofCaller | .stopping _ | .expiring _ | .dropping _ => false

/-- The loop whose end a task waits for. -/
def Stage.awaited? : Stage → Option Nat
  | .stopping loop | .expiring loop | .dropping loop => some loop
  | .called _ | .begun | .resting _ | .emitting _ _ _ => none

def Action.ending? : Action ρ → Option (Nat × Ending)
  | .ended task e => some (task, e)
  | .log _ | .wake _ _ _ | .await _ _ _ => none

namespace Turn

variable {t u v : Turn ρ} {me now : Nat} {s : Stage}

/-- The tasks that have ended in a turn. -/
def endings (t : Turn ρ) : List (Nat × Ending) := t.actions.filterMap Action.ending?

theorem log_endings (t : Turn ρ) (e : Log.Entry) : (t.log e).endings = t.endings := by
  simp [endings, log, act, Action.ending?]

theorem park_endings (t : Turn ρ) (me : Nat) (s : Stage) (r : Request ρ) : (t.park me s r).endings = t.endings := by
  simp [endings, park, act, change, Action.ending?]

theorem finish_endings (t : Turn ρ) (me : Nat) (e : Ending) : (t.finish me e).endings = t.endings ++ [(me, e)] := by
  simp [endings, finish, act, change, Action.ending?, Function.comp_def]

theorem finish_batcher (t : Turn ρ) (me : Nat) (e : Ending) :
    (t.finish me e).batcher = { t.batcher with tasks := t.batcher.tasks.erase me } := rfl

theorem foldl_log_endings (es : List Log.Entry) : ∀ t : Turn ρ, (es.foldl log t).endings = t.endings := by
  induction es with
  | nil => exact fun _ => rfl
  | cons e es ih => exact fun t => (ih (t.log e)).trans (t.log_endings e)

theorem foldl_log_batcher (es : List Log.Entry) : ∀ t : Turn ρ, (es.foldl log t).batcher = t.batcher := by
  induction es with
  | nil => exact fun _ => rfl
  | cons e es ih => exact fun t => ih (t.log e)

/-- The batcher runs, counts as started and has its loop as before. -/
structure Keeps (t u : Turn ρ) : Prop where
  running : u.batcher.running = t.batcher.running
  component : u.batcher.component = t.batcher.component
  loop : u.batcher.loop = t.batcher.loop

theorem Keeps.trans (h : Keeps t u) (h' : Keeps u v) : Keeps t v :=
  ⟨h'.running.trans h.running, h'.component.trans h.component, h'.loop.trans h.loop⟩

/-- What a turn of a task comes to that is no stop. A loop ends only if the batcher does not run. -/
inductive Works (t : Turn ρ) (me : Nat) (s : Stage) (u : Turn ρ) : Prop
  | stays : u.batcher.tasks = t.batcher.tasks → u.endings = t.endings → Works t me s u
  | waits (s' : Stage) : s'.isStop = false → s'.isLoop = s.isLoop → u.batcher.tasks = t.batcher.tasks.advance me s' →
    u.endings = t.endings → Works t me s u
  | ends : (s.isLoop = true → t.batcher.running = false) → u.batcher.tasks = t.batcher.tasks.erase me →
    u.endings = t.endings ++ [(me, .finished)] → Works t me s u

theorem rest_works (t : Turn ρ) (me now deadline : Nat) (hs : s.isLoop = true) :
    Keeps t (t.rest me now deadline) ∧ Works t me s (t.rest me now deadline) := by
  unfold rest
  split
  · exact ⟨⟨rfl, rfl, rfl⟩, .waits (.resting deadline) rfl hs.symm rfl (t.park_endings _ _ _)⟩
  · rename_i hhalted
    exact ⟨⟨rfl, rfl, rfl⟩, .ends (fun _ => Bool.eq_false_iff.2 hhalted) rfl (t.finish_endings me _)⟩

theorem flush_works (t : Turn ρ) (me now : Nat) (keys : List String) (f : Flush)
    (hs : s.isLoop = (Stage.emitting "" [] f).isLoop) :
    Keeps t (t.flush me now keys f) ∧ Works t me s (t.flush me now keys f) := by
  unfold flush
  split
  · cases f with
    | ofCaller =>
      refine ⟨⟨rfl, rfl, rfl⟩, .ends (fun hloop => ?_) rfl (t.finish_endings me _)⟩
      rw [hs] at hloop
      cases hloop
    | ofLoop deadline => exact t.rest_works me now _ hs
  · rename_i batch rest batches htake
    refine ⟨⟨rfl, rfl, rfl⟩, .waits (.emitting batch.key rest f) rfl ?_ rfl (park_endings _ _ _ _)⟩
    rw [hs]
    cases f <;> rfl

/-- A turn from a point to which nothing has happened but to the batches and the log. -/
theorem Works.of_quiet (hkeeps : Keeps t u) (htasks : u.batcher.tasks = t.batcher.tasks) (hendings : u.endings = t.endings)
    (h : Keeps u v ∧ Works u me s v) : Keeps t v ∧ Works t me s v := by
  refine ⟨hkeeps.trans h.1, ?_⟩
  cases h.2 with
  | stays hts hes => exact .stays (hts.trans htasks) (hes.trans hendings)
  | waits s' hstop hloop hts hes => exact .waits s' hstop hloop (hts.trans (by rw [htasks])) (hes.trans hendings)
  | ends hrunning hts hes =>
    exact .ends (fun hs => hkeeps.running ▸ hrunning hs) (hts.trans (by rw [htasks])) (hes.trans (by rw [hendings]))

theorem goOn_works (t : Turn ρ) (me now : Nat) (o : Outcome) (hs : s.isStop = false) :
    Keeps t (t.goOn me now s o) ∧ Works t me s (t.goOn me now s o) := by
  cases s with
  | called c =>
    cases c with
    | flush => exact t.flush_works me now _ .ofCaller rfl
    | stop => cases hs
  | begun =>
    have hlog : ∀ e v, Keeps (t.log e) v ∧ Works (t.log e) me .begun v → Keeps t v ∧ Works t me .begun v :=
      fun e _ => Works.of_quiet ⟨rfl, rfl, rfl⟩ rfl (t.log_endings e)
    exact hlog _ _ (rest_works _ me now _ rfl)
  | resting d => exact t.flush_works me now _ (.ofLoop d) rfl
  | emitting key rest f =>
    have hflush : ∀ u : Turn ρ, Keeps u (u.flush me now rest f) ∧ Works u me (.emitting key rest f) (u.flush me now rest f) :=
      fun u => u.flush_works me now rest f (by cases f <;> rfl)
    cases o with
    | done =>
      exact Works.of_quiet (u := t.change fun b => { b with batches := b.batches.noteEmitted }) ⟨rfl, rfl, rfl⟩ rfl rfl
        (hflush _)
    | failed reason =>
      refine Works.of_quiet (u := (t.change fun b => { b with batches := (b.batches.noteFailed key reason).1 }).log _)
        ⟨rfl, rfl, rfl⟩ rfl (log_endings _ _) (hflush _)
    | exited e => exact ⟨⟨rfl, rfl, rfl⟩, .stays rfl rfl⟩
    | expired => exact ⟨⟨rfl, rfl, rfl⟩, .stays rfl rfl⟩
  | stopping loop => cases hs
  | expiring loop => cases hs
  | dropping loop => cases hs

/-- What a turn of any task comes to. -/
inductive Comes (t : Turn ρ) (me : Nat) (u : Turn ρ) : Prop
  | stays : u.batcher.tasks = t.batcher.tasks → u.endings = t.endings → Comes t me u
  | waits (given : Option Nat) (s : Stage) : u.batcher.tasks = (t.batcher.tasks.cancel? given).advance me s →
    u.endings = t.endings → Comes t me u
  | ends (e : Ending) : u.batcher.tasks = t.batcher.tasks.erase me → u.endings = t.endings ++ [(me, e)] → Comes t me u

theorem Works.comes (h : Works t me s u) : Comes t me u := by
  cases h with
  | stays hts hes => exact .stays hts hes
  | waits s' _ _ hts hes => exact .waits none s' hts hes
  | ends _ hts hes => exact .ends .finished hts hes

theorem Comes.of_quiet (htasks : u.batcher.tasks = t.batcher.tasks) (hendings : u.endings = t.endings)
    (h : Comes u me v) : Comes t me v := by
  cases h with
  | stays hts hes => exact .stays (hts.trans htasks) (hes.trans hendings)
  | waits given s hts hes => exact .waits given s (hts.trans (by rw [htasks])) (hes.trans hendings)
  | ends e hts hes => exact .ends e (hts.trans (by rw [htasks])) (hes.trans (by rw [hendings]))

/-! ## The turns of a stop -/

theorem stopped_eq (t : Turn ρ) (me : Nat) :
    (t.stopped me).batcher = { t.batcher with
      component := t.batcher.component.stop.1, tasks := t.batcher.tasks.erase me } ∧
    (t.stopped me).endings = t.endings ++ [(me, .finished)] := by
  rw [stopped, finish_batcher, finish_endings, foldl_log_batcher, foldl_log_endings]
  exact ⟨rfl, rfl⟩

/-- A stop that returns takes the count away. -/
theorem loopGone_eq (t : Turn ρ) (me : Nat) :
    (t.loopGone me).batcher = { t.batcher with
      component := t.batcher.component.stop.1, loop := none, tasks := t.batcher.tasks.erase me } ∧
    (t.loopGone me).endings = t.endings ++ [(me, .finished)] := stopped_eq _ me

theorem loopGone_comes (t : Turn ρ) (me : Nat) : Comes t me (t.loopGone me) :=
  .ends .finished (congrArg Batcher.tasks (t.loopGone_eq me).1) (t.loopGone_eq me).2

/-- A stop that has lost its patience waits for the loop that it has told to give up. -/
theorem cancelTask_park (t : Turn ρ) (me loop : Nat) (s : Stage) (r : Request ρ) :
    ∃ given ∈ [none, some loop], ((t.cancelTask loop).park me s r).batcher =
        { t.batcher with tasks := (t.batcher.tasks.cancel? given).advance me s } ∧
      ((t.cancelTask loop).park me s r).endings = t.endings := by
  rw [park_endings]
  unfold cancelTask
  split
  · exact ⟨none, by simp, rfl, rfl⟩
  · refine ⟨some loop, by simp, rfl, ?_⟩
    simp [endings, act, change, Action.ending?]

theorem cancelTask_park_comes (t : Turn ρ) (me loop : Nat) (s : Stage) (r : Request ρ) :
    Comes t me ((t.cancelTask loop).park me s r) := by
  obtain ⟨given, -, hb, hes⟩ := t.cancelTask_park me loop s r
  exact .waits given s (congrArg Batcher.tasks hb) hes

theorem stop_comes (t : Turn ρ) (me : Nat) : Comes t me (t.stop me) := by
  unfold stop
  split
  · dsimp only
    split
    · obtain ⟨hb, hes⟩ := stopped_eq (t.change fun b => { b with running := false }) me
      exact .ends .finished (congrArg Batcher.tasks hb) hes
    · split
      · exact .waits none _ rfl (park_endings _ _ _ _)
      · exact .of_quiet (u := t.change _) rfl rfl (loopGone_comes _ me)
  · exact .ends .finished rfl (t.finish_endings me _)

/-- A stop that has waited for the loop it told to give up finds the present one, which it tells so too. -/
theorem giveUp_eq {loop : Nat} (h : t.batcher.loop = some loop) (me : Nat) : ∃ e, t.giveUp me =
    if t.batcher.tasks.isLive loop then ((t.log e).cancelTask loop).park me (.dropping loop) (.exited none)
    else (t.log e).loopGone me := by
  have hlog : ∀ e, (t.log e).batcher = t.batcher := fun _ => rfl
  unfold giveUp
  simp only [hlog, h]
  exact ⟨_, rfl⟩

theorem giveUp_comes (t : Turn ρ) (me : Nat) : Comes t me (t.giveUp me) := by
  have hquiet : ∀ e v, Comes (t.log e) me v → Comes t me v := fun e _ => .of_quiet rfl (t.log_endings e)
  cases hloop : t.batcher.loop with
  | none =>
    have hlog : ∀ e, (t.log e).batcher = t.batcher := fun _ => rfl
    unfold giveUp
    simp only [hlog, hloop]
    exact hquiet _ _ (.ends _ rfl (finish_endings _ me _))
  | some loop =>
    obtain ⟨e, he⟩ := giveUp_eq hloop me
    rw [he]
    split
    · exact hquiet e _ (cancelTask_park_comes _ me _ _ _)
    · exact hquiet e _ (loopGone_comes _ me)

theorem goOn_comes (t : Turn ρ) (me now : Nat) (s : Stage) (o : Outcome) : Comes t me (t.goOn me now s o) := by
  cases hs : s.isStop with
  | false => exact (t.goOn_works me now o hs).2.comes
  | true =>
    fun_cases Turn.goOn t me now s o
    all_goals first | cases hs | skip
    · exact t.stop_comes me
    · exact .ends _ rfl (t.finish_endings me _)
    · exact t.loopGone_comes me
    · exact t.cancelTask_park_comes me _ _ _
    · exact t.giveUp_comes me
    · exact t.loopGone_comes me
    · exact .stays rfl rfl

end Turn

/-! ## Moves -/

/-- A batcher, and how its tasks have ended. -/
structure Overseen (ρ : Type) where
  batcher : Batcher ρ
  endings : List (Nat × Ending) := []

namespace Overseen

def step (w : Overseen ρ) (m : Move ρ) : Overseen ρ where
  batcher := (m.turn w.batcher).batcher
  endings := w.endings ++ (m.turn w.batcher).endings

def after (w : Overseen ρ) (moves : List (Move ρ)) : Overseen ρ := moves.foldl step w

/-- A stop that is told of the end of a loop is told how it was. -/
def honest (w : Overseen ρ) (m : Move ρ) : Bool :=
  match m.goesOn? w.batcher with
  | some (_, s, .exited e) => s.awaited?.all fun loop => w.endings.contains (loop, e)
  | _ => true

/-- A stop is under way. -/
def stopping (w : Overseen ρ) : Bool := w.batcher.tasks.live.any (·.stage.isStop)

/-- The move is no start that comes while a stop is under way. -/
def apart (w : Overseen ρ) (m : Move ρ) : Bool := !(m.isStart && w.stopping)

/-- Every move of a list is one of a kind when it comes. -/
def each (p : Overseen ρ → Move ρ → Bool) : Overseen ρ → List (Move ρ) → Bool
  | _, [] => true
  | w, m :: moves => p w m && each p (w.step m) moves

end Overseen

/-- A task that is resumed comes too late, gives up, or goes on from where it stands. -/
theorem resume_splits (b : Batcher ρ) (task turn now : Nat) (o : Outcome) :
    b.resume task turn now o = ⟨b, []⟩ ∨
    (∃ t, b.tasks.find? task = some t ∧ t.cancelled = true ∧
      b.resume task turn now o = Turn.finish ⟨b, []⟩ task .cancelled) ∨
    ∃ s, b.tasks.stage? task = some s ∧ Move.goesOn? b (.resume task turn now o) = some (task, s, o) ∧
      b.resume task turn now o = Turn.goOn ⟨b, []⟩ task now s o := by
  rcases Move.resume_cases b task turn now o with ⟨hgoes, -⟩ | hgoes
  · cases hfind : b.tasks.find? task with
    | none => exact .inl (by simp only [Batcher.resume, hfind])
    | some t =>
      by_cases hlate : t.turn = turn
      · cases hcancelled : t.cancelled with
        | true => exact .inr (.inl ⟨t, rfl, hcancelled, by simp [Batcher.resume, hfind, hlate, hcancelled]⟩)
        | false => simp [Move.goesOn?, Tasks.waitsAt, Tasks.stage?, hfind, hlate, hcancelled] at hgoes
      · exact .inl (by simp [Batcher.resume, hfind, hlate])
  · exact .inr (.inr hgoes)

theorem start_endings (b : Batcher ρ) (now : Nat) : (b.start now).endings = [] := by
  unfold Batcher.start
  split
  · rfl
  · simp only [Turn.endings, Turn.act, List.filterMap_append]
    exact congrArg (· ++ []) (Turn.foldl_log_endings _ ⟨_, []⟩)

/-- A start of a batcher that does not run. -/
theorem start_halted {b : Batcher ρ} (h : b.running = false) (now : Nat) :
    (b.start now).batcher = { b with
      component := (b.component.start now).1, running := true, loop := some b.tasks.next, tasks := b.tasks.spawn .begun } := by
  unfold Batcher.start
  rw [h, if_neg Bool.false_ne_true]
  exact Turn.foldl_log_batcher _ ⟨_, []⟩

/-- A start of a batcher that runs. -/
theorem start_running {b : Batcher ρ} (h : b.running = true) (now : Nat) : (b.start now).batcher = b := by
  unfold Batcher.start
  rw [if_pos h]
  rfl

/-! ## The record of the endings -/

/-- A task that has ended does not come back. -/
structure Sane (w : Overseen ρ) : Prop where
  ordered : w.batcher.tasks.Ordered
  past : ∀ x ∈ w.endings, x.1 < w.batcher.tasks.next ∧ w.batcher.tasks.find? x.1 = none

namespace Sane

variable {w : Overseen ρ} {b b' : Batcher ρ} {es : List (Nat × Ending)} {u : Turn ρ} {me : Nat} {s : Stage}

theorem spawn (h : Sane ⟨b, es⟩) (s : Stage) : Sane ⟨{ b with tasks := b.tasks.spawn s }, es⟩ where
  ordered := h.ordered.spawn s
  past x hx := by
    obtain ⟨hlt, hgone⟩ := h.past x hx
    refine ⟨Nat.lt_succ_of_lt hlt, ?_⟩
    show (b.tasks.spawn s).find? x.1 = none
    rw [Tasks.find?_spawn h.ordered, if_neg (Nat.ne_of_lt hlt)]
    exact hgone

theorem ends (h : Sane ⟨b, es⟩) (hme : me < b.tasks.next) (e : Ending) (htasks : b'.tasks = b.tasks.erase me) :
    Sane ⟨b', es ++ [(me, e)]⟩ where
  ordered := by
    show b'.tasks.Ordered
    rw [htasks]
    exact h.ordered.erase me
  past := by
    show ∀ x ∈ es ++ [(me, e)], x.1 < b'.tasks.next ∧ b'.tasks.find? x.1 = none
    simp only [htasks, Tasks.find?_erase]
    intro x hx
    obtain hx | hx := List.mem_append.1 hx
    · obtain ⟨hlt, hgone⟩ := h.past x hx
      refine ⟨hlt, ?_⟩
      split
      · rfl
      · exact hgone
    · obtain rfl := List.mem_singleton.1 hx
      exact ⟨hme, if_pos rfl⟩

theorem comes (h : Sane ⟨b, es⟩) (hme : me < b.tasks.next) (hc : Turn.Comes ⟨b, []⟩ me u) :
    Sane ⟨u.batcher, es ++ u.endings⟩ := by
  cases hc with
  | stays hts hes =>
    rw [hes]
    refine ⟨?_, ?_⟩
    · show u.batcher.tasks.Ordered
      rw [hts]
      exact h.ordered
    · show ∀ x ∈ es ++ [], x.1 < u.batcher.tasks.next ∧ u.batcher.tasks.find? x.1 = none
      rw [hts, List.append_nil]
      exact h.past
  | waits given s hts hes =>
    rw [hes]
    refine ⟨?_, ?_⟩
    · show u.batcher.tasks.Ordered
      rw [hts]
      exact (h.ordered.cancel? given).advance me s
    · show ∀ x ∈ es ++ [], x.1 < u.batcher.tasks.next ∧ u.batcher.tasks.find? x.1 = none
      rw [hts, List.append_nil]
      intro x hx
      obtain ⟨hlt, hgone⟩ := h.past x hx
      have hcancelled := Tasks.find?_eq_none_of_cancel? hgone given
      refine ⟨?_, ?_⟩
      · show x.1 < (b.tasks.cancel? given).next
        rw [Tasks.next_cancel?]
        exact hlt
      · rw [Tasks.find?_advance, hcancelled]
        exact ite_self _
  | ends e hts hes =>
    rw [hes]
    exact h.ends hme e hts

theorem step (h : Sane w) (m : Move ρ) : Sane (w.step m) := by
  cases m with
  | enqueue key record =>
    refine ⟨h.ordered, ?_⟩
    show ∀ x ∈ w.endings ++ [], _
    rw [List.append_nil]
    exact h.past
  | start now =>
    show Sane ⟨(w.batcher.start now).batcher, w.endings ++ (w.batcher.start now).endings⟩
    rw [start_endings, List.append_nil]
    cases hrunning : w.batcher.running with
    | true =>
      rw [start_running hrunning]
      exact h
    | false =>
      rw [start_halted hrunning]
      have hspawn := h.spawn .begun
      exact ⟨hspawn.ordered, hspawn.past⟩
  | ask c now => exact (h.spawn (.called c)).comes (Nat.lt_succ_self _) (Turn.goOn_comes ⟨_, []⟩ _ now _ _)
  | resume task turn now o =>
    show Sane ⟨(w.batcher.resume task turn now o).batcher, w.endings ++ (w.batcher.resume task turn now o).endings⟩
    rcases resume_splits w.batcher task turn now o with heq | ⟨t, ht, -, heq⟩ | ⟨s, hst, -, heq⟩
    · rw [heq]
      refine ⟨h.ordered, ?_⟩
      show ∀ x ∈ w.endings ++ [], _
      rw [List.append_nil]
      exact h.past
    · rw [heq, Turn.finish_batcher, Turn.finish_endings]
      exact h.ends (Tasks.lt_next_of_find? h.ordered ht) .cancelled rfl
    · rw [heq]
      exact h.comes (Tasks.lt_next_of_stage? h.ordered hst) (Turn.goOn_comes ⟨_, []⟩ _ now _ _)

end Sane

/-! ## Moves aside -/

/-- What happens to the tasks when neither a start begins a loop nor a stop waits, goes on or returns after waiting. -/
inductive Shifts (w : Overseen ρ) : Tasks Stage → List (Nat × Ending) → Prop
  | none : Shifts w w.batcher.tasks w.endings
  | spawns (s : Stage) : s.isLoop = false → s.isStop = false → Shifts w (w.batcher.tasks.spawn s) w.endings
  | goes {me : Nat} {s s' : Stage} : w.batcher.tasks.stage? me = some s → s.isStop = false → s'.isStop = false →
    s'.isLoop = s.isLoop → Shifts w (w.batcher.tasks.advance me s') w.endings
  | ends {me : Nat} {s : Stage} : w.batcher.tasks.stage? me = some s → s.isStop = false →
    (s.isLoop = true → w.batcher.running = false) → Shifts w (w.batcher.tasks.erase me) (w.endings ++ [(me, .finished)])
  | givesUp {me : Nat} {t : Task Stage} : w.batcher.tasks.find? me = some t → t.cancelled = true →
    Shifts w (w.batcher.tasks.erase me) (w.endings ++ [(me, .cancelled)])
  /-- A stop of a batcher that does not run returns at once. -/
  | returns (s : Stage) : Shifts w ((w.batcher.tasks.spawn s).erase w.batcher.tasks.next)
    (w.endings ++ [(w.batcher.tasks.next, .finished)])

structure Aside (w w' : Overseen ρ) : Prop where
  running : w'.batcher.running = w.batcher.running
  component : w'.batcher.component = w.batcher.component
  loop : w'.batcher.loop = w.batcher.loop
  shifts : Shifts w w'.batcher.tasks w'.endings

namespace Shifts

variable {w : Overseen ρ} {ts : Tasks Stage} {es : List (Nat × Ending)} {who : Option Nat} {id : Nat} {s : Stage}

theorem of_eq (hts : ts = w.batcher.tasks) (hes : es = w.endings) : Shifts w ts es := by
  rw [hts, hes]
  exact .none

theorem loops (h : Shifts w ts es) (hord : w.batcher.tasks.Ordered) (honly : w.batcher.tasks.Only Stage.isLoop who) :
    ts.Only Stage.isLoop who := by
  cases h with
  | none => exact honly
  | spawns s hloop _ =>
    refine honly.spawn hord fun hs => ?_
    rw [hloop] at hs
    cases hs
  | @goes me s s' hst _ _ hloop =>
    refine honly.advance fun hs => ?_
    obtain ⟨t, ht, rfl, -⟩ := Tasks.find?_of_stage? hst
    exact honly me t ht (hloop.symm.trans hs)
  | ends _ _ _ => exact honly.erase _
  | givesUp _ _ => exact honly.erase _
  | returns s => exact honly.spawn_erase hord s

theorem stops (h : Shifts w ts es) (hord : w.batcher.tasks.Ordered) (honly : w.batcher.tasks.Only Stage.isStop who) :
    ts.Only Stage.isStop who := by
  cases h with
  | none => exact honly
  | spawns s _ hstop =>
    refine honly.spawn hord fun hs => ?_
    rw [hstop] at hs
    cases hs
  | goes _ _ hstop _ =>
    refine honly.advance fun hs => ?_
    rw [hstop] at hs
    cases hs
  | ends _ _ _ => exact honly.erase _
  | givesUp _ _ => exact honly.erase _
  | returns s => exact honly.spawn_erase hord s

/-- A task that is new at the end of the list ends at once, and no other is touched. -/
theorem stage?_spawn_erase {ts : Tasks Stage} (hord : ts.Ordered) (hs : ts.stage? id = some s) (s' : Stage) :
    ((ts.spawn s').erase ts.next).stage? id = some s := by
  rw [Tasks.stage?_erase, if_neg (Nat.ne_of_lt (Tasks.lt_next_of_stage? hord hs))]
  exact Tasks.stage?_spawn_of_some hord hs s'

theorem ne_of_cancelled {ts : Tasks Stage} {me : Nat} {t : Task Stage} (hs : ts.stage? id = some s)
    (ht : ts.find? me = some t) (hcancelled : t.cancelled = true) : id ≠ me := by
  rintro rfl
  rw [Tasks.stage?_of_find? ht, hcancelled] at hs
  cases hs

/-- A stop stays where it waits. -/
theorem stop_stays (h : Shifts w ts es) (hord : w.batcher.tasks.Ordered) (hs : w.batcher.tasks.stage? id = some s)
    (hstop : s.isStop = true) : ts.stage? id = some s := by
  have hne : ∀ {me s'}, w.batcher.tasks.stage? me = some s' → s'.isStop = false → id ≠ me := by
    rintro me s' hst hs' rfl
    cases hs.symm.trans hst
    rw [hstop] at hs'
    cases hs'
  cases h with
  | none => exact hs
  | spawns s' _ _ => exact Tasks.stage?_spawn_of_some hord hs s'
  | goes hst hstop' _ _ => rwa [Tasks.stage?_advance, if_neg (hne hst hstop')]
  | ends hst hstop' _ => rwa [Tasks.stage?_erase, if_neg (hne hst hstop')]
  | givesUp ht hcancelled => rwa [Tasks.stage?_erase, if_neg (ne_of_cancelled hs ht hcancelled)]
  | returns s' => exact stage?_spawn_erase hord hs s'

/-- While the batcher runs, a loop lives on. -/
theorem loop_lives (h : Shifts w ts es) (hord : w.batcher.tasks.Ordered) (hrunning : w.batcher.running = true)
    (hs : w.batcher.tasks.stage? id = some s) (hloop : s.isLoop = true) :
    ∃ s', ts.stage? id = some s' ∧ s'.isLoop = true := by
  cases h with
  | none => exact ⟨s, hs, hloop⟩
  | spawns s' _ _ => exact ⟨s, Tasks.stage?_spawn_of_some hord hs s', hloop⟩
  | @goes me s₁ s' hst _ _ hsame =>
    by_cases hid : id = me
    · subst hid
      cases hs.symm.trans hst
      exact ⟨s', Tasks.stage?_advance_self hst s', hsame.trans hloop⟩
    · exact ⟨s, by rwa [Tasks.stage?_advance, if_neg hid], hloop⟩
  | @ends me s₁ hst _ hhalts =>
    have hid : id ≠ me := by
      rintro rfl
      cases hs.symm.trans hst
      rw [hhalts hloop] at hrunning
      cases hrunning
    exact ⟨s, by rwa [Tasks.stage?_erase, if_neg hid], hloop⟩
  | givesUp ht hcancelled =>
    exact ⟨s, by rwa [Tasks.stage?_erase, if_neg (ne_of_cancelled hs ht hcancelled)], hloop⟩
  | returns s' => exact ⟨s, stage?_spawn_erase hord hs s', hloop⟩

end Shifts

/-! ## What a move does -/

section Step

variable {w : Overseen ρ} {u : Turn ρ} {me : Nat} {s : Stage}

theorem Aside.refl (w : Overseen ρ) : Aside w w := ⟨rfl, rfl, rfl, .none⟩

theorem aside_of_works (hst : w.batcher.tasks.stage? me = some s) (hs : s.isStop = false)
    (h : Turn.Keeps ⟨w.batcher, []⟩ u ∧ Turn.Works ⟨w.batcher, []⟩ me s u) :
    Aside w ⟨u.batcher, w.endings ++ u.endings⟩ := by
  obtain ⟨hkeeps, hworks⟩ := h
  refine ⟨hkeeps.running, hkeeps.component, hkeeps.loop, ?_⟩
  show Shifts w u.batcher.tasks (w.endings ++ u.endings)
  cases hworks with
  | stays hts hes =>
    rw [hts, hes]
    exact .of_eq rfl (List.append_nil _)
  | waits s' hstop hloop hts hes =>
    have hnone : w.endings ++ u.endings = w.endings := by
      rw [hes]
      exact List.append_nil _
    rw [hts, hnone]
    exact .goes hst hs hstop hloop
  | ends hhalts hts hes =>
    rw [hts, hes]
    exact .ends hst hs hhalts

/-- A stop goes on from where it waits. -/
def StopGoesOn (w : Overseen ρ) (m : Move ρ) : Prop :=
  ∃ stop now s o, w.batcher.tasks.stage? stop = some s ∧ s.isStop = true ∧ m.goesOn? w.batcher = some (stop, s, o) ∧
    m.turn w.batcher = Turn.goOn ⟨w.batcher, []⟩ stop now s o

/-- A move is a start, a stop of a batcher that runs, or a turn of a stop, or all that matters happens aside. -/
theorem step_cases (h : Sane w) (m : Move ρ) :
    (∃ now, m = .start now) ∨ (∃ now, m = .ask .stop now ∧ w.batcher.running = true) ∨ StopGoesOn w m ∨
      ∃ w₁, Aside w w₁ ∧ Sane w₁ ∧ Aside w₁ (w.step m) := by
  cases m with
  | enqueue key record =>
    exact .inr (.inr (.inr ⟨w, .refl w, h, rfl, rfl, rfl, .of_eq rfl (List.append_nil _)⟩))
  | start now => exact .inl ⟨now, rfl⟩
  | ask c now =>
    cases c with
    | flush =>
      have hworks := Turn.goOn_works (s := .called .flush)
        ⟨{ w.batcher with tasks := w.batcher.tasks.spawn (.called .flush) }, []⟩ w.batcher.tasks.next now .done rfl
      have hst := Tasks.stage?_spawn_self h.ordered (.called .flush)
      refine .inr (.inr (.inr ⟨⟨{ w.batcher with tasks := w.batcher.tasks.spawn (.called .flush) }, w.endings⟩, ?_, ?_, ?_⟩))
      · exact ⟨rfl, rfl, rfl, .spawns _ rfl rfl⟩
      · exact h.spawn _
      · exact aside_of_works (w := ⟨{ w.batcher with tasks := _ }, w.endings⟩) hst rfl hworks
    | stop =>
      cases hrunning : w.batcher.running with
      | true => exact .inr (.inl ⟨now, rfl, rfl⟩)
      | false =>
        refine .inr (.inr (.inr ⟨w, .refl w, h, ?_⟩))
        have hturn : w.batcher.ask .stop now =
            Turn.finish ⟨{ w.batcher with tasks := w.batcher.tasks.spawn (.called .stop) }, []⟩ w.batcher.tasks.next := by
          have hhalted : ¬w.batcher.running = true := by simp [hrunning]
          exact if_neg hhalted
        show Aside w ⟨(w.batcher.ask .stop now).batcher, w.endings ++ (w.batcher.ask .stop now).endings⟩
        rw [hturn, Turn.finish_batcher, Turn.finish_endings]
        exact ⟨rfl, rfl, rfl, .returns _⟩
  | resume task turn now o =>
    have hstep : w.step (.resume task turn now o) =
      ⟨(w.batcher.resume task turn now o).batcher, w.endings ++ (w.batcher.resume task turn now o).endings⟩ := rfl
    rcases resume_splits w.batcher task turn now o with heq | ⟨t, ht, hcancelled, heq⟩ | ⟨s, hst, hgoes, heq⟩
    · refine .inr (.inr (.inr ⟨w, .refl w, h, ?_⟩))
      rw [hstep, heq]
      exact ⟨rfl, rfl, rfl, .of_eq rfl (List.append_nil _)⟩
    · refine .inr (.inr (.inr ⟨w, .refl w, h, ?_⟩))
      rw [hstep, heq, Turn.finish_batcher, Turn.finish_endings]
      exact ⟨rfl, rfl, rfl, .givesUp ht hcancelled⟩
    · cases hs : s.isStop with
      | true => exact .inr (.inr (.inl ⟨task, now, s, o, hst, hs, hgoes, heq⟩))
      | false =>
        refine .inr (.inr (.inr ⟨w, .refl w, h, ?_⟩))
        rw [hstep, heq]
        exact aside_of_works hst hs (Turn.goOn_works _ _ now o hs)

end Step

end PoolFeed.Batcher
