import PoolFeed.Proofs.Batcher.Runs

/-!
# Where the tasks of the batcher go

`Follows` says which stage can come after which. A turn ends its task or brings it to a stage that follows, and leaves
every other task where it is, unless a stop loses its patience with a loop (`Course`, `goOn_course`). A flush takes the
first of its keys that has records, so that every key is empty, taken or still to come (`goOn_reaches`).
-/

namespace PoolFeed.Batcher

variable {ρ : Type}

/-- The flush that a task has under way or is about to begin. -/
def Stage.flush? : Stage → Option Flush
  | .called .flush => some .ofCaller
  | .resting deadline => some (.ofLoop deadline)
  | .emitting _ _ f => some f
  | .called .stop | .begun | .stopping _ | .expiring _ | .dropping _ => none

/-- The task waits for a loop to end. -/
def Stage.stops : Stage → Bool
  | .stopping _ | .expiring _ | .dropping _ => true
  | .called _ | .begun | .resting _ | .emitting _ _ _ => false

/-- With this outcome a stop cancels a loop. -/
def Stage.losesPatience : Stage → Outcome → Bool
  | .stopping _, .expired | .expiring _, .exited _ => true
  | _, _ => false

/-- The flush that the task has under way, or the one that it waits for, comes to a key. -/
def Stage.reaches (key : String) : Stage → Bool
  | .resting _ => true
  | .emitting _ rest _ => rest.contains key
  | .called _ | .begun | .stopping _ | .expiring _ | .dropping _ => false

/-- The keys that are left to the flush that a task has under way. -/
def Stage.ahead : Stage → List String
  | .emitting _ rest _ => rest
  | .called _ | .begun | .resting _ | .stopping _ | .expiring _ | .dropping _ => []

/-- Where a task goes from a stage in a turn without loss of patience. Only a flush goes on when the batcher does not run. -/
inductive Follows (interval now : Nat) : (running : Bool) → Stage → Stage → Prop
  | first : Follows interval now true .begun (.resting (now + interval))
  | again {s : Stage} {deadline : Nat} : s.flush? = some (.ofLoop deadline) →
    Follows interval now true s (.resting (max (deadline + interval) now))
  | emits {running : Bool} {s : Stage} {f : Flush} (key : String) (rest : List String) : s.flush? = some f →
    Follows interval now running s (.emitting key rest f)
  | stops (loop : Nat) : Follows interval now true (.called .stop) (.stopping loop)

/-- What a turn does to the tasks. -/
inductive Moved (b : Batcher ρ) (me now : Nat) (s : Stage) (o : Outcome) (ts : Tasks Stage) : Prop
  /-- The outcome is not one that the stage can have. -/
  | stays : (∀ c, s ≠ .called c) → ts = b.tasks → Moved b me now s o ts
  /-- A stop ends when the loop that it waits for has. -/
  | ends : (∀ loop, s = .stopping loop → ∃ e, o = .exited e) → ts = b.tasks.erase me → Moved b me now s o ts
  | goes {s' : Stage} : Follows b.interval now b.running s s' → ts = b.tasks.advance me s' → Moved b me now s o ts
  | cancels {s' : Stage} (loop : Nat) : s.losesPatience o = true → s'.stops = true →
    ts = (b.tasks.cancel loop).advance me s' → Moved b me now s o ts

structure Course (b : Batcher ρ) (me now : Nat) (s : Stage) (o : Outcome) (b' : Batcher ρ) : Prop where
  moved : Moved b me now s o b'.tasks
  interval : b'.interval = b.interval
  /-- No turn starts the batcher. -/
  halted : b.running = false → b'.running = false

namespace Turn

variable {t u v : Turn ρ} {me now : Nat} {s : Stage} {P : Stage → Prop}

/-- From one point of a turn to another nothing has happened to the tasks. -/
structure Still (t u : Turn ρ) : Prop where
  tasks : u.batcher.tasks = t.batcher.tasks
  interval : u.batcher.interval = t.batcher.interval
  running : u.batcher.running = t.batcher.running

/-- The task ends, or goes on to a stage of a kind. -/
structure Settles (P : Stage → Prop) (me : Nat) (t u : Turn ρ) : Prop where
  tasks : u.batcher.tasks = t.batcher.tasks.erase me ∨ ∃ s, P s ∧ u.batcher.tasks = t.batcher.tasks.advance me s
  interval : u.batcher.interval = t.batcher.interval
  halted : t.batcher.running = false → u.batcher.running = false

theorem Still.refl (t : Turn ρ) : Still t t := ⟨rfl, rfl, rfl⟩

theorem Still.trans (h : Still t u) (h' : Still u v) : Still t v :=
  ⟨h'.tasks.trans h.tasks, h'.interval.trans h.interval, h'.running.trans h.running⟩

theorem Still.settles (h : Still t u) (h' : Settles P me u v) : Settles P me t v where
  tasks := by
    rw [← h.tasks]
    exact h'.tasks
  interval := h'.interval.trans h.interval
  halted hr := h'.halted (h.running.trans hr)

theorem log_still (t : Turn ρ) (e : Log.Entry) : Still t (t.log e) := ⟨rfl, rfl, rfl⟩

theorem foldl_log_still (es : List Log.Entry) : ∀ t : Turn ρ, Still t (es.foldl log t) := by
  induction es with
  | nil => exact Still.refl
  | cons e es ih => exact fun t => (t.log_still e).trans (ih (t.log e))

theorem finish_settles (t : Turn ρ) (me : Nat) (e : Ending) : Settles P me t (t.finish me e) := ⟨.inl rfl, rfl, id⟩

theorem park_settles (t : Turn ρ) (me : Nat) (r : Request ρ) (hs : P s) : Settles P me t (t.park me s r) :=
  ⟨.inr ⟨s, hs, rfl⟩, rfl, id⟩

theorem rest_settles (t : Turn ρ) (me now : Nat) {deadline : Nat}
    (hrest : t.batcher.running = true → P (.resting deadline)) : Settles P me t (t.rest me now deadline) := by
  unfold rest
  split
  · exact t.park_settles me _ (hrest ‹_›)
  · exact t.finish_settles me _

theorem stopped_settles (t : Turn ρ) (me : Nat) : Settles P me t (t.stopped me) := by
  have hstill : Still t (t.change fun b => { b with component := t.batcher.component.stop.1 }) := ⟨rfl, rfl, rfl⟩
  exact (hstill.trans (foldl_log_still _ _)).settles (finish_settles _ me _)

theorem loopGone_settles (t : Turn ρ) (me : Nat) : Settles P me t (t.loopGone me) := by
  have hstill : Still t (t.change fun b => { b with loop := none }) := ⟨rfl, rfl, rfl⟩
  exact hstill.settles (stopped_settles _ me)

/-- The task goes on with a flush that it has under way or begins. -/
theorem flush_settles {f : Flush} (t : Turn ρ) (me now : Nat) (keys : List String) (hf : s.flush? = some f) :
    Settles (Follows t.batcher.interval now t.batcher.running s) me t (t.flush me now keys f) := by
  unfold flush
  split
  · cases f with
    | ofCaller => exact t.finish_settles me _
    | ofLoop deadline =>
      refine t.rest_settles me now fun hrunning => ?_
      rw [hrunning]
      exact .again hf
  · exact ⟨.inr ⟨_, .emits _ _ hf, rfl⟩, rfl, id⟩

theorem stop_settles (t : Turn ρ) (me : Nat) (hstop : ∀ loop, t.batcher.running = true → P (.stopping loop)) :
    Settles P me t (t.stop me) := by
  have hhalt : ∀ u, Settles P me (t.change fun b => { b with running := false }) u → Settles P me t u :=
    fun u h => ⟨h.tasks, h.interval, fun _ => h.halted rfl⟩
  unfold stop
  split
  · rename_i hrunning
    dsimp only
    split
    · exact hhalt _ (stopped_settles _ me)
    · split
      · exact hhalt _ (park_settles _ me _ (hstop _ hrunning))
      · exact hhalt _ (loopGone_settles _ me)
  · exact t.finish_settles me _

theorem Settles.course {o : Outcome} (h : Settles (Follows t.batcher.interval now t.batcher.running s) me t u)
    (hexit : ∀ loop, s = .stopping loop → ∃ e, o = .exited e) : Course t.batcher me now s o u.batcher where
  moved := by
    rcases h.tasks with htasks | ⟨s', hs', htasks⟩
    · exact .ends hexit htasks
    · exact .goes hs' htasks
  interval := h.interval
  halted := h.halted

/-- A stop that has lost its patience cancels a loop and waits for it. -/
theorem cancelTask_course {s' : Stage} {o : Outcome} (t : Turn ρ) (me now loop : Nat) (r : Request ρ)
    (hs : s.losesPatience o = true) (hs' : s'.stops = true) :
    Course t.batcher me now s o ((t.cancelTask loop).park me s' r).batcher := by
  have htasks : (t.cancelTask loop).batcher.tasks = t.batcher.tasks.cancel loop := by
    unfold cancelTask
    split
    · exact (Tasks.cancel_of_find?_none ‹_›).symm
    · rfl
  have hstill : (t.cancelTask loop).batcher.interval = t.batcher.interval ∧
      (t.cancelTask loop).batcher.running = t.batcher.running := by
    unfold cancelTask
    split
    · exact ⟨rfl, rfl⟩
    · exact ⟨rfl, rfl⟩
  refine ⟨.cancels loop hs hs' ?_, hstill.1, fun h => hstill.2.trans h⟩
  rw [← htasks]
  rfl

theorem giveUp_course (t : Turn ρ) (me now loop : Nat) (e : Ending) :
    Course t.batcher me now (.expiring loop) (.exited e) (t.giveUp me).batcher := by
  unfold giveUp
  dsimp only
  split
  · exact ((t.log_still _).settles (finish_settles _ me _)).course nofun
  · split
    · exact cancelTask_course (t.log _) me now _ _ rfl rfl
    · exact ((t.log_still _).settles (loopGone_settles _ me)).course nofun

/-- **A turn takes its course**: the task stays, ends or goes on, and nobody else moves but a loop that a stop has lost its
patience with. -/
theorem goOn_course (t : Turn ρ) (me now : Nat) (s : Stage) (o : Outcome) :
    Course t.batcher me now s o (t.goOn me now s o).batcher := by
  fun_cases goOn t me now s o
  · exact (t.flush_settles me now _ rfl).course (by rintro _ ⟨⟩)
  · exact (t.stop_settles me fun loop hrunning => hrunning ▸ .stops loop).course (by rintro _ ⟨⟩)
  · exact ((t.log_still _).settles (rest_settles _ me now fun hrunning => hrunning ▸ .first)).course (by rintro _ ⟨⟩)
  · exact (t.flush_settles me now _ rfl).course (by rintro _ ⟨⟩)
  · rename_i key rest f
    have hstill : Still t (t.change fun b => { b with batches := b.batches.noteEmitted }) := ⟨rfl, rfl, rfl⟩
    have hflush := flush_settles (s := .emitting key rest f)
      (t.change fun b => { b with batches := b.batches.noteEmitted }) me now rest rfl
    exact (hstill.settles hflush).course (by rintro _ ⟨⟩)
  · rename_i key rest f reason batches log _
    have hchange : Still t (t.change fun b => { b with batches := batches }) := ⟨rfl, rfl, rfl⟩
    have hstill := hchange.trans (foldl_log_still log _)
    have hflush := fun u : Turn ρ => flush_settles (s := .emitting key rest f) u me now rest rfl
    exact (hstill.settles (hstill.interval ▸ hstill.running ▸ hflush _)).course (by rintro _ ⟨⟩)
  · exact (t.finish_settles me _).course fun _ _ => ⟨_, rfl⟩
  · exact (t.loopGone_settles me).course fun _ _ => ⟨_, rfl⟩
  · exact t.cancelTask_course me now _ _ rfl rfl
  · exact t.giveUp_course me now _ _
  · exact (t.loopGone_settles me).course (by rintro _ ⟨⟩)
  · rename_i hflush hstop _ _ _ _ _ _ _ _ _
    refine ⟨.stays (fun c => ?_) rfl, rfl, id⟩
    rintro rfl
    cases c with
    | flush => exact hflush rfl
    | stop => exact hstop rfl

end Turn

/-! ## What a course leaves alone -/

namespace Course

variable {b b' : Batcher ρ} {me now id : Nat} {s s' : Stage} {o : Outcome}

theorem next (h : Course b me now s o b') : b'.tasks.next = b.tasks.next := by
  rcases h.moved with ⟨-, h⟩ | ⟨-, h⟩ | ⟨-, h⟩ | ⟨_, -, -, h⟩
  · rw [h]
  · rw [h, Tasks.erase]
  · rw [h, Tasks.advance, Tasks.modify]
  · rw [h, Tasks.advance, Tasks.cancel, Tasks.modify, Tasks.modify]

/-- Without loss of patience nobody else is touched. -/
theorem elsewhere (h : Course b me now s o b') (hpatient : s.losesPatience o = false) (hid : id ≠ me) :
    b'.tasks.find? id = b.tasks.find? id := by
  rcases h.moved with ⟨-, h⟩ | ⟨-, h⟩ | ⟨-, h⟩ | ⟨_, hlost, -, h⟩
  · rw [h]
  · rw [h, Tasks.find?_erase, if_neg hid]
  · rw [h, Tasks.advance, Tasks.find?_modify, if_neg hid]
    exact fun _ => rfl
  · rw [hpatient] at hlost
    cases hlost

/-- Where a task stands now it stood before, or has just come to. -/
theorem stage? (h : Course b me now s o b') (hst : b.tasks.stage? me = some s) (hid : b'.tasks.stage? id = some s') :
    b.tasks.stage? id = some s' ∧ (id = me → ∀ c, s' ≠ .called c) ∨
    id = me ∧ (Follows b.interval now b.running s s' ∨ s.losesPatience o = true ∧ s'.stops = true) := by
  rcases h.moved with ⟨hcalled, h⟩ | ⟨-, h⟩ | ⟨hf, h⟩ | ⟨loop, hlost, hstops, h⟩
  · rw [h] at hid
    refine .inl ⟨hid, ?_⟩
    rintro rfl
    rw [hst] at hid
    cases hid
    exact hcalled
  · rw [h] at hid
    obtain ⟨hne, hold⟩ := Tasks.stage?_of_erase hid
    exact .inl ⟨hold, fun e => absurd e hne⟩
  · rw [h] at hid
    rcases Tasks.stage?_of_advance hid with ⟨he, rfl⟩ | ⟨hne, hold⟩
    · exact .inr ⟨he, .inl hf⟩
    · exact .inl ⟨hold, fun e => absurd e hne⟩
  · rw [h] at hid
    rcases Tasks.stage?_of_advance hid with ⟨he, rfl⟩ | ⟨hne, hold⟩
    · exact .inr ⟨he, .inr ⟨hlost, hstops⟩⟩
    · rw [Tasks.stage?_cancel] at hold
      split at hold
      · cases hold
      · exact .inl ⟨hold, fun e => absurd e hne⟩

end Course

/-! ## Keys to come -/

namespace Turn

variable {t : Turn ρ} {me now : Nat} {s s' : Stage} {key : String}

/-- What a turn makes of a key that its task was to come to: the key is empty, its batch is taken, or the task is still to
come to it. -/
def Reaches (t : Turn ρ) (me : Nat) (key : String) (u : Turn ρ) : Prop :=
  t.batcher.batches.pending key = [] ∨ (∃ batch ∈ u.taken, batch.key = key) ∨
    ∃ s, u.batcher.tasks.stage? me = some s ∧ s.reaches key = true

theorem flush_reaches (t : Turn ρ) (now : Nat) {keys : List String} (f : Flush) (hst : t.batcher.tasks.stage? me = some s)
    (hkey : key ∈ keys) : Reaches t me key (t.flush me now keys f) := by
  unfold flush
  cases ht : t.batcher.batches.take? keys with
  | none => exact .inl (Batches.take?_eq_none ht key hkey)
  | some taken =>
    obtain ⟨batch, rest, batches⟩ := taken
    obtain ⟨⟨skipped, rfl, hempty⟩, -⟩ := Batches.take?_eq_some ht
    rcases List.mem_append.1 hkey with hskipped | hrest
    · exact .inl (hempty key hskipped)
    · rcases List.mem_cons.1 hrest with rfl | hrest
      · refine .inr (.inl ⟨batch, ?_, rfl⟩)
        show batch ∈ (Turn.act _ _).taken
        rw [act_taken]
        exact List.mem_append_right _ (List.mem_singleton_self batch)
      · refine .inr (.inr ⟨.emitting batch.key rest f, Tasks.stage?_advance_self hst _, ?_⟩)
        exact List.contains_iff_mem.2 hrest

/-- A flush that comes to a key does not pass it over. -/
theorem goOn_reaches (t : Turn ρ) (now : Nat) (o : Outcome) (hst : t.batcher.tasks.stage? me = some s)
    (hkey : s.reaches key = true) : Reaches t me key (t.goOn me now s o) := by
  have hsame : Reaches t me key t := .inr (.inr ⟨s, hst, hkey⟩)
  cases s with
  | called c => cases hkey
  | begun => cases hkey
  | resting deadline =>
    by_cases hmem : key ∈ t.batcher.batches.buffers.keys
    · exact t.flush_reaches now _ hst hmem
    · exact .inl (Batches.pending_of_not_mem hmem)
  | emitting at_ rest f =>
    have hmem := List.contains_iff_mem.1 hkey
    cases o with
    | done => exact flush_reaches (t.change fun b => { b with batches := b.batches.noteEmitted }) now f hst hmem
    | failed reason =>
      have hlogs := foldl_log_idle (t.batcher.batches.noteFailed at_ reason).2
        (t.change fun b => { b with batches := (t.batcher.batches.noteFailed at_ reason).1 })
      have hstill := foldl_log_still (t.batcher.batches.noteFailed at_ reason).2
        (t.change fun b => { b with batches := (t.batcher.batches.noteFailed at_ reason).1 })
      have hflush := flush_reaches _ now f (hstill.tasks.symm ▸ hst) hmem
      rw [Reaches, hlogs.batches] at hflush
      exact hflush
    | exited e => exact hsame
    | expired => exact hsame
  | stopping loop => cases hkey
  | expiring loop => cases hkey
  | dropping loop => cases hkey

/-- The task ends, or emits the batch of a key among some and is left with the keys after it; no other key is touched. -/
structure Advances (t : Turn ρ) (me : Nat) (keys : List String) (u : Turn ρ) : Prop where
  task : u.batcher.tasks.find? me = none ∨ ∃ key rest f, u.batcher.tasks.stage? me = some (.emitting key rest f) ∧
    rest.length < keys.length ∧ ∀ k ∈ rest, k ∈ keys
  pending : ∀ key ∉ keys, u.batcher.batches.pending key = t.batcher.batches.pending key

/-- Once the batcher is stopped, a flush comes to its end. -/
theorem flush_advances (t : Turn ρ) (now : Nat) (keys : List String) (f : Flush) (hst : t.batcher.tasks.stage? me = some s)
    (hhalted : t.batcher.running = false) : Advances t me keys (t.flush me now keys f) := by
  unfold flush
  cases ht : t.batcher.batches.take? keys with
  | none =>
    have hfinish : Advances t me keys (t.finish me) := by
      refine ⟨.inl ?_, fun _ _ => rfl⟩
      show (t.batcher.tasks.erase me).find? me = none
      rw [Tasks.find?_erase, if_pos rfl]
    cases f with
    | ofCaller => exact hfinish
    | ofLoop deadline =>
      simp only [flushed, rest, hhalted, Bool.false_eq_true, if_false]
      exact hfinish
  | some taken =>
    obtain ⟨batch, rest, batches⟩ := taken
    obtain ⟨⟨skipped, rfl, -⟩, -, -, rfl⟩ := Batches.take?_eq_some ht
    refine ⟨.inr ⟨batch.key, rest, f, Tasks.stage?_advance_self hst _, ?_, fun k hk => ?_⟩, fun key hkey => ?_⟩
    · simp only [List.length_append, List.length_cons]
      omega
    · exact List.mem_append_right _ (List.mem_cons_of_mem _ hk)
    · refine (Batches.put_nil_pending t.batcher.batches batch.key key).trans (if_neg ?_)
      rintro rfl
      exact hkey (List.mem_append_right _ List.mem_cons_self)

end Turn

end PoolFeed.Batcher
