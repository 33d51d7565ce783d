import PoolFeed.Proofs.Batcher.Timed

/-!
# The life of a loop

A loop begins, rests and flushes in turn (`Stage.Loops`). `goOn_stage?` says where its turn brings it; no other task brings
it anywhere (`Move.stage?_back`). Only a stop stops the batcher, so while the batcher is calm a loop that has been started
lives on (`Lives.step`).
-/

namespace PoolFeed.Batcher

variable {ρ : Type}

/-! ## The turns of a loop -/

/-- A stop at any of its stages. -/
def Stage.isStop : Stage → Bool
  | .called .stop | .stopping _ | .expiring _ | .dropping _ => true
  | .called .flush | .begun | .resting _ | .emitting _ _ _ => false

/-- Where a loop stands. -/
inductive Stage.Loops : Stage → Prop
  | begun : Loops .begun
  | flushes {s : Stage} {deadline : Nat} : s.flush? = some (.ofLoop deadline) → Loops s

namespace Turn

variable {t : Turn ρ} {me now : Nat} {s : Stage}

theorem rest_stage? (hst : t.batcher.tasks.stage? me = some s) (now deadline : Nat) :
    (t.rest me now deadline).batcher.tasks.stage? me =
      if t.batcher.running = true then some (.resting deadline) else none := by
  unfold rest
  split
  · exact Tasks.stage?_advance_self hst _
  · show (t.batcher.tasks.erase me).stage? me = none
    rw [Tasks.stage?_erase, if_pos rfl]

/-- A flush of the loop waits for an emission, or it is over and the loop rests or ends. -/
theorem flush_stage? (hst : t.batcher.tasks.stage? me = some s) (now : Nat) (keys : List String) (deadline : Nat) :
    (∃ key rest, (t.flush me now keys (.ofLoop deadline)).batcher.tasks.stage? me =
      some (.emitting key rest (.ofLoop deadline))) ∨
    (t.flush me now keys (.ofLoop deadline)).batcher.tasks.stage? me =
      if t.batcher.running = true then some (.resting (max (deadline + t.batcher.interval) now)) else none := by
  unfold flush
  split
  · exact .inr (rest_stage? hst now _)
  · exact .inl ⟨_, _, Tasks.stage?_advance_self hst _⟩

theorem goOn_begun_stage? (hst : t.batcher.tasks.stage? me = some .begun) (now : Nat) (o : Outcome) :
    (t.goOn me now .begun o).batcher.tasks.stage? me =
      if t.batcher.running = true then some (.resting (now + t.batcher.interval)) else none :=
  rest_stage? (t := t.log _) hst now _

theorem goOn_stage? {deadline : Nat} (hst : t.batcher.tasks.stage? me = some s)
    (hf : s.flush? = some (.ofLoop deadline)) (now : Nat) (o : Outcome) :
    (∃ key rest, (t.goOn me now s o).batcher.tasks.stage? me = some (.emitting key rest (.ofLoop deadline))) ∨
    (t.goOn me now s o).batcher.tasks.stage? me =
      if t.batcher.running = true then some (.resting (max (deadline + t.batcher.interval) now)) else none := by
  cases s with
  | called c => cases c <;> cases hf
  | begun => cases hf
  | resting d =>
    cases hf
    exact flush_stage? hst now _ deadline
  | emitting key rest f =>
    cases hf
    cases o with
    | done => exact flush_stage? (t := t.change fun b => { b with batches := b.batches.noteEmitted }) hst now rest deadline
    | failed reason =>
      exact flush_stage? (t := (t.change fun b => { b with batches := (b.batches.noteFailed key reason).1 }).log _)
        hst now rest deadline
    | exited e => exact .inl ⟨key, rest, hst⟩
    | expired => exact .inl ⟨key, rest, hst⟩
  | stopping loop => cases hf
  | expiring loop => cases hf
  | dropping loop => cases hf

/-- While the batcher runs, a loop that goes on stands somewhere. -/
theorem goOn_loops (hst : t.batcher.tasks.stage? me = some s) (hloops : s.Loops) (hrunning : t.batcher.running = true)
    (now : Nat) (o : Outcome) : ∃ s', (t.goOn me now s o).batcher.tasks.stage? me = some s' ∧ s'.Loops := by
  cases hloops with
  | begun => exact ⟨_, (goOn_begun_stage? hst now o).trans (if_pos hrunning), .flushes rfl⟩
  | flushes hf =>
    rcases goOn_stage? hst hf now o with ⟨key, rest, he⟩ | hr
    · exact ⟨_, he, .flushes rfl⟩
    · exact ⟨_, hr.trans (if_pos hrunning), .flushes rfl⟩

theorem rest_running (t : Turn ρ) (me now deadline : Nat) :
    (t.rest me now deadline).batcher.running = t.batcher.running := by
  unfold rest
  split
  · rfl
  · rfl

theorem flush_running (t : Turn ρ) (me now : Nat) (keys : List String) (f : Flush) :
    (t.flush me now keys f).batcher.running = t.batcher.running := by
  unfold flush
  split
  · cases f with
    | ofCaller => rfl
    | ofLoop deadline => exact t.rest_running me now _
  · rfl

/-- Only a stop stops the batcher. -/
theorem goOn_running (t : Turn ρ) (me now : Nat) (o : Outcome) (hs : s.isStop = false) :
    (t.goOn me now s o).batcher.running = t.batcher.running := by
  cases s with
  | called c =>
    cases c with
    | flush => exact t.flush_running me now _ _
    | stop => cases hs
  | begun => exact rest_running (t.log _) me now _
  | resting d => exact t.flush_running me now _ _
  | emitting key rest f =>
    cases o with
    | done => exact flush_running (t.change fun b => { b with batches := b.batches.noteEmitted }) me now rest f
    | failed reason =>
      exact flush_running ((t.change fun b => { b with batches := (b.batches.noteFailed key reason).1 }).log _)
        me now rest f
    | exited e => rfl
    | expired => rfl
  | stopping loop => cases hs
  | expiring loop => cases hs
  | dropping loop => cases hs

end Turn

/-! ## Moves -/

namespace Move

def isStop : Move ρ → Bool
  | .ask .stop _ => true
  | .ask .flush _ | .enqueue _ _ | .start _ | .resume _ _ _ _ => false

variable {b : Batcher ρ} {m : Move ρ} {id : Nat} {s : Stage} {o : Outcome}

theorem answer?_of_begins? (h : m.begins? b = some id) : ∃ o, m.answer? b id = some o := by
  obtain ⟨⟨task, s, o⟩, hgoes, hflush⟩ := Option.bind_eq_some_iff.1 h
  dsimp only at hflush
  split at hflush
  · cases hflush
    exact ⟨o, answer?_of_goesOn? hgoes⟩
  · cases hflush

theorem begins?_of_goesOn? (h : m.goesOn? b = some (id, s, o)) :
    m.begins? b = if s.flushes = true then some id else none := by
  rw [begins?, h, Option.bind_some]

/-- A task that is not new goes on by a turn of its own. -/
theorem turn_of_goesOn? (hid : id < b.tasks.next) (h : m.goesOn? b = some (id, s, o)) (now : Nat) :
    b.tasks.stage? id = some s ∧ m.turn b = Turn.goOn ⟨b, []⟩ id (m.time now) s o := by
  cases m with
  | enqueue key record => cases h
  | start now => cases h
  | ask c now =>
    cases h
    exact absurd hid (Nat.lt_irrefl _)
  | resume task turn now' o' =>
    rcases resume_cases b task turn now' o' with ⟨hnone, -⟩ | ⟨s', hst, hgoes, hturn⟩
    · cases hnone.symm.trans h
    · cases hgoes.symm.trans h
      exact ⟨hst, hturn⟩

/-- A task that is not new and does not go on stands nowhere but where it stood. -/
theorem stage?_back (hord : b.tasks.Ordered) (hid : id < b.tasks.next) (hnone : m.answer? b id = none)
    (hs : (m.turn b).batcher.tasks.stage? id = some s) : b.tasks.stage? id = some s := by
  have hother : ∀ task s' o', m.goesOn? b = some (task, s', o') → id ≠ task := by
    rintro _ s' o' hgoes rfl
    cases hnone.symm.trans (answer?_of_goesOn? hgoes)
  have hspawn : ∀ s', (b.tasks.spawn s').stage? id = b.tasks.stage? id := by
    intro s'
    rw [Tasks.stage?_spawn hord, if_neg (Nat.ne_of_lt hid)]
  cases hstart : m.isStart with
  | true =>
    obtain ⟨now, rfl⟩ := exists_start hstart
    change (b.start now).batcher.tasks.stage? id = some s at hs
    rcases (start_tasks b now).2 with htasks | htasks
    · rwa [htasks] at hs
    · rwa [htasks, hspawn] at hs
  | false =>
    cases Move.effect b hstart with
    | nothing hgoes hu => rwa [hu.stage?] at hs
    | @resumes task turn now s' o' hst hgoes hc =>
      rcases hc.stage? hst hs with ⟨hold, -⟩ | ⟨he, -⟩
      · exact hold
      · exact absurd he (hother _ _ _ hgoes)
    | @asks c now hc =>
      rcases hc.stage? (Tasks.stage?_spawn_self hord _) hs with ⟨hold, -⟩ | ⟨he, -⟩
      · rwa [hspawn] at hold
      · exact absurd he (Nat.ne_of_lt hid)

theorem next_le (b : Batcher ρ) (m : Move ρ) : b.tasks.next ≤ (m.turn b).batcher.tasks.next := by
  cases hstart : m.isStart with
  | true =>
    obtain ⟨now, rfl⟩ := exists_start hstart
    show b.tasks.next ≤ (b.start now).batcher.tasks.next
    rcases (start_tasks b now).2 with htasks | htasks
    · exact Nat.le_of_eq (congrArg Tasks.next htasks).symm
    · rw [htasks]
      exact Nat.le_succ _
  | false => exact (Move.effect b hstart).next_le

theorem interval_eq (b : Batcher ρ) (m : Move ρ) : (m.turn b).batcher.interval = b.interval := by
  cases hstart : m.isStart with
  | true =>
    obtain ⟨now, rfl⟩ := exists_start hstart
    exact (start_tasks b now).1
  | false => exact (Move.effect b hstart).interval

end Move

/-! ## The life of a loop -/

theorem Stage.not_losesPatience {s : Stage} {o : Outcome} (hs : s.isStop = false) : s.losesPatience o = false := by
  cases s with
  | stopping loop => cases hs
  | expiring loop => cases hs
  | called c => rfl
  | begun => rfl
  | resting d => rfl
  | emitting key rest f => rfl
  | dropping loop => rfl

theorem Follows.not_isStop {interval now : Nat} {running : Bool} {s s' : Stage} (h : Follows interval now running s s')
    (hs : s.isStop = false) : s'.isStop = false := by
  cases h with
  | first => rfl
  | again => rfl
  | emits => rfl
  | stops loop => cases hs

/-- No task of the batcher stops it. -/
def Calm (b : Batcher ρ) : Prop := ∀ id s, b.tasks.stage? id = some s → s.isStop = false

/-- The batcher runs, no task stops it, and the loop has not ended. -/
structure Lives (loop : Nat) (b : Batcher ρ) : Prop where
  running : b.running = true
  calm : Calm b
  loop : ∃ s, b.tasks.stage? loop = some s ∧ s.Loops

namespace Lives

variable {b b' : Batcher ρ} {loop me now : Nat} {m : Move ρ} {s : Stage} {o : Outcome}

/-- A task that does not stop the batcher lets the loop live. -/
theorem of_course (h : Lives loop b) (hst : b.tasks.stage? me = some s) (hc : Course b me now s o b')
    (hrunning : b'.running = b.running) (hloop : me = loop → ∃ s', b'.tasks.stage? loop = some s' ∧ s'.Loops) :
    Lives loop b' where
  running := hrunning.trans h.running
  calm id s' hs' := by
    have hs := h.calm me s hst
    rcases hc.stage? hst hs' with ⟨hold, -⟩ | ⟨-, hf | ⟨hlost, -⟩⟩
    · exact h.calm id s' hold
    · exact hf.not_isStop hs
    · rw [Stage.not_losesPatience hs] at hlost
      cases hlost
  loop := by
    by_cases hme : me = loop
    · exact hloop hme
    · obtain ⟨s', hs', hloops⟩ := h.loop
      have hfind := hc.elsewhere (Stage.not_losesPatience (h.calm me s hst)) (Ne.symm hme)
      refine ⟨s', ?_, hloops⟩
      rw [Tasks.stage?, hfind]
      exact hs'

theorem spawn (h : Lives loop b) (hord : b.tasks.Ordered) (hs : s.isStop = false) :
    Lives loop { b with tasks := b.tasks.spawn s } where
  running := h.running
  calm id s' hs' := by
    rcases Tasks.stage?_of_spawn hord hs' with ⟨-, rfl⟩ | hold
    · exact hs
    · exact h.calm id s' hold
  loop := by
    obtain ⟨s', hs', hloops⟩ := h.loop
    exact ⟨s', Tasks.stage?_spawn_of_some hord hs' s, hloops⟩

theorem step (h : Lives loop b) (hord : b.tasks.Ordered) (hstop : m.isStop = false) : Lives loop (m.turn b).batcher := by
  cases m with
  | enqueue key record => exact ⟨h.running, h.calm, h.loop⟩
  | start now =>
    have hstart : (b.start now).batcher = b := by
      rw [Batcher.start, if_pos h.running]
      exact rfl
    exact hstart.symm ▸ h
  | ask c now =>
    cases c with
    | stop => cases hstop
    | flush =>
      have hst := Tasks.stage?_spawn_self hord (.called .flush)
      have hne : b.tasks.next ≠ loop := by
        obtain ⟨s', hs', -⟩ := h.loop
        exact Nat.ne_of_gt (Tasks.lt_next_of_stage? hord hs')
      exact (h.spawn hord rfl).of_course hst (Turn.goOn_course ⟨_, []⟩ _ now _ .done)
        (Turn.goOn_running _ _ now _ rfl)
        fun he => absurd he hne
  | resume task turn now o =>
    rcases Move.resume_cases b task turn now o with ⟨hgoes, -⟩ | ⟨s, hst, hgoes, hturn⟩
    · have hu := Move.resume_unmoved hgoes
      refine ⟨hu.running.trans h.running, fun id s hs => h.calm id s ?_, ?_⟩
      · rwa [← hu.stage?]
      · obtain ⟨s, hs, hloops⟩ := h.loop
        exact ⟨s, (hu.stage? loop).trans hs, hloops⟩
    · show Lives loop (b.resume task turn now o).batcher
      rw [hturn]
      refine h.of_course hst (Turn.goOn_course ⟨b, []⟩ _ now _ _) (Turn.goOn_running _ _ now _ (h.calm _ s hst)) ?_
      rintro rfl
      obtain ⟨s', hs', hloops⟩ := h.loop
      cases hst.symm.trans hs'
      exact Turn.goOn_loops (t := ⟨b, []⟩) hst hloops h.running now o

end Lives

/-! ## Starts -/

/-- What a start does that begins a loop. -/
structure Started (b b' : Batcher ρ) : Prop where
  tasks : b'.tasks = b.tasks.spawn .begun
  running : b'.running = true
  batches : b'.batches = b.batches

theorem start_of_halted {b : Batcher ρ} (h : b.running = false) (now : Nat) : Started b (b.start now).batcher := by
  have hstopped : ¬ b.running = true := by
    rw [h]
    exact Bool.false_ne_true
  have hstill := Turn.foldl_log_still (b.component.start now).2
    ⟨{ b with
        component := (b.component.start now).1, running := true, loop := some b.tasks.next,
        tasks := b.tasks.spawn .begun }, []⟩
  have hidle := Turn.foldl_log_idle (b.component.start now).2
    ⟨{ b with
        component := (b.component.start now).1, running := true, loop := some b.tasks.next,
        tasks := b.tasks.spawn .begun }, []⟩
  unfold Batcher.start
  rw [if_neg hstopped]
  exact ⟨hstill.tasks, hstill.running, hidle.batches⟩

end PoolFeed.Batcher
