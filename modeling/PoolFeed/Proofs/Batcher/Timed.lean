import PoolFeed.Proofs.Batcher.Stages

/-!
# Runs of the batcher by the clock

| here | there |
| --- | --- |
| `slack` | what `stop_timeout` leaves for a `_flush` after one `flush_interval` |
| `inTime` | `sleep` until the deadline in `_run_loop`, and `wait_for` in `AlwaysOnComponent.stop` |

A run is timely if its clock never goes back, a loop that is started begins at once, a loop that rests goes on when its
deadline comes and not before, every flush is over before a stop could lose its patience with it (`slack`), and patience
ends when its time is over. In a timely run a loop never rests for longer than an interval (`Punctual`).
-/

namespace PoolFeed.Batcher

variable {ρ : Type} {b : Batcher ρ}

/-- Milliseconds that a flush may take: what is left of the patience of a stop after one interval. -/
def slack (b : Batcher ρ) : Nat := b.patience - b.interval

theorem interval_add_slack (b : Batcher ρ) : b.interval + b.slack = b.patience := by
  unfold slack patience
  omega

theorem slack_pos (b : Batcher ρ) : 0 < b.slack := by
  unfold slack patience
  omega

namespace Move

/-- When a move takes place; records come at any moment. -/
def time (now : Nat) : Move ρ → Nat
  | .enqueue _ _ => now
  | .start t | .ask _ t | .resume _ _ t _ => t

/-- The task that begins something with a move: a loop, a call or a flush. -/
def commences? (b : Batcher ρ) : Move ρ → Option Nat
  | .enqueue _ _ => none
  | .start _ | .ask _ _ => some b.tasks.next
  | .resume task turn now o => begins? b (.resume task turn now o)

/-- What a task has waited for when a move lets it go on. -/
def answer? (b : Batcher ρ) (m : Move ρ) (id : Nat) : Option Outcome :=
  (m.goesOn? b).bind fun (task, _, o) => if task = id then some o else none

theorem answer?_eq_some {m : Move ρ} {id : Nat} {o : Outcome} (h : m.answer? b id = some o) :
    ∃ s, m.goesOn? b = some (id, s, o) := by
  obtain ⟨⟨task, s, o'⟩, hgoes, ho⟩ := Option.bind_eq_some_iff.1 h
  dsimp only at ho
  split at ho
  · rename_i htask
    cases ho
    exact ⟨s, htask ▸ hgoes⟩
  · cases ho

theorem answer?_of_goesOn? {m : Move ρ} {id : Nat} {s : Stage} {o : Outcome} (h : m.goesOn? b = some (id, s, o)) :
    m.answer? b id = some o := by
  rw [answer?, h]
  exact if_pos rfl

/-- A task that goes on stands at its stage, or has just been called. -/
theorem stage?_of_goesOn? {m : Move ρ} {id : Nat} {s : Stage} {o : Outcome} (h : m.goesOn? b = some (id, s, o)) :
    b.tasks.stage? id = some s ∨ id = b.tasks.next ∧ ∃ c, s = .called c := by
  cases m with
  | enqueue key record => cases h
  | start now => cases h
  | ask c now =>
    cases h
    exact .inr ⟨rfl, c, rfl⟩
  | resume task turn now o' =>
    rw [goesOn?] at h
    split at h
    · obtain ⟨s', hst, he⟩ := Option.map_eq_some_iff.1 h
      cases he
      exact .inl hst
    · cases h

/-- A task that stands at a stage can be resumed there. -/
theorem resume_goes {id : Nat} {s : Stage} (hst : b.tasks.stage? id = some s) : ∃ turn, ∀ now o,
    goesOn? b (.resume id turn now o) = some (id, s, o) ∧ b.resume id turn now o = Turn.goOn ⟨b, []⟩ id now s o := by
  obtain ⟨t, ht, hc⟩ := Option.bind_eq_some_iff.1 hst
  have hkept : t.cancelled = false := by
    cases hcancelled : t.cancelled with
    | false => rfl
    | true =>
      rw [hcancelled, if_pos rfl] at hc
      cases hc
  refine ⟨t.turn, fun now o => ?_⟩
  have hgoes : goesOn? b (.resume id t.turn now o) = some (id, s, o) := by
    simp [goesOn?, Tasks.waitsAt, ht, hkept, hst]
  refine ⟨hgoes, ?_⟩
  rcases resume_cases b id t.turn now o with ⟨hnone, -⟩ | ⟨s', -, hgoes', hturn⟩
  · cases hnone.symm.trans hgoes
  · cases hgoes'.symm.trans hgoes
    exact hturn

/-- What begins with a move is a new task, or a flush of a task that goes on. -/
theorem commences?_eq_some {m : Move ρ} {id : Nat} (h : m.commences? b = some id) :
    b.tasks.next ≤ id ∨ ∃ s o, m.goesOn? b = some (id, s, o) ∧ b.tasks.stage? id = some s ∧ s.flushes = true := by
  cases m with
  | enqueue key record => cases h
  | start now =>
    cases h
    exact .inl (Nat.le_refl _)
  | ask c now =>
    cases h
    exact .inl (Nat.le_refl _)
  | resume task turn now o =>
    obtain ⟨⟨task', s, o'⟩, hgoes, hflush⟩ := Option.bind_eq_some_iff.1 h
    dsimp only at hflush
    split at hflush
    · cases hflush
      refine .inr ⟨s, o', hgoes, ?_, ‹_›⟩
      rw [goesOn?] at hgoes
      split at hgoes
      · obtain ⟨s', hst, he⟩ := Option.map_eq_some_iff.1 hgoes
        cases he
        exact hst
      · cases hgoes
    · cases hflush

def isStart : Move ρ → Bool
  | .start _ => true
  | .enqueue _ _ | .ask _ _ | .resume _ _ _ _ => false

theorem exists_start {m : Move ρ} (h : m.isStart = true) : ∃ now, m = .start now := by
  cases m with
  | start now => exact ⟨now, rfl⟩
  | enqueue key record => cases h
  | ask c now => cases h
  | resume task turn now o => cases h

end Move

/-- From one batcher to another no task has moved; at most one that was told to give up has ended. -/
structure Unmoved (b b' : Batcher ρ) : Prop where
  interval : b'.interval = b.interval
  running : b'.running = b.running
  next : b'.tasks.next = b.tasks.next
  find? : ∀ id, b'.tasks.find? id = b.tasks.find? id ∨ b.tasks.stage? id = none ∧ b'.tasks.find? id = none

theorem Unmoved.refl (b : Batcher ρ) : Unmoved b b := ⟨rfl, rfl, rfl, fun _ => .inl rfl⟩

theorem Unmoved.stage? {b' : Batcher ρ} (h : Unmoved b b') (id : Nat) : b'.tasks.stage? id = b.tasks.stage? id := by
  rcases h.find? id with heq | ⟨hnone, hgone⟩
  · rw [Tasks.stage?, heq, Tasks.stage?]
  · rw [hnone, Tasks.stage?, hgone, Option.bind_none]

/-- What a move other than a start does to the tasks. -/
inductive Move.Effect (b : Batcher ρ) (b' : Batcher ρ) : Move ρ → Prop
  | nothing {m : Move ρ} : m.goesOn? b = none → Unmoved b b' → Effect b b' m
  | resumes {task turn now : Nat} {s : Stage} {o : Outcome} : b.tasks.stage? task = some s →
    goesOn? b (.resume task turn now o) = some (task, s, o) → Course b task now s o b' →
    Effect b b' (.resume task turn now o)
  | asks {c : Call} {now : Nat} :
    Course { b with tasks := b.tasks.spawn (.called c) } b.tasks.next now (.called c) .done b' →
    Effect b b' (.ask c now)

/-- A resumption that lets no task go on. -/
theorem Move.resume_unmoved {task turn now : Nat} {o : Outcome} (hgoes : goesOn? b (.resume task turn now o) = none) :
    Unmoved b (b.resume task turn now o).batcher := by
  unfold Batcher.resume
  split
  · exact .refl b
  · rename_i found hfind
    split
    · exact .refl b
    · rename_i hturn
      split
      · rename_i hcancelled
        refine ⟨rfl, rfl, rfl, fun id => ?_⟩
        show (b.tasks.erase task).find? id = _ ∨ _ ∧ (b.tasks.erase task).find? id = none
        rw [Tasks.find?_erase]
        split
        · rename_i hid
          refine .inr ⟨?_, rfl⟩
          rw [hid, Tasks.stage?, hfind, Option.bind_some, if_pos hcancelled]
        · exact .inl rfl
      · rename_i hcancelled
        simp [goesOn?, Tasks.waitsAt, Tasks.stage?, hfind, hturn, hcancelled] at hgoes

theorem Move.effect (b : Batcher ρ) {m : Move ρ} (hm : m.isStart = false) : m.Effect b (m.turn b).batcher := by
  cases m with
  | enqueue key record => exact .nothing rfl ⟨rfl, rfl, rfl, fun _ => .inl rfl⟩
  | start now => cases hm
  | ask c now => exact .asks (Turn.goOn_course ⟨_, []⟩ _ now _ _)
  | resume task turn now o =>
    rcases Move.resume_cases b task turn now o with ⟨hgoes, -⟩ | ⟨s, hst, hgoes, hturn⟩
    · exact .nothing hgoes (resume_unmoved hgoes)
    · refine .resumes hst hgoes ?_
      rw [Move.turn, hturn]
      exact Turn.goOn_course ⟨b, []⟩ _ now _ _

namespace Move.Effect

variable {b' : Batcher ρ} {m : Move ρ} {id : Nat}

theorem halted (h : m.Effect b b') (hhalted : b.running = false) : b'.running = false := by
  cases h with
  | nothing _ hu => exact hu.running.trans hhalted
  | resumes _ _ hc => exact hc.halted hhalted
  | asks hc => exact hc.halted hhalted

theorem interval (h : m.Effect b b') : b'.interval = b.interval := by
  cases h with
  | nothing _ hu => exact hu.interval
  | resumes _ _ hc => exact hc.interval
  | asks hc => exact hc.interval

theorem next_le (h : m.Effect b b') : b.tasks.next ≤ b'.tasks.next := by
  cases h with
  | nothing _ hu => exact Nat.le_of_eq hu.next.symm
  | resumes _ _ hc => exact Nat.le_of_eq hc.next.symm
  | asks hc =>
    rw [hc.next]
    exact Nat.le_succ _

/-- While no stop loses its patience, a task that does not go on is left alone. -/
theorem find? (h : m.Effect b b') (hord : b.tasks.Ordered)
    (hpatient : ∀ task s o, m.goesOn? b = some (task, s, o) → s.losesPatience o = false)
    (hid : ∀ s o, m.goesOn? b ≠ some (id, s, o)) :
    b'.tasks.find? id = b.tasks.find? id ∨ b.tasks.stage? id = none ∧ b'.tasks.find? id = none := by
  cases h with
  | nothing _ hu => exact hu.find? id
  | @resumes task turn now s o hst hgoes hc =>
    refine .inl (hc.elsewhere (hpatient _ _ _ hgoes) ?_)
    rintro rfl
    exact hid _ _ hgoes
  | @asks c now hc =>
    have hne : id ≠ b.tasks.next := by
      rintro rfl
      exact hid _ _ rfl
    refine .inl ((hc.elsewhere rfl hne).trans ?_)
    rw [Tasks.find?_spawn hord, if_neg hne]

theorem stage? (h : m.Effect b b') (hord : b.tasks.Ordered)
    (hpatient : ∀ task s o, m.goesOn? b = some (task, s, o) → s.losesPatience o = false)
    (hid : ∀ s o, m.goesOn? b ≠ some (id, s, o)) : b'.tasks.stage? id = b.tasks.stage? id := by
  rcases h.find? hord hpatient hid with heq | ⟨hnone, hgone⟩
  · rw [Tasks.stage?, heq, Tasks.stage?]
  · rw [hnone, Tasks.stage?, hgone, Option.bind_none]

/-- Once the batcher is stopped, and while no stop loses its patience, a task that stands somewhere else than before
emits. -/
theorem came_to (h : m.Effect b b') (hord : b.tasks.Ordered) (hhalted : b.running = false)
    (hpatient : ∀ task s o, m.goesOn? b = some (task, s, o) → s.losesPatience o = false) {s' : Stage}
    (hs : b'.tasks.stage? id = some s') :
    b.tasks.stage? id = some s' ∨
    ∃ key rest f, s' = .emitting key rest f ∧ ∃ s o, m.goesOn? b = some (id, s, o) ∧ s.flush? = some f := by
  have hemits : ∀ {s : Stage} {now : Nat}, Follows b.interval now b.running s s' →
      ∃ key rest f, s' = .emitting key rest f ∧ s.flush? = some f := by
    rw [hhalted]
    rintro s now ⟨⟩
    exact ⟨_, _, _, rfl, ‹_›⟩
  cases h with
  | nothing _ hu => exact .inl (hu.stage? id ▸ hs)
  | @resumes task turn now s o hst hgoes hc =>
    rcases hc.stage? hst hs with ⟨hs, -⟩ | ⟨rfl, hf | ⟨hlost, -⟩⟩
    · exact .inl hs
    · obtain ⟨key, rest, f, he, hf⟩ := hemits hf
      exact .inr ⟨key, rest, f, he, s, o, hgoes, hf⟩
    · rw [hpatient _ _ _ hgoes] at hlost
      cases hlost
  | @asks c now hc =>
    have hst : (b.tasks.spawn (.called c)).stage? b.tasks.next = some (.called c) := by
      rw [Tasks.stage?_spawn hord, if_pos rfl]
    rcases hc.stage? hst hs with ⟨hs, hcalled⟩ | ⟨rfl, hf | ⟨hlost, -⟩⟩
    · rcases Tasks.stage?_of_spawn hord hs with ⟨hid, rfl⟩ | hs
      · exact absurd rfl (hcalled hid c)
      · exact .inl hs
    · obtain ⟨key, rest, f, he, hf⟩ := hemits hf
      exact .inr ⟨key, rest, f, he, _, _, rfl, hf⟩
    · cases hlost

end Move.Effect

/-- A start begins a loop, unless there is one. -/
theorem start_tasks (b : Batcher ρ) (now : Nat) : (b.start now).batcher.interval = b.interval ∧
    ((b.start now).batcher.tasks = b.tasks ∨ (b.start now).batcher.tasks = b.tasks.spawn .begun) := by
  unfold Batcher.start
  split
  · exact ⟨rfl, .inl rfl⟩
  · dsimp only
    have hstill := Turn.foldl_log_still (b.component.start now).2
      ⟨{ b with
          component := (b.component.start now).1, running := true, loop := some b.tasks.next,
          tasks := b.tasks.spawn .begun }, []⟩
    exact ⟨hstill.interval, .inr hstill.tasks⟩

/-- A run by the clock. -/
structure Timed (ρ : Type) extends Watch ρ where
  /-- Milliseconds since the beginning. -/
  now : Nat := 0
  /-- When each task has begun what it does. -/
  began : Nat → Nat := fun _ => 0

namespace Timed

def step (w : Timed ρ) (m : Move ρ) : Timed ρ where
  toWatch := w.toWatch.step m
  now := m.time w.now
  began id := if m.commences? w.batcher = some id then m.time w.now else w.began id

def after (w : Timed ρ) (moves : List (Move ρ)) : Timed ρ := moves.foldl step w

/-- Whether a task at a stage may still be waiting at a time. -/
def spares (w : Timed ρ) (id now : Nat) : Stage → Bool
  | .begun => now ≤ w.began id
  | .resting deadline => now ≤ deadline
  | .emitting _ _ _ => now < w.began id + w.batcher.slack
  | .called _ | .stopping _ | .expiring _ | .dropping _ => true

/-- Whether a task at a stage may have come to the end of its waiting at a time. -/
def suits (w : Timed ρ) (id now : Nat) (o : Outcome) : Stage → Bool
  | .begun => now ≤ w.began id
  | .resting deadline => now == deadline
  | .emitting _ _ _ => now ≤ w.began id + w.batcher.slack
  | .stopping loop => match o with
    | .expired => w.batcher.tasks.isLive loop && w.began id + w.batcher.patience ≤ now
    | .exited _ => !w.batcher.tasks.isLive loop
    | .done | .failed _ => true
  | .called _ | .expiring _ | .dropping _ => true

/-- Whether a task lets a move take place when it does. -/
def inTime (w : Timed ρ) (m : Move ρ) (id : Nat) (s : Stage) : Bool :=
  match m.answer? w.batcher id with
  | none => w.spares id (m.time w.now) s
  | some o => w.suits id (m.time w.now) o s

/-- Whether a move may take place next. -/
def allows (w : Timed ρ) (m : Move ρ) : Bool :=
  w.now ≤ m.time w.now && w.batcher.tasks.live.all fun t => t.cancelled || w.inTime m t.id t.stage

/-- Whether moves may take place one after the other. -/
def allowsAll (w : Timed ρ) : List (Move ρ) → Bool
  | [] => true
  | m :: moves => w.allows m && (w.step m).allowsAll moves

variable {w : Timed ρ} {m : Move ρ} {id : Nat} {s : Stage}

theorem inTime_of_none (h : m.answer? w.batcher id = none) : w.inTime m id s = w.spares id (m.time w.now) s := by
  rw [inTime, h]

theorem inTime_of_goesOn? {o : Outcome} {s' : Stage} (h : m.goesOn? w.batcher = some (id, s', o)) :
    w.inTime m id s = w.suits id (m.time w.now) o s := by
  rw [inTime, Move.answer?_of_goesOn? h]

theorem time_of_allows (h : w.allows m = true) : w.now ≤ m.time w.now := by
  exact of_decide_eq_true (Bool.and_eq_true_iff.1 h).1

theorem inTime_of_allows (h : w.allows m = true) (hs : w.batcher.tasks.stage? id = some s) : w.inTime m id s = true := by
  obtain ⟨t, ht, hc⟩ := Option.bind_eq_some_iff.1 hs
  have hall := (Bool.and_eq_true_iff.1 h).2
  have hlive := List.all_eq_true.1 hall t (Tasks.mem_of_find? ht)
  split at hc
  · cases hc
  · rename_i hn
    cases hc
    rw [Tasks.id_of_find? ht] at hlive
    simpa [hn] using hlive

/-- It is enough to look at the tasks that have not been told to give up. -/
theorem allows_of (hord : w.batcher.tasks.Ordered) (htime : w.now ≤ m.time w.now)
    (h : ∀ id s, w.batcher.tasks.stage? id = some s → w.inTime m id s = true) : w.allows m = true := by
  refine Bool.and_eq_true_iff.2 ⟨decide_eq_true htime, List.all_eq_true.2 fun t ht => ?_⟩
  cases hc : t.cancelled with
  | true => rfl
  | false =>
    refine h t.id t.stage ?_
    rw [Tasks.stage?, Tasks.find?_of_mem hord ht, Option.bind_some, hc]
    rfl

end Timed

/-! ## Punctuality -/

/-- No call waits to be taken up, no loop rests for longer than an interval, and a loop that flushes was due. -/
def Stage.Settled (interval now : Nat) : Stage → Prop
  | .called _ => False
  | .resting deadline => deadline ≤ now + interval
  | .emitting _ _ (.ofLoop deadline) => deadline ≤ now
  | .begun | .emitting _ _ .ofCaller | .stopping _ | .expiring _ | .dropping _ => True

theorem Stage.Settled.mono {interval now later : Nat} (hle : now ≤ later) :
    ∀ {s : Stage}, s.Settled interval now → s.Settled interval later
  | .called _, h => h
  | .resting _, h => Nat.le_trans h (Nat.add_le_add_right hle interval)
  | .emitting _ _ (.ofLoop _), h => Nat.le_trans h hle
  | .begun, h | .emitting _ _ .ofCaller, h | .stopping _, h | .expiring _, h | .dropping _, h => h

theorem Follows.settled {interval now : Nat} {running : Bool} {s s' : Stage} (h : Follows interval now running s s')
    (hdue : ∀ deadline, s.flush? = some (.ofLoop deadline) → deadline ≤ now) : s'.Settled interval now := by
  cases h with
  | first => exact Nat.le_refl _
  | again hf =>
    have hle := hdue _ hf
    show max _ _ ≤ now + interval
    omega
  | emits key rest hf =>
    rename_i f
    cases f with
    | ofCaller => trivial
    | ofLoop deadline => exact hdue deadline hf
  | stops loop => trivial

theorem Stage.settled_of_stops {interval now : Nat} {s : Stage} (h : s.stops = true) : s.Settled interval now := by
  cases s with
  | called c => cases h
  | begun => cases h
  | resting deadline => cases h
  | emitting key rest f => cases h
  | stopping loop => trivial
  | expiring loop => trivial
  | dropping loop => trivial

/-- What holds of a timely run. -/
structure Punctual (limit : Option Int) (w : Timed ρ) : Prop where
  sound : Sound limit w.history w.answered w.batcher
  began : ∀ id, w.began id ≤ w.now
  settled : ∀ id s, w.batcher.tasks.stage? id = some s → s.Settled w.batcher.interval w.now

/-- A new batcher, by the clock. -/
def timed (interval : Nat) (limit : Option Int) : Timed ρ where
  batcher := { interval := interval, batches := { limit := limit } }

theorem punctual_timed (interval : Nat) (limit : Option Int) : Punctual limit (timed interval limit : Timed ρ) where
  sound := sound_start interval limit
  began _ := Nat.le_refl 0
  settled := nofun

namespace Punctual

variable {limit : Option Int} {w : Timed ρ} {m : Move ρ}

/-- A task that goes on with a flush of the loop is not ahead of its deadline. -/
theorem due (h : Punctual limit w) (hm : w.allows m = true) {id : Nat} {s : Stage} {o : Outcome}
    (hgoes : m.goesOn? w.batcher = some (id, s, o)) (hst : w.batcher.tasks.stage? id = some s) {deadline : Nat}
    (hf : s.flush? = some (.ofLoop deadline)) : deadline ≤ m.time w.now := by
  have hin := Timed.inTime_of_goesOn? hgoes ▸ Timed.inTime_of_allows hm hst
  cases s with
  | resting deadline' =>
    cases hf
    exact Nat.le_of_eq (beq_iff_eq.1 hin).symm
  | emitting key rest f =>
    cases hf
    exact Nat.le_trans (h.settled id _ hst) (Timed.time_of_allows hm)
  | called c => exact (h.settled id _ hst).elim
  | begun => cases hf
  | stopping loop => cases hf
  | expiring loop => cases hf
  | dropping loop => cases hf

/-- A task that stands somewhere after a move has settled there. -/
theorem settled_step (h : Punctual limit w) (hm : w.allows m = true) {id : Nat} {s : Stage}
    (hs : (m.turn w.batcher).batcher.tasks.stage? id = some s) :
    s.Settled (m.turn w.batcher).batcher.interval (m.time w.now) := by
  have hold : ∀ i u, w.batcher.tasks.stage? i = some u → u.Settled w.batcher.interval (m.time w.now) :=
    fun i u hu => (h.settled i u hu).mono (Timed.time_of_allows hm)
  cases hstart : m.isStart with
  | true =>
    obtain ⟨now, rfl⟩ := Move.exists_start hstart
    obtain ⟨hinterval, htasks⟩ := start_tasks w.batcher now
    change (w.batcher.start now).batcher.tasks.stage? id = some s at hs
    show s.Settled (w.batcher.start now).batcher.interval now
    rw [hinterval]
    rcases htasks with htasks | htasks
    · exact hold id s (htasks ▸ hs)
    · rcases Tasks.stage?_of_spawn h.sound.ordered (htasks ▸ hs) with ⟨-, rfl⟩ | hs
      · trivial
      · exact hold id s hs
  | false =>
    cases Move.effect w.batcher hstart with
    | nothing hgoes hu =>
      rw [hu.interval]
      exact hold id s (hu.stage? id ▸ hs)
    | @resumes task turn now s' o hst hgoes hc =>
      rw [hc.interval]
      rcases hc.stage? hst hs with ⟨hs, -⟩ | ⟨-, hf | ⟨-, hstops⟩⟩
      · exact hold id s hs
      · exact hf.settled fun deadline hd => h.due hm hgoes hst hd
      · exact Stage.settled_of_stops hstops
    | @asks c now hc =>
      have hord := h.sound.ordered
      have hst : (w.batcher.tasks.spawn (.called c)).stage? w.batcher.tasks.next = some (.called c) := by
        rw [Tasks.stage?_spawn hord, if_pos rfl]
      rw [hc.interval]
      rcases hc.stage? hst hs with ⟨hs, hcalled⟩ | ⟨-, hf | ⟨-, hstops⟩⟩
      · rcases Tasks.stage?_of_spawn hord hs with ⟨hid, rfl⟩ | hs
        · exact absurd rfl (hcalled hid c)
        · exact hold id s hs
      · refine hf.settled fun deadline hd => ?_
        cases c <;> cases hd
      · exact Stage.settled_of_stops hstops

theorem step (h : Punctual limit w) (hm : w.allows m = true) : Punctual limit (w.step m) where
  sound := h.sound.step m
  began id := by
    show (if _ then m.time w.now else w.began id) ≤ m.time w.now
    split
    · exact Nat.le_refl _
    · exact Nat.le_trans (h.began id) (Timed.time_of_allows hm)
  settled _ _ hs := h.settled_step hm hs

theorem after {moves : List (Move ρ)} (h : Punctual limit w) (hm : w.allowsAll moves = true) :
    Punctual limit (w.after moves) := by
  induction moves generalizing w with
  | nil => exact h
  | cons m moves ih =>
    obtain ⟨hfirst, hrest⟩ := Bool.and_eq_true_iff.1 hm
    exact ih (h.step hfirst) hrest

end Punctual

end PoolFeed.Batcher
