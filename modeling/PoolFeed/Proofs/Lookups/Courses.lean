import PoolFeed.Proofs.Lookups.Turns

/-!
# What a turn can come to

A task that goes on takes its course (`goOn_course`): a worker takes a job or gets into the line, a caller has its answer or
waits for it. A task that gives up leaves (`giveUp_leaves`): a job is cut short, or a call is passed on.
-/

namespace PoolFeed.Lookups

/-! ## Going on -/

/-- The lookups when a worker is done with a stage: a job that was under way is over. -/
def credited (l : Lookups) : Stage → Outcome → Lookups
  | .resolving _, .done => { l with completed := l.completed + 1, unfinished := l.unfinished - 1 }
  | .resolving _, .failed _ => { l with failed := l.failed + 1, unfinished := l.unfinished - 1 }
  | _, _ => l

/-- Jobs that are over are completed or failed. -/
theorem credited_eq (l : Lookups) (s : Stage) (o : Outcome) : ∃ completed failed, credited l s o =
    { l with completed := completed, failed := failed, unfinished := l.unfinished - s.isResolving.toNat } ∧
      completed + failed = l.completed + l.failed + s.isResolving.toNat := by
  cases s with
  | called | begun | waiting | woken | stopping | joining => exact ⟨l.completed, l.failed, by cases o <;> rfl, rfl⟩
  | resolving job =>
    cases o with
    | done =>
      refine ⟨l.completed + 1, l.failed, rfl, ?_⟩
      show l.completed + 1 + l.failed = l.completed + l.failed + 1
      omega
    | failed => exact ⟨l.completed, l.failed + 1, rfl, rfl⟩

/-- The workers that a stop has to wait for. -/
def doomed (l : Lookups) : List Nat := l.workers.filter l.tasks.isLive

/-- The lookups when a stop has told the workers to give up. -/
def halted (l : Lookups) (me : Nat) : Lookups :=
  { l with tasks := (cancelAll l.tasks (doomed l)).advance me (.stopping l.workers), line := l.line.filter (· ∉ doomed l) }

/-- The lookups when a stop is over. -/
def rested (l : Lookups) (me : Nat) : Lookups :=
  { l with workers := [], component := l.component.stop.1, tasks := l.tasks.erase me }

/-- What the turn of a task that goes on from a stage can come to. -/
inductive Course (l : Lookups) (me : Nat) (s : Stage) (o : Outcome) : Turn → Prop
  /-- A worker takes the next job. -/
  | takes {acts : List Action} (job : LookupJob) (rest : List LookupJob) : s.isBusy → l.queue = job :: rest →
    l.resolves = true → Turn.Murmurs l.tasks (credited l s o).unfinished acts →
    Course l me s o ⟨{ credited l s o with queue := rest, tasks := l.tasks.advance me (.resolving job) },
      acts ++ [.resolve me (l.tasks.nextTurn me) job]⟩
  /-- A worker finds nothing, or discards all there is, and gets into the line. -/
  | rests {acts : List Action} : s.isBusy → (l.resolves = true → l.queue = []) →
    Turn.Murmurs l.tasks ((credited l s o).unfinished - l.queue.length) acts →
    Course l me s o ⟨{ credited l s o with
      queue := [], line := l.line ++ [me], unfinished := (credited l s o).unfinished - l.queue.length,
      tasks := l.tasks.advance me .waiting }, acts⟩
  /-- A worker in the line is not to be resumed. -/
  | waits : s = .waiting → Course l me s o ⟨l, []⟩
  /-- A caller has what it has asked for. -/
  | ends : s = .joining ∨ (s = .called .join ∧ l.unfinished = 0) ∨ (s = .called .stop ∧ l.component.isStarted = false) →
    Course l me s o ⟨{ l with tasks := l.tasks.erase me }, farewell l.tasks me .finished⟩
  | joins : s = .called .join → l.unfinished ≠ 0 →
    Course l me s o ⟨{ l with tasks := l.tasks.advance me .joining }, []⟩
  /-- A stop tells the workers to give up. -/
  | stops : s = .called .stop → l.component.isStarted = true → l.workers ≠ [] →
    Course l me s o ⟨halted l me, wakes l.tasks (doomed l) ++
      if l.workers.any (halted l me).tasks.isLive then [] else wakes (halted l me).tasks [me]⟩
  /-- A stop is over. -/
  | stopped (entries : List Log.Entry) :
    (∃ ws, s = .stopping ws) ∨ (s = .called .stop ∧ l.component.isStarted = true ∧ l.workers = []) →
    Course l me s o ⟨rested l me, entries.map .log ++ farewell l.tasks me .finished⟩

theorem next_course {l : Lookups} {me : Nat} {s : Stage} {o : Outcome} {acts : List Action} (hs : s.isBusy)
    (hacts : Turn.Murmurs l.tasks (credited l s o).unfinished acts) :
    Course l me s o (Turn.next ⟨credited l s o, acts⟩ me) := by
  obtain ⟨completed, failed, hcredited, -⟩ := credited_eq l s o
  have hqueue : (credited l s o).queue = l.queue := by rw [hcredited]
  have hline : (credited l s o).line = l.line := by rw [hcredited]
  have htasks : (credited l s o).tasks = l.tasks := by rw [hcredited]
  have hresolves : (credited l s o).resolves = l.resolves := by rw [hcredited]
  by_cases hdry : l.resolves = true → l.queue = []
  · obtain ⟨more, hmore, heq⟩ := Turn.takeJob_discards me (credited l s o).queue ⟨credited l s o, acts⟩ (by
      rw [hresolves, hqueue]
      exact hdry)
    rw [Turn.next, heq]
    simp only [hqueue, hline, htasks] at hmore ⊢
    exact .rests hs hdry ((hacts.sub _).append hmore)
  · obtain ⟨hr, hq⟩ := Classical.not_imp.1 hdry
    obtain ⟨job, rest, hjob⟩ := List.exists_cons_of_ne_nil hq
    rw [Turn.next_takes (hqueue.trans hjob) (hresolves.trans hr)]
    simp only [htasks]
    exact .takes job rest hs hjob hr hacts

theorem stopped_course {l : Lookups} {me : Nat} {s : Stage} {o : Outcome}
    (hs : (∃ ws, s = .stopping ws) ∨ (s = .called .stop ∧ l.component.isStarted = true ∧ l.workers = [])) :
    Course l me s o (Turn.stopped ⟨l, []⟩ me) := by
  simp only [Turn.stopped, Turn.change, Turn.foldl_log, Turn.finish_eq, List.nil_append]
  exact .stopped l.component.stop.2 hs

theorem stop_course (l : Lookups) (me : Nat) (o : Outcome) : Course l me (.called .stop) o (Turn.stop ⟨l, []⟩ me) := by
  cases hstarted : l.component.isStarted with
  | false =>
    simp only [Turn.stop, hstarted, Bool.false_eq_true, if_false, Turn.finish_eq, List.nil_append]
    exact .ends (.inr (.inr ⟨rfl, hstarted⟩))
  | true =>
    simp only [Turn.stop, hstarted, if_true]
    cases hworkers : l.workers with
    | nil => exact stopped_course (.inr ⟨rfl, hstarted, hworkers⟩)
    | cons w ws =>
      have hcourse := @Course.stops l me _ o rfl hstarted (hworkers ▸ List.cons_ne_nil w ws)
      rw [← hworkers]
      simp only [hworkers, List.isEmpty_cons, Bool.false_eq_true, if_false, Turn.foldl_cancelWorker, Turn.park, Turn.change,
        Turn.wake_eq, List.nil_append, halted, doomed] at hcourse ⊢
      split at hcourse <;> rename_i hany
      · simpa only [hany, if_true, List.append_nil] using hcourse
      · simpa only [hany, if_false, Bool.false_eq_true] using hcourse

/-- **A turn takes its course**: a worker takes a job or gets into the line, a caller has its answer or waits for it, and
all else stays as it is. -/
theorem goOn_course (l : Lookups) (me : Nat) (s : Stage) (o : Outcome) :
    Course l me s o (Turn.goOn ⟨l, []⟩ me s o) := by
  match s, o with
  | .called .stop, o => exact stop_course l me o
  | .called .join, o =>
    by_cases h : l.unfinished = 0
    · rw [Turn.goOn, Turn.join, if_pos h, Turn.finish_eq, List.nil_append]
      exact .ends (.inr (.inl ⟨rfl, h⟩))
    · rw [Turn.goOn, Turn.join, if_neg h]
      exact .joins rfl h
  | .begun, o => exact next_course rfl nofun
  | .woken, o => exact next_course rfl nofun
  | .resolving job, .done =>
    rw [Turn.goOn, Turn.jobOver_eq]
    exact next_course rfl (Turn.murmurs_jobOver l.tasks _)
  | .resolving job, .failed reason =>
    rw [Turn.goOn]
    simp only [Turn.jobOver_eq, Turn.change, Turn.log, Turn.act, List.nil_append, List.singleton_append]
    refine next_course (s := .resolving job) (o := .failed reason) rfl fun a ha => ?_
    rcases List.mem_cons.1 ha with rfl | ha
    · exact .inl ⟨_, rfl⟩
    · exact Turn.murmurs_jobOver l.tasks _ a ha
  | .stopping ws, o => exact stopped_course (.inl ⟨ws, rfl⟩)
  | .joining, o =>
    rw [Turn.goOn, Turn.finish_eq, List.nil_append]
    exact .ends (.inl rfl)
  | .waiting, o => exact .waits rfl

/-! ## The courses of one stage -/

namespace Course

variable {l : Lookups} {me : Nat} {s : Stage} {o : Outcome} {t : Turn}

/-- A worker that looks for a job takes the next one, or leaves none and gets into the line. -/
theorem of_isBusy (h : Course l me s o t) (hs : s.isBusy) :
    (∃ job, l.queue = job :: t.lookups.queue ∧ t.lookups.tasks = l.tasks.advance me (.resolving job)) ∨
      (t.lookups.queue = [] ∧ t.lookups.tasks = l.tasks.advance me .waiting) := by
  cases h with
  | takes job rest _ hq _ _ => exact .inl ⟨job, hq, rfl⟩
  | rests _ _ _ => exact .inr ⟨rfl, rfl⟩
  | waits hidle | joins hidle _ | stops hidle _ _ => rw [hidle] at hs; cases hs
  | ends hidle => obtain hidle | ⟨hidle, -⟩ | ⟨hidle, -⟩ := hidle <;> rw [hidle] at hs <;> cases hs
  | stopped _ hidle => obtain ⟨ws, hidle⟩ | ⟨hidle, -⟩ := hidle <;> rw [hidle] at hs <;> cases hs

theorem of_waiting (h : Course l me .waiting o t) : t = ⟨l, []⟩ := by
  cases h with
  | waits => rfl
  | takes _ _ hs | rests hs | joins hs | stops hs => cases hs
  | ends hs => obtain hs | ⟨hs, -⟩ | ⟨hs, -⟩ := hs <;> cases hs
  | stopped _ hs => obtain ⟨ws, hs⟩ | ⟨hs, -⟩ := hs <;> cases hs

/-- A stop tells the workers to give up, or is over at once. -/
theorem of_stop (h : Course l me (.called .stop) o t) :
    (l.component.isStarted = false ∧ t.lookups = { l with tasks := l.tasks.erase me }) ∨
      (l.component.isStarted = true ∧ l.workers ≠ [] ∧ t.lookups = l.halted me) ∨
      (l.component.isStarted = true ∧ l.workers = [] ∧ t.lookups = l.rested me) := by
  cases h with
  | takes _ _ hs | rests hs | waits hs | joins hs => cases hs
  | ends hs =>
    obtain hs | ⟨hs, -⟩ | ⟨-, hstopped⟩ := hs
    · cases hs
    · cases hs
    · exact .inl ⟨hstopped, rfl⟩
  | stops _ hstarted hworkers => exact .inr (.inl ⟨hstarted, hworkers, rfl⟩)
  | stopped _ hs =>
    obtain ⟨ws, hs⟩ | ⟨-, hstarted, hworkers⟩ := hs
    · cases hs
    · exact .inr (.inr ⟨hstarted, hworkers, rfl⟩)

/-- Whoever asks to be told when all jobs are done is told at once, or waits. -/
theorem of_join (h : Course l me (.called .join) o t) :
    (l.unfinished = 0 ∧ t.lookups = { l with tasks := l.tasks.erase me }) ∨
      t = ⟨{ l with tasks := l.tasks.advance me .joining }, []⟩ := by
  cases h with
  | takes _ _ hs | rests hs | waits hs | stops hs => cases hs
  | ends hs =>
    obtain hs | ⟨-, hzero⟩ | ⟨hs, -⟩ := hs
    · cases hs
    · exact .inl ⟨hzero, rfl⟩
    · cases hs
  | joins => exact .inr rfl
  | stopped _ hs => obtain ⟨ws, hs⟩ | ⟨hs, -⟩ := hs <;> cases hs

/-- A stop that goes on is over. -/
theorem of_stopping {ws : List Nat} (h : Course l me (.stopping ws) o t) : t.lookups = l.rested me := by
  cases h with
  | takes _ _ hs | rests hs | waits hs | joins hs | stops hs => cases hs
  | ends hs => obtain hs | ⟨hs, -⟩ | ⟨hs, -⟩ := hs <;> cases hs
  | stopped => rfl

end Course

/-! ## Giving up -/

/-- What the turn of a task that gives up at a stage can come to. -/
inductive Leaves (l : Lookups) (me : Nat) (s : Stage) : Turn → Prop
  /-- A job is cut short. -/
  | breaks {acts : List Action} : s.isResolving → Turn.Murmurs l.tasks (l.unfinished - 1) acts →
    Leaves l me s ⟨{ l with unfinished := l.unfinished - 1, tasks := l.tasks.erase me },
      acts ++ farewell l.tasks me .cancelled⟩
  /-- A worker that was called for a job passes the call on to the next in the line. -/
  | passes (id : Nat) (rest : List Nat) : s.isWoken → l.line = id :: rest →
    Leaves l me s ⟨{ l with line := rest, tasks := (rouse l.tasks id).erase me },
      wakes l.tasks [id] ++ farewell (rouse l.tasks id) me .cancelled⟩
  | goes : s.isResolving = false → (s.isWoken → l.queue = [] ∨ l.line = []) →
    Leaves l me s ⟨{ l with tasks := l.tasks.erase me }, farewell l.tasks me .cancelled⟩

theorem giveUp_leaves (l : Lookups) (me : Nat) (s : Stage) : Leaves l me s (Turn.giveUp ⟨l, []⟩ me s) := by
  have hgoes : s.isResolving = false → (s.isWoken → l.queue = [] ∨ l.line = []) →
      Leaves l me s (Turn.finish ⟨l, []⟩ me .cancelled) := fun hr hw => by
    rw [Turn.finish_eq, List.nil_append]
    exact .goes hr hw
  cases s with
  | called | begun | waiting | stopping | joining => exact hgoes rfl nofun
  | resolving job =>
    simp only [Turn.giveUp, Turn.jobOver_eq, Turn.finish_eq, List.nil_append]
    exact .breaks rfl (Turn.murmurs_jobOver l.tasks _)
  | woken =>
    rw [Turn.giveUp]
    cases hq : l.queue with
    | nil => exact hgoes rfl fun _ => .inl hq
    | cons job jobs =>
      cases hline : l.line with
      | nil =>
        simp only [List.isEmpty_cons, Bool.false_eq_true, if_false]
        rw [Turn.callNext_nil hline]
        exact hgoes rfl fun _ => .inr hline
      | cons id rest =>
        simp only [List.isEmpty_cons, Bool.false_eq_true, if_false]
        rw [Turn.callNext_cons hline]
        simp only [Turn.finish_eq, List.nil_append]
        exact .passes id rest rfl hline

end PoolFeed.Lookups
