import PoolFeed.Lookups.Turn
import PoolFeed.Proofs.Tasks

/-!
# The steps of a turn

One lemma for each step of a turn, for a start and for a job that is added: the lookups that it leaves, and what it says.
Which jobs the resolver is called for is read off the actions (`begunIn`).
-/

namespace PoolFeed.Lookups

namespace Stage

/-- The job of the task is being resolved. -/
def isResolving : Stage → Bool
  | .resolving _ => true
  | .called _ | .begun | .waiting | .woken | .stopping _ | .joining => false

def isWoken : Stage → Bool
  | .woken => true
  | .called _ | .begun | .waiting | .resolving _ | .stopping _ | .joining => false

/-- A worker that looks for the next job when it is resumed. -/
def isBusy : Stage → Bool
  | .begun | .woken | .resolving _ => true
  | .called _ | .waiting | .stopping _ | .joining => false

def isWorker : Stage → Bool
  | .begun | .waiting | .woken | .resolving _ => true
  | .called _ | .stopping _ | .joining => false

theorem isWorker_of_isBusy {s : Stage} (h : s.isBusy) : s.isWorker := by cases s <;> first | rfl | cases h

theorem waiting_or_isBusy {s : Stage} (h : s.isWorker) : s = .waiting ∨ s.isBusy := by
  cases s <;> first | exact .inl rfl | exact .inr rfl | cases h

theorem isBusy_of_isResolving {s : Stage} (h : s.isResolving) : s.isBusy := by cases s <;> first | rfl | cases h

theorem isBusy_of_isWoken {s : Stage} (h : s.isWoken) : s.isBusy := by cases s <;> first | rfl | cases h

theorem not_isResolving_of_isWoken {s : Stage} (h : s.isWoken) : s.isResolving = false := by
  cases s <;> first | rfl | cases h

theorem idle_of_not_isWorker {s : Stage} (h : s.isWorker = false) : s.isResolving = false ∧ s.isWoken = false := by
  cases s <;> first | exact ⟨rfl, rfl⟩ | cases h

end Stage

/-- The job that the resolver is called for. -/
def Action.job? : Action → Option LookupJob
  | .resolve _ _ job => some job
  | .log _ | .wake _ _ | .ended _ _ => none

/-- The jobs that the resolver is called for, in order. -/
def begunIn (actions : List Action) : List LookupJob := actions.filterMap Action.job?

@[simp] theorem begunIn_nil : begunIn [] = [] := rfl

@[simp] theorem begunIn_append (as bs : List Action) : begunIn (as ++ bs) = begunIn as ++ begunIn bs :=
  List.filterMap_append

@[simp] theorem begunIn_cons (a : Action) (as : List Action) : begunIn (a :: as) = a.job?.toList ++ begunIn as := by
  cases h : a.job? <;> simp [begunIn, h]

/-! ## Waking -/

/-- What it takes to wake some tasks. -/
def wakes (ts : Tasks Stage) (ids : List Nat) : List Action :=
  ids.filterMap fun id => (ts.find? id).map fun task => .wake id task.turn

theorem mem_wakes {ts : Tasks Stage} {ids : List Nat} {a : Action} :
    a ∈ wakes ts ids ↔ ∃ id ∈ ids, ∃ task, ts.find? id = some task ∧ a = .wake id task.turn := by
  simp only [wakes, List.mem_filterMap, Option.map_eq_some_iff, eq_comm (a := a)]

@[simp] theorem begunIn_wakes (ts : Tasks Stage) (ids : List Nat) : begunIn (wakes ts ids) = [] := by
  rw [begunIn, List.filterMap_eq_nil_iff]
  intro a ha
  obtain ⟨id, -, task, -, rfl⟩ := mem_wakes.1 ha
  rfl

/-- Only the turns of tasks matter to waking them. -/
theorem wakes_congr {ts ts' : Tasks Stage} (h : ∀ id, (ts'.find? id).map (·.turn) = (ts.find? id).map (·.turn))
    (ids : List Nat) : wakes ts' ids = wakes ts ids := by
  have hsame : ∀ id, (ts'.find? id).map (fun task => Action.wake id task.turn) =
      (ts.find? id).map fun task => Action.wake id task.turn := by
    intro id
    have hturn := congrArg (Option.map (Action.wake id)) (h id)
    simpa only [Option.map_map, Function.comp_def] using hturn
  simp only [wakes, hsame]

theorem stage_of_isJoining {task : Task Stage} (h : Turn.isJoining task) : task.stage = .joining := by
  rw [Turn.isJoining] at h
  split at h
  · assumption
  · cases h

/-- The tasks that wait until no job is left. -/
def joiners (ts : Tasks Stage) : List Nat := (ts.live.filter Turn.isJoining).map (·.id)

/-- The stops that have waited for a worker, and for no other that is still there. -/
def released (ts : Tasks Stage) (worker : Nat) : List Nat := (ts.live.filter (Turn.waitsFor ts worker)).map (·.id)

/-- What is said when a task ends. -/
def farewell (ts : Tasks Stage) (me : Nat) (e : Ending) : List Action :=
  .ended me e :: wakes (ts.erase me) (released (ts.erase me) me)

/-- A worker is taken from the line. -/
def rouse (ts : Tasks Stage) (id : Nat) : Tasks Stage := ts.modify id fun task => { task with stage := .woken }

theorem find?_rouse (ts : Tasks Stage) (id i : Nat) : (rouse ts id).find? i =
    if i = id then (ts.find? i).map fun task => { task with stage := .woken } else ts.find? i := by
  rw [rouse, Tasks.find?_modify]
  exact fun _ => rfl

theorem wakes_rouse (ts : Tasks Stage) (id : Nat) (ids : List Nat) : wakes (rouse ts id) ids = wakes ts ids := by
  refine wakes_congr (fun i => ?_) ids
  rw [find?_rouse]
  split
  · simp only [Option.map_map, Function.comp_def]
  · rfl

theorem wakes_cancel (ts : Tasks Stage) (id : Nat) (ids : List Nat) : wakes (ts.cancel id) ids = wakes ts ids := by
  refine wakes_congr (fun i => ?_) ids
  rw [Tasks.find?_cancel]
  split
  · simp only [Option.map_map, Function.comp_def]
  · rfl

/-- Tells some tasks to give up. -/
def cancelAll (ts : Tasks Stage) (ids : List Nat) : Tasks Stage := ids.foldl Tasks.cancel ts

theorem find?_cancelAll (id : Nat) : ∀ (ids : List Nat) (ts : Tasks Stage), (cancelAll ts ids).find? id =
    if id ∈ ids then (ts.find? id).map fun t => { t with cancelled := true } else ts.find? id
  | [], ts => by simp [cancelAll]
  | i :: ids, ts => by
    have ih := find?_cancelAll id ids (ts.cancel i)
    rw [Tasks.find?_cancel] at ih
    rw [cancelAll, List.foldl_cons, ← cancelAll, ih]
    by_cases hi : id = i
    · subst hi
      rw [if_pos rfl, if_pos List.mem_cons_self]
      split
      · rw [Option.map_map]
        rfl
      · rfl
    · simp only [hi, if_false, List.mem_cons, false_or]

theorem cancelAll_ordered {ts : Tasks Stage} (h : ts.Ordered) (ids : List Nat) : (cancelAll ts ids).Ordered := by
  induction ids generalizing ts with
  | nil => exact h
  | cons i ids ih => exact ih (h.cancel i)

theorem cancelAll_next (ids : List Nat) : ∀ ts : Tasks Stage, (cancelAll ts ids).next = ts.next := by
  induction ids with
  | nil => exact fun _ => rfl
  | cons i ids ih => exact fun ts => ih (ts.cancel i)

theorem cancelAll_countAt {p : Stage → Bool} (ids : List Nat) :
    ∀ ts : Tasks Stage, (cancelAll ts ids).countAt p = ts.countAt p := by
  induction ids with
  | nil => exact fun _ => rfl
  | cons i ids ih => exact fun ts => (ih (ts.cancel i)).trans (Tasks.countAt_cancel? (some i))

namespace Turn

variable {t : Turn} {me : Nat}

/-! ## The steps of a turn -/

theorem wake_eq (t : Turn) (id : Nat) : t.wake id = ⟨t.lookups, t.actions ++ wakes t.lookups.tasks [id]⟩ := by
  unfold wake
  cases h : t.lookups.tasks.find? id <;> simp [wakes, act, h]

theorem foldl_wake (ids : List Nat) : ∀ t : Turn,
    ids.foldl wake t = ⟨t.lookups, t.actions ++ wakes t.lookups.tasks ids⟩ := by
  induction ids with
  | nil => intro t; simp [wakes]
  | cons id ids ih =>
    intro t
    rw [List.foldl_cons, ih, wake_eq]
    simp only [List.append_assoc, wakes, ← List.filterMap_append, List.singleton_append]

theorem foldl_log (es : List Log.Entry) : ∀ t : Turn, es.foldl log t = ⟨t.lookups, t.actions ++ es.map .log⟩ := by
  induction es with
  | nil => intro t; simp
  | cons e es ih =>
    intro t
    rw [List.foldl_cons, ih]
    simp [log, act]

theorem finish_eq (t : Turn) (me : Nat) (e : Ending) : t.finish me e =
    ⟨{ t.lookups with tasks := t.lookups.tasks.erase me }, t.actions ++ farewell t.lookups.tasks me e⟩ := by
  rw [finish, ← List.foldl_map (f := fun s : Task Stage => s.id) (g := wake), foldl_wake]
  simp [change, act, released, farewell]

theorem jobOver_eq (t : Turn) : t.jobOver = ⟨{ t.lookups with unfinished := t.lookups.unfinished - 1 },
    t.actions ++ if t.lookups.unfinished - 1 = 0 then wakes t.lookups.tasks (joiners t.lookups.tasks) else []⟩ := by
  show (if t.lookups.unfinished - 1 = 0 then _ else _) = _
  by_cases h : t.lookups.unfinished - 1 = 0
  · rw [if_pos h, if_pos h, ← List.foldl_map (f := fun s : Task Stage => s.id) (g := wake), foldl_wake]
    rfl
  · rw [if_neg h, if_neg h, List.append_nil]
    rfl

theorem cancelWorker_eq (t : Turn) (id : Nat) : t.cancelWorker id =
    ⟨{ t.lookups with tasks := t.lookups.tasks.cancel id, line := t.lookups.line.filter (· != id) },
      t.actions ++ wakes t.lookups.tasks [id]⟩ := by
  rw [cancelWorker, wake_eq]
  simp only [change, wakes_cancel]

theorem foldl_cancelWorker (ids : List Nat) : ∀ t : Turn, ids.foldl cancelWorker t =
    ⟨{ t.lookups with tasks := cancelAll t.lookups.tasks ids, line := t.lookups.line.filter (· ∉ ids) },
      t.actions ++ wakes t.lookups.tasks ids⟩ := by
  induction ids with
  | nil =>
    intro t
    have hline : t.lookups.line.filter (· ∉ ([] : List Nat)) = t.lookups.line := List.filter_eq_self.2 (by simp)
    rw [hline]
    simp [cancelAll, wakes]
  | cons id ids ih =>
    intro t
    rw [List.foldl_cons, ih, cancelWorker_eq]
    simp only [wakes_cancel, List.filter_filter, List.append_assoc]
    have hline : (fun i => decide (i ∉ ids) && i != id) = fun i => decide (i ∉ id :: ids) := by
      funext i
      by_cases hi : i = id <;> simp [hi]
    rw [hline]
    simp only [cancelAll, List.foldl_cons, wakes, ← List.filterMap_append, List.singleton_append]

theorem callNext_cons {id : Nat} {rest : List Nat} (h : t.lookups.line = id :: rest) : t.callNext =
    ⟨{ t.lookups with line := rest, tasks := rouse t.lookups.tasks id }, t.actions ++ wakes t.lookups.tasks [id]⟩ := by
  rw [callNext, h]
  simp only [wake_eq, change]
  rw [← wakes_rouse t.lookups.tasks id]
  rfl

theorem callNext_nil (h : t.lookups.line = []) : t.callNext = t := by rw [callNext, h]

theorem next_takes {job : LookupJob} {rest : List LookupJob} (hq : t.lookups.queue = job :: rest)
    (hr : t.lookups.resolves = true) : t.next me =
      ⟨{ t.lookups with queue := rest, tasks := t.lookups.tasks.advance me (.resolving job) },
        t.actions ++ [.resolve me (t.lookups.tasks.nextTurn me) job]⟩ := by
  rw [next, hq, takeJob]
  simp [change, hr, park, act]

/-- Some actions are lines of the log, or wake those who wait until no job is left when that many are. -/
def Murmurs (ts : Tasks Stage) (left : Nat) (actions : List Action) : Prop :=
  ∀ a ∈ actions, (∃ e, a = .log e) ∨ (left = 0 ∧ a ∈ wakes ts (joiners ts))

theorem Murmurs.append {ts : Tasks Stage} {left : Nat} {as bs : List Action} (h : Murmurs ts left as)
    (h' : Murmurs ts left bs) : Murmurs ts left (as ++ bs) := fun a ha => (List.mem_append.1 ha).elim (h a) (h' a)

theorem Murmurs.sub {ts : Tasks Stage} {left : Nat} {as : List Action} (h : Murmurs ts left as) (n : Nat) :
    Murmurs ts (left - n) as := fun a ha => (h a ha).imp_right fun ⟨hleft, hwake⟩ => ⟨by omega, hwake⟩

theorem Murmurs.begunIn {ts : Tasks Stage} {left : Nat} {as : List Action} (h : Murmurs ts left as) :
    begunIn as = [] := by
  rw [Lookups.begunIn, List.filterMap_eq_nil_iff]
  intro a ha
  obtain ⟨e, rfl⟩ | ⟨-, hwake⟩ := h a ha
  · rfl
  · obtain ⟨id, -, task, -, rfl⟩ := mem_wakes.1 hwake
    rfl

theorem murmurs_jobOver (ts : Tasks Stage) (left : Nat) :
    Murmurs ts left (if left = 0 then wakes ts (joiners ts) else []) := by
  intro a ha
  split at ha
  · exact .inr ⟨‹_›, ha⟩
  · cases ha

/-- What is said when a job is discarded and some are left. -/
def discarding (ts : Tasks Stage) (job : LookupJob) (left : Nat) : List Action :=
  .log (Log.debug s!"Discarding metadata job for mint {job.mint}" [.pool job.pool]) ::
    if left = 0 then wakes ts (joiners ts) else []

theorem murmurs_discarding (ts : Tasks Stage) (job : LookupJob) (left : Nat) :
    Murmurs ts left (discarding ts job left) := by
  intro a ha
  rcases List.mem_cons.1 ha with rfl | ha
  · exact .inl ⟨_, rfl⟩
  · exact murmurs_jobOver ts left a ha

/-- Without a resolver the jobs are discarded, one after the other. -/
theorem takeJob_discards (me : Nat) (jobs : List LookupJob) : ∀ t : Turn, (t.lookups.resolves = true → jobs = []) →
    ∃ acts, Murmurs t.lookups.tasks (t.lookups.unfinished - jobs.length) acts ∧ t.takeJob me jobs =
      ⟨{ t.lookups with queue := [], line := t.lookups.line ++ [me], unfinished := t.lookups.unfinished - jobs.length,
                        tasks := t.lookups.tasks.advance me .waiting }, t.actions ++ acts⟩ := by
  induction jobs with
  | nil => exact fun t _ => ⟨[], nofun, by simp [takeJob, change, park]⟩
  | cons job rest ih =>
    intro t hr
    have hno : t.lookups.resolves = false := Bool.eq_false_iff.2 fun h => by cases hr h
    have hstep : t.takeJob me (job :: rest) = Turn.takeJob
        ⟨{ t.lookups with queue := rest, unfinished := t.lookups.unfinished - 1 },
          t.actions ++ discarding t.lookups.tasks job (t.lookups.unfinished - 1)⟩ me rest := by
      rw [takeJob]
      simp only [change, hno, Bool.false_eq_true, if_false, jobOver_eq, log, act, List.append_assoc, discarding,
        List.singleton_append]
    obtain ⟨acts, hacts, heq⟩ := ih ⟨{ t.lookups with queue := rest, unfinished := t.lookups.unfinished - 1 },
      t.actions ++ discarding t.lookups.tasks job (t.lookups.unfinished - 1)⟩ fun h => absurd (hno.symm.trans h) nofun
    have hleft : t.lookups.unfinished - 1 - rest.length = t.lookups.unfinished - (job :: rest).length := by
      rw [List.length_cons]
      omega
    rw [hstep, heq]
    simp only [hleft, List.append_assoc] at hacts ⊢
    refine ⟨_, Murmurs.append ?_ hacts, rfl⟩
    rw [← hleft]
    exact (murmurs_discarding _ job _).sub rest.length

end Turn

/-! ## Starting -/

/-- Some workers are created. -/
def hired (ts : Tasks Stage) : Nat → Tasks Stage
  | 0 => ts
  | n + 1 => hired (ts.spawn .begun) n

theorem hired_ordered (n : Nat) : ∀ {ts : Tasks Stage}, ts.Ordered → (hired ts n).Ordered := by
  induction n with
  | zero => exact id
  | succ n ih => exact fun h => ih (h.spawn .begun)

theorem hired_next (n : Nat) : ∀ ts : Tasks Stage, (hired ts n).next = ts.next + n := by
  induction n with
  | zero => exact fun _ => rfl
  | succ n ih =>
    intro ts
    rw [hired, ih]
    show ts.next + 1 + n = ts.next + (n + 1)
    omega

theorem hired_countAt {p : Stage → Bool} (hp : p .begun = false) (n : Nat) :
    ∀ ts : Tasks Stage, (hired ts n).countAt p = ts.countAt p := by
  induction n with
  | zero => exact fun _ => rfl
  | succ n ih => exact fun ts => (ih _).trans (Tasks.countAt_spawn hp)

theorem find?_hired (i : Nat) (n : Nat) : ∀ {ts : Tasks Stage}, ts.Ordered → (hired ts n).find? i =
    if ts.next ≤ i ∧ i < ts.next + n then some { id := i, stage := .begun } else ts.find? i := by
  induction n with
  | zero => intro ts _; rw [hired, if_neg (by omega)]
  | succ n ih =>
    intro ts h
    rw [hired, ih (h.spawn .begun), Tasks.find?_spawn h]
    show (if ts.next + 1 ≤ i ∧ i < ts.next + 1 + n then _ else _) = _
    by_cases hi : i = ts.next
    · rw [if_neg (by omega), if_pos hi, if_pos (by omega), hi]
    · rw [if_neg hi]
      by_cases hnew : ts.next + 1 ≤ i ∧ i < ts.next + 1 + n
      · rw [if_pos hnew, if_pos (by omega)]
      · rw [if_neg hnew, if_neg (by omega)]

theorem foldl_hire (n : Nat) : ∀ t : Turn, t.lookups.tasks.Ordered →
    (List.replicate n ()).foldl (fun t _ => t.hire) t =
      ⟨{ t.lookups with tasks := hired t.lookups.tasks n,
                        workers := t.lookups.workers ++ List.range' t.lookups.tasks.next n },
        t.actions ++ (List.range' t.lookups.tasks.next n).map fun id => .wake id 0⟩ := by
  induction n with
  | zero => intro t _; simp [hired]
  | succ n ih =>
    intro t h
    have hhire : t.hire =
        ⟨{ t.lookups with tasks := t.lookups.tasks.spawn .begun, workers := t.lookups.workers ++ [t.lookups.tasks.next] },
          t.actions ++ [.wake t.lookups.tasks.next 0]⟩ := by
      simp only [Turn.hire, Turn.change, Turn.wake_eq, wakes, List.filterMap_cons, List.filterMap_nil,
        Tasks.find?_spawn h, if_true, Option.map_some]
    rw [List.replicate_succ, List.foldl_cons, hhire, ih _ (h.spawn .begun)]
    simp only [hired, List.range'_succ, List.map_cons, List.append_assoc, List.singleton_append]
    rfl

/-- The lookups when the workers have been created. -/
def launched (l : Lookups) (now : Nat) : Lookups :=
  { l with component := (l.component.start now).1, workers := List.range' l.tasks.next l.workerCount,
           tasks := hired l.tasks l.workerCount }

theorem launched_started (l : Lookups) (now : Nat) : (l.launched now).component.isStarted = true :=
  Component.isStarted_start l.component now

/-- Every task is a new worker or was there before. -/
theorem find?_launched {l : Lookups} (h : l.tasks.Ordered) (now : Nat) {id : Nat} {task : Task Stage}
    (ht : (l.launched now).tasks.find? id = some task) :
    (l.tasks.next ≤ id ∧ id < l.tasks.next + l.workerCount ∧ task = { id := id, stage := .begun }) ∨
      l.tasks.find? id = some task := by
  have hfind : (hired l.tasks l.workerCount).find? id = some task := ht
  rw [find?_hired id _ h] at hfind
  split at hfind
  · rename_i hrange
    exact .inl ⟨hrange.1, hrange.2, (Option.some.inj hfind).symm⟩
  · exact .inr hfind

theorem start_eq {l : Lookups} (h : l.tasks.Ordered) (hs : l.component.isStarted = false) (now : Nat) :
    ∃ entries : List Log.Entry, l.start now = ⟨launched l now,
      entries.map .log ++ (List.range' l.tasks.next l.workerCount).map fun id => .wake id 0⟩ := by
  rw [start, if_neg (Bool.eq_false_iff.1 hs)]
  simp only [Turn.foldl_log]
  split
  · rw [foldl_hire]
    · exact ⟨_, rfl⟩
    · exact h
  · rw [foldl_hire]
    · refine ⟨(l.component.start now).2 ++ [Log.warning "No metadata resolver configured; jobs will be discarded"], ?_⟩
      rw [List.map_append, List.map_singleton]
      rfl
    · exact h

theorem start_of_started {l : Lookups} (hs : l.component.isStarted = true) (now : Nat) : l.start now = ⟨l, []⟩ := if_pos hs

/-! ## Adding -/

/-- The lookups with one job more. -/
def added (l : Lookups) (job : LookupJob) : Lookups :=
  { l with queue := l.queue ++ [job], unfinished := l.unfinished + 1, enqueued := l.enqueued + 1 }

theorem enqueue_of_isFull {l : Lookups} (h : l.isFull) (job : LookupJob) :
    (l.enqueue job).1 = false ∧ (l.enqueue job).2.lookups = { l with dropped := l.dropped + 1 } ∧
      ∃ e, (l.enqueue job).2.actions = [.log e] := by
  rw [enqueue, if_pos h]
  exact ⟨rfl, rfl, _, rfl⟩

theorem enqueue_of_line_nil {l : Lookups} (h : l.isFull = false) (hline : l.line = []) (job : LookupJob) :
    l.enqueue job = (true, ⟨added l job, []⟩) := by
  rw [enqueue, if_neg (Bool.eq_false_iff.1 h)]
  exact congrArg (Prod.mk true) (Turn.callNext_nil hline)

theorem enqueue_of_line_cons {l : Lookups} (h : l.isFull = false) {id : Nat} {rest : List Nat}
    (hline : l.line = id :: rest) (job : LookupJob) : l.enqueue job =
      (true, ⟨{ added l job with line := rest, tasks := rouse l.tasks id }, wakes l.tasks [id]⟩) := by
  rw [enqueue, if_neg (Bool.eq_false_iff.1 h)]
  exact congrArg (Prod.mk true) (Turn.callNext_cons hline)

/-- A job is accepted, and nobody begins it at once. -/
theorem enqueue_of_not_isFull {l : Lookups} (h : l.isFull = false) (job : LookupJob) : ∃ line tasks acts,
    l.enqueue job = (true, ⟨{ added l job with line := line, tasks := tasks }, acts⟩) ∧ begunIn acts = [] := by
  cases hline : l.line with
  | nil => exact ⟨_, _, _, enqueue_of_line_nil h hline job, rfl⟩
  | cons id rest => exact ⟨_, _, _, enqueue_of_line_cons h hline job, begunIn_wakes _ _⟩

end PoolFeed.Lookups
