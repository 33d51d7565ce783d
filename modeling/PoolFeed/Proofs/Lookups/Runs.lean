import PoolFeed.Proofs.Lookups.Holding

/-!
# Runs of the lookups

| here | there |
| --- | --- |
| `Plan` | `MetadataQueue(resolver, workers, queue_size)` with room for a job and a worker at least |
| `Move` | a call of `MetadataQueue.enqueue`, `start`, `stop` or `join`, or the end of what they and `_worker` await |
| `crossed` | whether a `start` has taken effect while a `stop` was in its `gather` |

A run is a list of moves: jobs are added, the lookups are started, callers ask to stop or to be told when all jobs are
done, and tasks are resumed, in any order. A task is resumed only if it has been woken, or if the resolver was called for
it. A watch keeps what the lookups themselves forget: which jobs were accepted and all that turns have said. In every run
the jobs that the resolver was called for, followed by those that wait, are the accepted ones (`after_sound`).
-/

namespace PoolFeed.Lookups

/-- Settings for lookups with room for a job and a worker at least. -/
structure Plan where
  workers : Nat
  capacity : Int
  resolves : Bool
  workers_pos : 1 ≤ workers
  capacity_pos : 1 ≤ capacity

/-- What can happen next. -/
inductive Move where
  | enqueue (job : LookupJob)
  | start (now : Nat)
  | ask (c : Call)
  | resume (task turn : Nat) (o : Outcome)
  /-- Someone who waits until no job is left gives up. -/
  | giveUp (task : Nat)

/-- The task and the turn at which it may be resumed. -/
def Action.subject? : Action → Option (Nat × Nat)
  | .wake task turn | .resolve task turn _ => some (task, turn)
  | .log _ | .ended _ _ => none

def Stage.isStopping : Stage → Bool
  | .stopping _ => true
  | .called _ | .begun | .waiting | .woken | .resolving _ | .joining => false

/-- The lookups, with all that has happened. -/
structure Watch where
  lookups : Lookups
  heard : List Action := []
  accepted : List LookupJob := []
  /-- Calls of the resolver that were cut short. -/
  cut : Nat := 0
  /-- Starts that have taken effect. -/
  starts : Nat := 0
  /-- Whether one of them came while a stop was still waiting for workers. -/
  crossed : Bool := false

/-- The lookups that a plan asks for, before anything has happened. -/
def Plan.watch (p : Plan) : Watch where
  lookups := { workerCount := p.workers, capacity := p.capacity, resolves := p.resolves }

/-- Whether a resumed task gives up while its job is being resolved. -/
def cutsShort (l : Lookups) (id turn : Nat) : Bool :=
  (l.tasks.find? id).any fun task => task.turn == turn && task.cancelled && task.stage.isResolving

/-- Whether a task waits until no job is left. -/
def joins (l : Lookups) (id : Nat) : Bool := (l.tasks.find? id).any Turn.isJoining

/-- Whether a stop waits for workers to end. -/
def isStopping (l : Lookups) : Bool := l.tasks.live.any fun task => task.stage.isStopping

namespace Watch

/-- The jobs that the resolver was called for, in order. -/
def begun (w : Watch) : List LookupJob := begunIn w.heard

/-- Whether a task may be resumed at a turn. -/
def awaits (w : Watch) (id turn : Nat) : Bool := w.heard.any fun a => a.subject? = some (id, turn)

/-- A turn has been taken. -/
def took (w : Watch) (t : Turn) : Watch := { w with lookups := t.lookups, heard := w.heard ++ t.actions }

/-- A move that cannot take place changes nothing. -/
def step (w : Watch) : Move → Watch
  | .enqueue job =>
    { w.took (w.lookups.enqueue job).2 with
      accepted := if (w.lookups.enqueue job).1 then w.accepted ++ [job] else w.accepted }
  | .start now =>
    if w.lookups.component.isStarted then w.took (w.lookups.start now)
    else { w.took (w.lookups.start now) with starts := w.starts + 1, crossed := w.crossed || w.lookups.isStopping }
  | .ask c => w.took (w.lookups.ask c)
  | .resume id turn o =>
    if w.awaits id turn then
      { w.took (w.lookups.resume id turn o) with cut := w.cut + (w.lookups.cutsShort id turn).toNat }
    else w
  | .giveUp id => if w.lookups.joins id then w.took (w.lookups.giveUp id) else w

def after (w : Watch) (moves : List Move) : Watch := moves.foldl step w

end Watch

theorem Watch.step_start_of_started {w : Watch} (hs : w.lookups.component.isStarted = true) (now : Nat) :
    w.step (.start now) = w := by
  rw [Watch.step, if_pos hs, start_of_started hs, Watch.took, List.append_nil]

theorem Watch.step_start {w : Watch} (hs : w.lookups.component.isStarted = false) (now : Nat) :
    w.step (.start now) = { w.took (w.lookups.start now) with
      starts := w.starts + 1, crossed := w.crossed || w.lookups.isStopping } :=
  if_neg (Bool.eq_false_iff.1 hs)

theorem Watch.step_resume {w : Watch} {id turn : Nat} (h : w.awaits id turn = true) (o : Outcome) :
    w.step (.resume id turn o) = { w.took (w.lookups.resume id turn o) with
      cut := w.cut + (w.lookups.cutsShort id turn).toNat } := if_pos h

/-! ## What a turn does to the jobs -/

theorem resume_course {l : Lookups} {id : Nat} {task : Task Stage} (ht : l.tasks.find? id = some task)
    (hc : task.cancelled = false) (o : Outcome) : Course l id task.stage o (l.resume id task.turn o) := by
  simp only [resume, ht, hc, ne_eq, not_true_eq_false, if_false, Bool.false_eq_true]
  exact goOn_course l id task.stage o

theorem resume_leaves {l : Lookups} {id : Nat} {task : Task Stage} (ht : l.tasks.find? id = some task)
    (hc : task.cancelled = true) (o : Outcome) : Leaves l id task.stage (l.resume id task.turn o) := by
  simp only [resume, ht, hc, ne_eq, not_true_eq_false, if_false, if_true]
  exact giveUp_leaves l id task.stage

theorem resume_cases (l : Lookups) (id turn : Nat) (o : Outcome) :
    (l.resume id turn o = ⟨l, []⟩ ∧ l.cutsShort id turn = false) ∨
    ∃ task, l.tasks.find? id = some task ∧ task.turn = turn ∧
      ((task.cancelled = true ∧ l.cutsShort id turn = task.stage.isResolving ∧
          Leaves l id task.stage (l.resume id turn o)) ∨
        (task.cancelled = false ∧ l.cutsShort id turn = false ∧ Course l id task.stage o (l.resume id turn o))) := by
  cases ht : l.tasks.find? id with
  | none => simp [resume, cutsShort, ht]
  | some task =>
    by_cases hturn : task.turn = turn
    · refine .inr ⟨task, rfl, hturn, ?_⟩
      subst hturn
      cases hc : task.cancelled with
      | true => exact .inl ⟨rfl, by simp [cutsShort, ht, hc], resume_leaves ht hc o⟩
      | false => exact .inr ⟨rfl, by simp [cutsShort, ht, hc], resume_course ht hc o⟩
    · simp [resume, cutsShort, ht, hturn]

/-- What a turn that adds no job does to them. -/
structure Handles (l : Lookups) (t : Turn) (cut : Nat) : Prop where
  workerCount : t.lookups.workerCount = l.workerCount
  capacity : t.lookups.capacity = l.capacity
  resolves : t.lookups.resolves = l.resolves
  enqueued : t.lookups.enqueued = l.enqueued
  /-- Jobs are taken in order. -/
  taken : l.resolves = true → begunIn t.actions ++ t.lookups.queue = l.queue
  discarded : l.resolves = false → begunIn t.actions = [] ∧ t.lookups.queue <:+ l.queue
  balance : l.resolves = true →
    t.lookups.unfinished + t.lookups.completed + t.lookups.failed + cut = l.unfinished + l.completed + l.failed

theorem begunIn_farewell (ts : Tasks Stage) (me : Nat) (e : Ending) : begunIn (farewell ts me e) = [] := by
  simp [farewell, Action.job?]

theorem begunIn_logs (entries : List Log.Entry) : begunIn (entries.map .log) = [] := by
  simp [begunIn, List.filterMap_map, Function.comp_def, Action.job?]

/-- A turn that does nothing to the jobs. -/
theorem Handles.of_eq {l : Lookups} {t : Turn} (hl : ∃ line workers component tasks, t.lookups =
    { l with line := line, workers := workers, component := component, tasks := tasks })
    (hacts : begunIn t.actions = []) : Handles l t 0 := by
  obtain ⟨line, workers, component, tasks, heq⟩ := hl
  refine ⟨by rw [heq], by rw [heq], by rw [heq], by rw [heq], fun _ => ?_, fun _ => ⟨hacts, ?_⟩, fun _ => ?_⟩
  · rw [hacts, heq, List.nil_append]
  · have hqueue : t.lookups.queue = l.queue := by rw [heq]
    exact hqueue ▸ List.suffix_rfl
  · rw [heq, Nat.add_zero]

namespace Held

variable {l : Lookups} {me : Nat} {o : Outcome} {t : Turn} {task : Task Stage}

/-- A job that is being resolved is not finished. -/
theorem unfinished_pos (h : l.Held) (ht : l.tasks.find? me = some task) :
    l.queue.length + task.stage.isResolving.toNat ≤ l.unfinished := by
  have hcount := Tasks.countAt_eq (p := Stage.isResolving) h.ordered ht
  have hunfinished : l.unfinished = l.queue.length + l.tasks.countAt Stage.isResolving := h.unfinished
  omega

theorem course_handles (h : l.Held) (ht : l.tasks.find? me = some task) (hc : Course l me task.stage o t) :
    Handles l t 0 := by
  obtain ⟨completed, failed, hcredited, hsum⟩ := credited_eq l task.stage o
  have hpos := h.unfinished_pos ht
  cases hc with
  | takes job rest _ hq hr hacts =>
    have hbegun := hacts.begunIn
    rw [hcredited]
    refine ⟨rfl, rfl, rfl, rfl, fun _ => ?_, fun hno => absurd (hno.symm.trans hr) nofun, fun _ => ?_⟩
    · simp [hbegun, Action.job?, hq]
    · show l.unfinished - task.stage.isResolving.toNat + completed + failed + 0 = l.unfinished + l.completed + l.failed
      omega
  | rests _ hdry hacts =>
    have hbegun := hacts.begunIn
    rw [hcredited]
    refine ⟨rfl, rfl, rfl, rfl, fun hr => ?_, fun _ => ⟨hbegun, List.nil_suffix⟩, fun hr => ?_⟩
    · rw [hbegun, hdry hr, List.nil_append]
    · rw [hdry hr, List.length_nil, Nat.zero_add] at hpos
      show l.unfinished - task.stage.isResolving.toNat - l.queue.length + completed + failed + 0 =
        l.unfinished + l.completed + l.failed
      rw [hdry hr, List.length_nil]
      omega
  | waits _ => exact .of_eq ⟨_, _, _, _, rfl⟩ rfl
  | ends _ => exact .of_eq ⟨_, _, _, _, rfl⟩ (begunIn_farewell _ _ _)
  | joins _ _ => exact .of_eq ⟨_, _, _, _, rfl⟩ rfl
  | stops _ _ _ =>
    refine .of_eq ⟨_, _, _, _, rfl⟩ ?_
    split <;> simp
  | stopped entries _ =>
    refine .of_eq ⟨_, _, _, _, rfl⟩ ?_
    rw [begunIn_append, begunIn_logs, begunIn_farewell, List.nil_append]

theorem leaves_handles (h : l.Held) (ht : l.tasks.find? me = some task) (hl : Leaves l me task.stage t) :
    Handles l t task.stage.isResolving.toNat := by
  have hpos := h.unfinished_pos ht
  cases hl with
  | breaks hr hacts =>
    have hbegun := hacts.begunIn
    refine ⟨rfl, rfl, rfl, rfl, fun _ => ?_, fun _ => ⟨?_, List.suffix_rfl⟩, fun _ => ?_⟩
    · simp [hbegun, begunIn_farewell]
    · simp [hbegun, begunIn_farewell]
    · rw [hr, Bool.toNat_true] at hpos ⊢
      show l.unfinished - 1 + l.completed + l.failed + 1 = l.unfinished + l.completed + l.failed
      omega
  | passes id rest hw _ =>
    rw [Stage.not_isResolving_of_isWoken hw]
    exact .of_eq ⟨_, _, _, _, rfl⟩ (by rw [begunIn_append, begunIn_wakes, begunIn_farewell, List.nil_append])
  | goes hr _ =>
    rw [hr]
    exact .of_eq ⟨_, _, _, _, rfl⟩ (begunIn_farewell _ _ _)

theorem resume_handles (h : l.Held) (id turn : Nat) (o : Outcome) :
    Handles l (l.resume id turn o) (l.cutsShort id turn).toNat := by
  obtain ⟨heq, hcut⟩ | ⟨task, ht, -, ⟨-, hcut, hl⟩ | ⟨-, hcut, hc⟩⟩ := resume_cases l id turn o
  · rw [heq, hcut]
    exact .of_eq ⟨_, _, _, _, rfl⟩ rfl
  · rw [hcut]
    exact h.leaves_handles ht hl
  · rw [hcut]
    exact h.course_handles ht hc

theorem resume (h : l.Held) (id turn : Nat) (o : Outcome) : (l.resume id turn o).lookups.Held := by
  obtain ⟨heq, -⟩ | ⟨task, ht, -, ⟨hc, -, hl⟩ | ⟨hc, -, hc'⟩⟩ := resume_cases l id turn o
  · rwa [heq]
  · exact h.leaves ht (by rw [Tasks.stage?_of_find? ht, hc]; exact nofun) hl
  · exact h.course (by rw [Tasks.stage?_of_find? ht, hc]; rfl) hc'

/-- A caller has come, and its turn takes its course. -/
theorem ask_course (h : l.Held) (c : Call) : ∃ task,
    (l.tasks.spawn (.called c)).find? l.tasks.next = some task ∧ task.stage = .called c ∧ task.cancelled = false ∧
    Course { l with tasks := l.tasks.spawn (.called c) } l.tasks.next task.stage .done (l.ask c) := by
  refine ⟨{ id := l.tasks.next, stage := .called c }, ?_, rfl, rfl, goOn_course _ _ _ _⟩
  rw [Tasks.find?_spawn h.ordered, if_pos rfl]

theorem ask_handles (h : l.Held) (c : Call) : Handles l (l.ask c) 0 := by
  obtain ⟨task, ht, -, -, hc⟩ := h.ask_course c
  obtain ⟨h1, h2, h3, h4, h5, h6, h7⟩ := (h.spawn c).course_handles ht hc
  exact ⟨h1, h2, h3, h4, h5, h6, h7⟩

theorem ask (h : l.Held) (c : Call) : (l.ask c).lookups.Held := by
  obtain ⟨task, ht, -, hcancelled, hc⟩ := h.ask_course c
  refine (h.spawn c).course ?_ hc
  rw [Tasks.stage?_of_find? ht, hcancelled]
  rfl

theorem start_handles (h : l.Held) (now : Nat) : Handles l (l.start now) 0 := by
  cases hs : l.component.isStarted with
  | true =>
    rw [start_of_started hs]
    exact .of_eq ⟨_, _, _, _, rfl⟩ rfl
  | false =>
    obtain ⟨entries, heq⟩ := start_eq h.ordered hs now
    rw [heq]
    refine .of_eq ⟨_, _, _, _, rfl⟩ ?_
    rw [begunIn_append, begunIn_logs, List.nil_append]
    simp [begunIn, List.filterMap_map, Function.comp_def, Action.job?]

theorem stage_of_joins (h : l.joins me = true) : ∃ task, l.tasks.find? me = some task ∧ task.stage = .joining := by
  rw [joins] at h
  cases ht : l.tasks.find? me with
  | none => rw [ht] at h; cases h
  | some task =>
    rw [ht, Option.any_some] at h
    exact ⟨task, rfl, stage_of_isJoining h⟩

/-- Someone who waited until no job is left gives up. -/
theorem giveUp_leaves (l : Lookups) (me : Nat) : Leaves l me .joining (l.giveUp me) := by
  rw [Lookups.giveUp, Turn.finish_eq, List.nil_append]
  exact .goes rfl nofun

end Held

/-! ## What is true after every run -/

/-- What is kept along a run. -/
structure Sound (p : Plan) (w : Watch) : Prop where
  workerCount : w.lookups.workerCount = p.workers
  capacity : w.lookups.capacity = p.capacity
  resolves : w.lookups.resolves = p.resolves
  held : w.lookups.Held
  enqueued : w.lookups.enqueued = w.accepted.length
  order : p.resolves = true → w.begun ++ w.lookups.queue = w.accepted
  discarded : p.resolves = false → w.begun = [] ∧ w.lookups.queue <:+ w.accepted
  balance : p.resolves = true →
    w.lookups.enqueued = w.lookups.unfinished + w.lookups.completed + w.lookups.failed + w.cut

theorem Plan.sound (p : Plan) : Sound p p.watch where
  workerCount := rfl
  capacity := rfl
  resolves := rfl
  held := {
    capacity_pos := p.capacity_pos
    ordered := Tasks.ordered_empty
    bounded := Int.le_of_lt p.capacity_pos
    unfinished := rfl
    nodup := List.nodup_nil
    waiting := fun _ => ⟨nofun, nofun⟩
    called := fun _ => Nat.zero_le _ }
  enqueued := rfl
  order _ := rfl
  discarded _ := ⟨rfl, List.suffix_rfl⟩
  balance _ := rfl

namespace Sound

variable {p : Plan} {w : Watch}

theorem begun_took (w : Watch) (t : Turn) : (w.took t).begun = w.begun ++ begunIn t.actions := begunIn_append _ _

/-- A turn has been taken that adds no job. -/
theorem took (h : Sound p w) {t : Turn} {cut : Nat} (hheld : t.lookups.Held) (ht : Handles w.lookups t cut) :
    Sound p { w.took t with cut := w.cut + cut } where
  workerCount := ht.workerCount.trans h.workerCount
  capacity := ht.capacity.trans h.capacity
  resolves := ht.resolves.trans h.resolves
  held := hheld
  enqueued := ht.enqueued.trans h.enqueued
  order hr := by
    show (w.took t).begun ++ t.lookups.queue = w.accepted
    rw [begun_took, List.append_assoc, ht.taken (h.resolves.trans hr), h.order hr]
  discarded hr := by
    obtain ⟨hbegun, hqueue⟩ := ht.discarded (h.resolves.trans hr)
    refine ⟨?_, hqueue.trans (h.discarded hr).2⟩
    show (w.took t).begun = []
    rw [begun_took, (h.discarded hr).1, hbegun, List.nil_append]
  balance hr := by
    have hbefore := h.balance hr
    have hturn := ht.balance (h.resolves.trans hr)
    have hsame := ht.enqueued
    show t.lookups.enqueued = t.lookups.unfinished + t.lookups.completed + t.lookups.failed + (w.cut + cut)
    omega

/-- The counts of starts are not about jobs. -/
theorem recount (h : Sound p w) (starts : Nat) (crossed : Bool) :
    Sound p { w with starts := starts, crossed := crossed } :=
  ⟨h.workerCount, h.capacity, h.resolves, h.held, h.enqueued, h.order, h.discarded, h.balance⟩

theorem enqueue (h : Sound p w) (job : LookupJob) : Sound p (w.step (.enqueue job)) := by
  have hheld := h.held.enqueue job
  cases hfull : w.lookups.isFull with
  | true =>
    obtain ⟨hno, hlookups, e, hacts⟩ := enqueue_of_isFull hfull job
    have hstep : w.step (.enqueue job) =
        { w with lookups := { w.lookups with dropped := w.lookups.dropped + 1 }, heard := w.heard ++ [.log e] } := by
      simp only [Watch.step, Watch.took, hno, hlookups, hacts, Bool.false_eq_true, if_false]
    have hbegun : begunIn (w.heard ++ [.log e]) = w.begun := begunIn_append _ _ ▸ List.append_nil _
    rw [hlookups] at hheld
    rw [hstep]
    refine ⟨h.workerCount, h.capacity, h.resolves, hheld, h.enqueued, fun hr => ?_, fun hr => ?_, h.balance⟩
    · exact (congrArg (· ++ _) hbegun).trans (h.order hr)
    · exact ⟨hbegun.trans (h.discarded hr).1, (h.discarded hr).2⟩
  | false =>
    obtain ⟨line, tasks, acts, heq, hacts⟩ := enqueue_of_not_isFull hfull job
    have hstep : w.step (.enqueue job) = { w with
        lookups := { added w.lookups job with line := line, tasks := tasks }, heard := w.heard ++ acts,
        accepted := w.accepted ++ [job] } := by
      simp only [Watch.step, Watch.took, heq, if_true]
    have hbegun : begunIn (w.heard ++ acts) = w.begun := by rw [begunIn_append, hacts, List.append_nil]; rfl
    rw [heq] at hheld
    rw [hstep]
    refine ⟨h.workerCount, h.capacity, h.resolves, hheld, ?_, fun hr => ?_, fun hr => ⟨?_, ?_⟩, fun hr => ?_⟩
    · rw [List.length_append, List.length_singleton, ← h.enqueued]
      rfl
    · show begunIn (w.heard ++ acts) ++ (w.lookups.queue ++ [job]) = w.accepted ++ [job]
      rw [hbegun, ← List.append_assoc, h.order hr]
    · exact hbegun.trans (h.discarded hr).1
    · obtain ⟨gone, hgone⟩ := (h.discarded hr).2
      exact ⟨gone, by rw [← hgone, List.append_assoc]; rfl⟩
    · have hbefore := h.balance hr
      show w.lookups.enqueued + 1 = w.lookups.unfinished + 1 + w.lookups.completed + w.lookups.failed + w.cut
      omega

/-- **Every move keeps the account of the jobs.** -/
theorem step (h : Sound p w) (m : Move) : Sound p (w.step m) := by
  cases m with
  | enqueue job => exact h.enqueue job
  | start now =>
    have hstart := h.took (h.held.start now) (h.held.start_handles now)
    rw [Watch.step]
    split
    · exact hstart
    · exact hstart.recount _ _
  | ask c => exact h.took (h.held.ask c) (h.held.ask_handles c)
  | resume id turn o =>
    rw [Watch.step]
    split
    · exact h.took (h.held.resume id turn o) (h.held.resume_handles id turn o)
    · exact h
  | giveUp id =>
    rw [Watch.step]
    split
    · rename_i hjoins
      obtain ⟨task, ht, hstage⟩ := Held.stage_of_joins hjoins
      have hleaves : Leaves w.lookups id task.stage (w.lookups.giveUp id) := hstage ▸ Held.giveUp_leaves w.lookups id
      have hline := ne_waiting ht (by rw [hstage]; rfl)
      have hhandles := h.held.leaves_handles ht hleaves
      rw [hstage] at hhandles
      exact h.took (h.held.leaves ht hline hleaves) hhandles
    · exact h

end Sound

end PoolFeed.Lookups
