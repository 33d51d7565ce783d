import PoolFeed.Proofs.Lookups.Runs

/-!
# Who is woken, and when

A turn wakes only tasks that have a reason to go on: workers, callers whose jobs are all done, and stops whose workers have
all ended (`Told`). It moves nobody but the task whose turn it is and the worker that it takes from the line (`Turned`).
-/

namespace PoolFeed.Lookups

/-- A task has a reason to go on. -/
def Ready (l : Lookups) : Stage → Prop
  | .joining => l.unfinished = 0
  | .stopping workers => ∀ worker ∈ workers, l.tasks.find? worker = none
  | .called _ => False
  | .begun | .waiting | .woken | .resolving _ => True

theorem ready_of_isWorker {l : Lookups} {s : Stage} (h : s.isWorker = true) : l.Ready s := by
  cases s <;> first | exact trivial | cases h

/-- What an action stands for, at the end of the turn of one task. -/
inductive Told (l : Lookups) (me : Option Nat) : Action → Prop
  | log (e : Log.Entry) : Told l me (.log e)
  | ended (id : Nat) (e : Ending) : me = some id → l.tasks.find? id = none → id < l.tasks.next → Told l me (.ended id e)
  | wake {id turn : Nat} {task : Task Stage} : l.tasks.find? id = some task → task.turn = turn → l.Ready task.stage →
    Told l me (.wake id turn)
  | resolve {id turn : Nat} {job : LookupJob} {task : Task Stage} : l.tasks.find? id = some task → task.turn = turn →
    task.stage = .resolving job → Told l me (.resolve id turn job)

/-- Whatever a task waits for has been asked for. -/
structure Announced (actions : List Action) (task : Task Stage) : Prop where
  woken : task.stage = .begun ∨ task.stage = .woken → .wake task.id task.turn ∈ actions
  resolved : ∀ job, task.stage = .resolving job → .resolve task.id task.turn job ∈ actions

namespace Announced

variable {as : List Action} {task task' : Task Stage}

theorem append_left (h : Announced as task) (bs : List Action) : Announced (as ++ bs) task :=
  ⟨fun hw => List.mem_append_left _ (h.woken hw), fun job hj => List.mem_append_left _ (h.resolved job hj)⟩

theorem append_right (h : Announced as task) (bs : List Action) : Announced (bs ++ as) task :=
  ⟨fun hw => List.mem_append_right _ (h.woken hw), fun job hj => List.mem_append_right _ (h.resolved job hj)⟩

theorem congr (h : Announced as task) (hid : task'.id = task.id) (hturn : task'.turn = task.turn)
    (hstage : task'.stage = task.stage) : Announced as task' := by
  refine ⟨fun hw => ?_, fun job hj => ?_⟩
  · rw [hid, hturn]
    exact h.woken (hstage ▸ hw)
  · rw [hid, hturn]
    exact h.resolved job (hstage ▸ hj)

end Announced

/-- What a turn makes of a task: the turn of one task, which may be a stop that tells some workers to give up. -/
structure Passes (me : Option Nat) (stops : Option (List Nat)) (actions : List Action) (task task' : Task Stage) : Prop where
  worker : task'.stage.isWorker = task.stage.isWorker
  cancelled : task.cancelled = true → task'.cancelled = true
  spared : stops = none → task'.cancelled = task.cancelled
  moved : (task'.turn = task.turn ∧ (task'.stage = task.stage ∨
      (task.stage = .waiting ∧ task'.stage = .woken ∧ .wake task.id task.turn ∈ actions))) ∨
    (me = some task.id ∧ task.turn < task'.turn ∧ Announced actions task' ∧ (∀ c, task'.stage ≠ .called c) ∧
      ∀ workers, task'.stage = .stopping workers → stops = some workers)

theorem Passes.refl (me : Option Nat) (stops : Option (List Nat)) (actions : List Action) (task : Task Stage) :
    Passes me stops actions task task := ⟨rfl, id, fun _ => rfl, .inl ⟨rfl, .inl rfl⟩⟩

/-- The workers that a task tells to give up when it goes on from a stage. -/
def warned? (l : Lookups) : Stage → Option (List Nat)
  | .called .stop => some l.workers
  | .called .join | .begun | .waiting | .woken | .resolving _ | .stopping _ | .joining => none

/-- What a turn of one task does to all of them. -/
structure Turned (l : Lookups) (me : Option Nat) (stops : Option (List Nat)) (t : Turn) : Prop where
  next : t.lookups.tasks.next = l.tasks.next
  passes : ∀ id task', t.lookups.tasks.find? id = some task' →
    ∃ task, l.tasks.find? id = some task ∧ Passes me stops t.actions task task'
  gone : ∀ id task, l.tasks.find? id = some task → t.lookups.tasks.find? id = none → me = some id
  told : ∀ a ∈ t.actions, Told t.lookups me a

section Told
variable {l : Lookups} {ts : Tasks Stage} {actions : List Action} {who : Option Nat} {me : Nat}

theorem told_append {as bs : List Action} (h : ∀ a ∈ as, Told l who a) (h' : ∀ a ∈ bs, Told l who a) :
    ∀ a ∈ as ++ bs, Told l who a := fun a ha => (List.mem_append.1 ha).elim (h a) (h' a)

theorem told_logs (l : Lookups) (entries : List Log.Entry) : ∀ a ∈ entries.map .log, Told l who a := by
  intro a ha
  obtain ⟨e, -, rfl⟩ := List.mem_map.1 ha
  exact .log e

theorem told_murmurs {left : Nat} (h : Turn.Murmurs ts left actions) (hord : ts.Ordered) (hleft : l.unfinished = left)
    (hsame : ∀ id task, ts.find? id = some task → task.stage = .joining → l.tasks.find? id = some task) :
    ∀ a ∈ actions, Told l who a := by
  intro a ha
  obtain ⟨e, rfl⟩ | ⟨hzero, hwake⟩ := h a ha
  · exact .log e
  · obtain ⟨id, hid, task, ht, rfl⟩ := mem_wakes.1 hwake
    obtain ⟨task', hmem, rfl⟩ := List.mem_map.1 hid
    obtain ⟨hlive, hjoining⟩ := List.mem_filter.1 hmem
    cases (Tasks.find?_of_mem hord hlive).symm.trans ht
    have hstage := stage_of_isJoining hjoining
    refine .wake (hsame _ _ ht hstage) rfl ?_
    rw [hstage]
    exact hleft.trans hzero

/-- When a task ends, so do the stops that have waited for it and no other. -/
theorem told_farewell (hord : ts.Ordered) (hts : l.tasks = ts.erase me) (hme : me < ts.next) (e : Ending) :
    ∀ a ∈ farewell ts me e, Told l (some me) a := by
  intro a ha
  rcases List.mem_cons.1 ha with rfl | ha
  · refine .ended me e rfl (by rw [hts, Tasks.find?_erase, if_pos rfl]) ?_
    rw [hts]
    exact hme
  · obtain ⟨id, hid, task, ht, rfl⟩ := mem_wakes.1 ha
    obtain ⟨task', hmem, rfl⟩ := List.mem_map.1 hid
    obtain ⟨hlive, hwaits⟩ := List.mem_filter.1 hmem
    cases (Tasks.find?_of_mem (hord.erase me) hlive).symm.trans ht
    refine .wake (hts ▸ ht) rfl ?_
    rw [Turn.waitsFor] at hwaits
    cases hstage : task.stage with
    | stopping workers =>
      rw [hstage] at hwaits
      simp only [Bool.and_eq_true, Bool.not_eq_true', List.any_eq_false] at hwaits
      intro worker hworker
      rw [hts]
      exact Option.not_isSome_iff_eq_none.1 (hwaits.2 worker hworker)
    | called | begun | waiting | woken | resolving | joining => rw [hstage] at hwaits; cases hwaits

end Told

/-! ## What the turns do -/

namespace Turned

variable {l : Lookups} {t : Turn} {me : Nat} {stops : Option (List Nat)} {task : Task Stage}

/-- Nothing happens to the tasks. -/
theorem of_eq {who : Option Nat} (hts : t.lookups.tasks = l.tasks) (htold : ∀ a ∈ t.actions, Told t.lookups who a) :
    Turned l who stops t where
  next := by rw [hts]
  passes id task' ht := ⟨task', hts ▸ ht, .refl _ _ _ _⟩
  gone id task ht hnone := by
    rw [hts, ht] at hnone
    cases hnone
  told := htold

/-- A task ends. -/
theorem erase (hts : t.lookups.tasks = l.tasks.erase me) (htold : ∀ a ∈ t.actions, Told t.lookups (some me) a) :
    Turned l (some me) stops t where
  next := by rw [hts]; rfl
  passes id task' ht := ⟨task', (Tasks.find?_of_erase (hts ▸ ht)).2, .refl _ _ _ _⟩
  gone id task ht hnone := by
    rw [hts, Tasks.find?_erase] at hnone
    split at hnone
    · exact congrArg some (Eq.symm ‹_›)
    · rw [ht] at hnone
      cases hnone
  told := htold

/-- A task comes to its next stage. -/
theorem advance {s : Stage} (hts : t.lookups.tasks = l.tasks.advance me s) (ht : l.tasks.find? me = some task)
    (hworker : s.isWorker = task.stage.isWorker) (hcalled : ∀ c, s ≠ .called c)
    (hstops : ∀ workers, s = .stopping workers → stops = some workers)
    (hann : Announced t.actions { task with turn := task.turn + 1, stage := s })
    (htold : ∀ a ∈ t.actions, Told t.lookups (some me) a) : Turned l (some me) stops t where
  next := by rw [hts]; rfl
  passes id task' ht' := by
    rw [hts, Tasks.find?_advance] at ht'
    split at ht'
    · rename_i hid
      subst hid
      rw [ht, Option.map_some] at ht'
      cases ht'
      refine ⟨task, ht, hworker, fun hc => hc, fun _ => rfl, .inr ⟨?_, Nat.lt_succ_self _, hann, hcalled, hstops⟩⟩
      rw [Tasks.id_of_find? ht]
    · exact ⟨task', ht', .refl _ _ _ _⟩
  gone id task' ht' hnone := by
    rw [hts, Tasks.find?_advance] at hnone
    split at hnone
    · rw [ht', Option.map_some] at hnone
      cases hnone
    · rw [ht'] at hnone
      cases hnone
  told := htold

end Turned

namespace Held

variable {l : Lookups} {t : Turn} {me : Nat} {o : Outcome} {task : Task Stage}

/-- The one who is first in the line is called, and someone may end. -/
theorem roused_turned (h : l.Held) {id : Nat} {rest : List Nat} (hline : l.line = id :: rest) (gone : Option Nat)
    (hts : t.lookups.tasks = gone.elim (rouse l.tasks id) (rouse l.tasks id).erase)
    (hwake : ∀ a ∈ wakes l.tasks [id], a ∈ t.actions) (htold : ∀ a ∈ t.actions, Told t.lookups gone a) :
    Turned l gone none t := by
  obtain ⟨task, ht, hstage, -⟩ := Tasks.find?_of_stage? ((h.waiting id).1 (by simp [hline]))
  have hfind : ∀ i, t.lookups.tasks.find? i = if gone = some i then none else (rouse l.tasks id).find? i := by
    intro i
    rw [hts]
    cases gone with
    | none => rfl
    | some me =>
      simp only [Option.elim_some, Tasks.find?_erase, Option.some.injEq, eq_comm (a := me)]
  have hnext : t.lookups.tasks.next = l.tasks.next := by rw [hts]; cases gone <;> rfl
  refine ⟨hnext, fun i task' ht' => ?_, fun i task' ht' hnone => ?_, htold⟩
  · rw [hfind] at ht'
    split at ht'
    · cases ht'
    · rw [find?_rouse] at ht'
      split at ht'
      · rename_i hi
        subst hi
        rw [ht, Option.map_some] at ht'
        cases ht'
        refine ⟨task, ht, by rw [hstage]; rfl, fun hc => hc, fun _ => rfl, .inl ⟨rfl, .inr ⟨hstage, rfl, ?_⟩⟩⟩
        exact hwake _ (mem_wakes.2 ⟨i, by simp, task, ht, by rw [Tasks.id_of_find? ht]⟩)
      · exact ⟨task', ht', .refl _ _ _ _⟩
  · rw [hfind] at hnone
    split at hnone
    · assumption
    · rw [find?_rouse] at hnone
      split at hnone
      · rw [ht', Option.map_some] at hnone
        cases hnone
      · rw [ht'] at hnone
        cases hnone

/-- Callers are not workers. -/
theorem ne_of_stage {id : Nat} {task' : Task Stage} (ht : l.tasks.find? me = some task)
    (ht' : l.tasks.find? id = some task') (hs : task'.stage.isWorker ≠ task.stage.isWorker) : id ≠ me := by
  rintro rfl
  cases ht.symm.trans ht'
  exact hs rfl

theorem leaves_turned (h : l.Held) (ht : l.tasks.find? me = some task) (hl : Leaves l me task.stage t) :
    Turned l (some me) none t := by
  have hnext := Tasks.lt_next_of_find? h.ordered ht
  cases hl with
  | breaks hr hacts =>
    refine .erase rfl (told_append ?_ (told_farewell h.ordered rfl hnext _))
    refine told_murmurs hacts h.ordered rfl fun id task' ht' hstage => ?_
    have hne : id ≠ me := ne_of_stage ht ht' fun heq => by
      rw [hstage] at heq
      exact absurd ((Stage.idle_of_not_isWorker heq.symm).1.symm.trans hr) nofun
    show (l.tasks.erase me).find? id = some task'
    rw [Tasks.find?_erase, if_neg hne, ht']
  | passes id rest hw hline =>
    refine h.roused_turned hline (some me) rfl (fun a ha => List.mem_append_left _ ha) ?_
    refine told_append (fun a ha => ?_) (told_farewell (rouse_ordered h.ordered id) rfl hnext _)
    obtain ⟨i, hi, task', ht', rfl⟩ := mem_wakes.1 ha
    rw [List.mem_singleton.1 hi] at ht' ⊢
    have hne : id ≠ me := by
      rintro rfl
      obtain ⟨task'', ht'', hstage, -⟩ := Tasks.find?_of_stage? ((h.waiting id).1 (by simp [hline]))
      cases ht.symm.trans ht''
      rw [hstage] at hw
      cases hw
    have hfind : ((rouse l.tasks id).erase me).find? id = some { task' with stage := .woken } := by
      rw [Tasks.find?_erase, if_neg hne, find?_rouse, if_pos rfl, ht', Option.map_some]
    exact .wake hfind rfl trivial
  | goes _ _ => exact .erase rfl (told_farewell h.ordered rfl hnext _)

/-- A worker goes on. -/
theorem works_turned (h : l.Held) {s : Stage} {left : Nat} {as bs : List Action} (ht : l.tasks.find? me = some task)
    (hbusy : task.stage.isBusy) (hs : s.isWorker = true) (hts : t.lookups.tasks = l.tasks.advance me s)
    (hacts : t.actions = as ++ bs) (has : Turn.Murmurs l.tasks left as) (hleft : t.lookups.unfinished = left)
    (hann : Announced bs { task with turn := task.turn + 1, stage := s }) (htold : ∀ a ∈ bs, Told t.lookups (some me) a)
    (stops : Option (List Nat)) : Turned l (some me) stops t := by
  have hworker := Stage.isWorker_of_isBusy hbusy
  refine .advance hts ht (hs.trans hworker.symm) (by rintro c rfl; cases hs) (by rintro workers rfl; cases hs) ?_ ?_
  · rw [hacts]
    exact hann.append_right as
  · rw [hacts]
    refine told_append (told_murmurs has h.ordered hleft fun id task' ht' hstage => ?_) htold
    have hne : id ≠ me := ne_of_stage ht ht' (by rw [hworker, hstage]; exact nofun)
    rw [hts, Tasks.find?_advance, if_neg hne, ht']

/-- A stop tells the workers to give up. -/
theorem halted_turned (ht : l.tasks.find? me = some task) (hs : task.stage = .called .stop)
    (hstaff : ∀ id ∈ l.workers, ∀ task, l.tasks.find? id = some task → task.stage.isWorker = true)
    (hlookups : t.lookups = halted l me) (hacts : t.actions = wakes l.tasks (doomed l) ++
      if l.workers.any (halted l me).tasks.isLive then [] else wakes (halted l me).tasks [me]) :
    Turned l (some me) (some l.workers) t := by
  have hme : me ∉ doomed l := fun hmem => by
    have hworker := hstaff me (List.mem_filter.1 hmem).1 task ht
    rw [hs] at hworker
    cases hworker
  have hfind : ∀ id, t.lookups.tasks.find? id =
      if id = me then some { task with turn := task.turn + 1, stage := .stopping l.workers }
      else if id ∈ doomed l then (l.tasks.find? id).map fun u => { u with cancelled := true } else l.tasks.find? id := by
    intro id
    rw [hlookups]
    show ((cancelAll l.tasks (doomed l)).advance me _).find? id = _
    rw [Tasks.find?_advance, find?_cancelAll]
    split
    · rename_i hid
      rw [hid, if_neg hme, ht, Option.map_some]
    · rfl
  refine ⟨?_, fun id task' ht' => ?_, fun id task' ht' hnone => ?_, ?_⟩
  · rw [hlookups]
    exact cancelAll_next _ _
  · rw [hfind] at ht'
    split at ht'
    · rename_i hid
      cases ht'
      refine ⟨task, hid ▸ ht, by rw [hs]; rfl, fun hc => hc, fun _ => rfl, .inr ⟨?_, Nat.lt_succ_self _, ⟨nofun, nofun⟩, nofun,
        fun _ hworkers => congrArg some (Stage.stopping.inj hworkers)⟩⟩
      rw [Tasks.id_of_find? ht]
    · split at ht'
      · obtain ⟨u, hu, rfl⟩ := Option.map_eq_some_iff.1 ht'
        exact ⟨u, hu, rfl, fun _ => rfl, nofun, .inl ⟨rfl, .inl rfl⟩⟩
      · exact ⟨task', ht', .refl _ _ _ _⟩
  · rw [hfind] at hnone
    split at hnone
    · cases hnone
    · split at hnone <;> simp_all
  · rw [hacts]
    refine told_append (fun a ha => ?_) fun a ha => ?_
    · obtain ⟨id, hid, u, hu, rfl⟩ := mem_wakes.1 ha
      have hworker := hstaff id (List.mem_filter.1 hid).1 u hu
      have hne : id ≠ me := fun heq => hme (heq ▸ hid)
      have hwarned : t.lookups.tasks.find? id = some { u with cancelled := true } := by
        rw [hfind, if_neg hne, if_pos hid, hu, Option.map_some]
      exact .wake hwarned rfl (ready_of_isWorker hworker)
    · split at ha
      · cases ha
      · rename_i hnone
        obtain ⟨id, hid, u, hu, rfl⟩ := mem_wakes.1 ha
        rw [List.mem_singleton.1 hid, ← hlookups] at hu
        rw [List.mem_singleton.1 hid]
        refine .wake hu rfl ?_
        rw [hfind, if_pos rfl] at hu
        cases hu
        intro worker hworker
        rw [hlookups]
        simp only [List.any_eq_true, not_exists, not_and, Bool.not_eq_true] at hnone
        exact Option.not_isSome_iff_eq_none.1 (Bool.eq_false_iff.1 (hnone worker hworker))

theorem course_turned (h : l.Held) (ht : l.tasks.find? me = some task)
    (hstaff : ∀ id ∈ l.workers, ∀ task, l.tasks.find? id = some task → task.stage.isWorker = true)
    (hc : Course l me task.stage o t) : Turned l (some me) (warned? l task.stage) t := by
  have hnext := Tasks.lt_next_of_find? h.ordered ht
  have hid := Tasks.id_of_find? ht
  cases hc with
  | takes job rest hs hq hr hacts =>
    refine h.works_turned ht hs (s := .resolving job) rfl rfl rfl hacts rfl ⟨nofun, fun job' hj => ?_⟩ (fun a ha => ?_) _
    · cases hj
      rw [Tasks.nextTurn_of_find? ht, hid]
      exact List.mem_singleton_self _
    · cases List.mem_singleton.1 ha
      exact .resolve (Tasks.find?_advance_self ht (.resolving job)) (Tasks.nextTurn_of_find? ht).symm rfl
  | rests hs hdry hacts =>
    exact h.works_turned ht hs (s := .waiting) rfl rfl (List.append_nil _).symm hacts rfl ⟨nofun, nofun⟩ nofun _
  | waits _ => exact .of_eq rfl nofun
  | ends _ => exact .erase rfl (told_farewell h.ordered rfl hnext _)
  | joins hs _ => exact .advance (s := .joining) rfl ht (by rw [hs]; rfl) nofun nofun ⟨nofun, nofun⟩ nofun
  | stops hs _ _ =>
    have hturned := halted_turned ht hs hstaff (t := ⟨halted l me, _⟩) rfl rfl
    rwa [hs]
  | stopped entries _ => exact .erase rfl (told_append (told_logs _ _) (told_farewell h.ordered rfl hnext _))

end Held

end PoolFeed.Lookups
