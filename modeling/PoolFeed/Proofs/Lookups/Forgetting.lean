import PoolFeed.Proofs.Lookups.Serving

/-!
# Workers that are forgotten

| here | there |
| --- | --- |
| `Watch.crossed` | a call of `MetadataQueue.start` that takes effect between the returns of two calls of `MetadataQueue.stop` |
| `Roused`        | the wait of `MetadataQueue.stop` for the workers that it has cancelled |
| `exists_unkept` | the end of `MetadataQueue.stop`, which empties the list of workers, whoever they are |

A stop that waits is woken as soon as the workers that it waits for are gone (`Roused`). So a stop that a start has crossed
can go on at once, and it makes the lookups stopped while the workers of that start are there. They take the next job, and
no stop tells them to give up (`exists_unkept`).
-/

namespace PoolFeed.Lookups

/-- What is known of the stops that wait. -/
structure Roused (l : Lookups) (heard : List Action) : Prop where
  /-- Those that a stop waits for are workers, as long as they are there. -/
  staff : ∀ id task workers, l.tasks.find? id = some task → task.stage = .stopping workers →
    ∀ worker ∈ workers, ∀ u, l.tasks.find? worker = some u → u.stage.isWorker = true
  spared : ∀ id task workers, l.tasks.find? id = some task → task.stage = .stopping workers → task.cancelled = false
  /-- A stop that waits for nobody any more has been woken. -/
  woken : ∀ id task workers, l.tasks.find? id = some task → task.stage = .stopping workers →
    (∀ worker ∈ workers, l.tasks.find? worker = none) → .wake id task.turn ∈ heard

/-! ## What a turn does to the stops that wait -/

/-- A stop that waits after a turn has waited before, or has just told the workers to give up. If the turn leaves it nobody
to wait for, it is woken. -/
def Rouses (l : Lookups) (t : Turn) : Prop := ∀ id task workers, t.lookups.tasks.find? id = some task →
  task.stage = .stopping workers →
    (l.tasks.find? id = some task ∧ ((∀ worker ∈ workers, t.lookups.tasks.find? worker = none) →
      (∀ worker ∈ workers, l.tasks.find? worker = none) ∨ .wake id task.turn ∈ t.actions)) ∨
    (workers = l.workers ∧ task.cancelled = false ∧
      ((∀ worker ∈ workers, t.lookups.tasks.find? worker = none) → .wake id task.turn ∈ t.actions))

/-- Some tasks hold no stop that others do not hold, and all that those hold. -/
structure Upholds (ts ts' : Tasks Stage) : Prop where
  stops : ∀ id task workers, ts'.find? id = some task → task.stage = .stopping workers → ts.find? id = some task
  gone : ∀ id, ts'.find? id = none → ts.find? id = none

namespace Upholds

variable {ts : Tasks Stage}

theorem refl (ts : Tasks Stage) : Upholds ts ts := ⟨fun _ _ _ ht _ => ht, fun _ hnone => hnone⟩

theorem advance (ts : Tasks Stage) (me : Nat) {s : Stage} (hs : s.isStopping = false) :
    Upholds ts (ts.advance me s) where
  stops id task workers ht hstage := by
    rw [Tasks.find?_advance] at ht
    split at ht
    · obtain ⟨u, -, rfl⟩ := Option.map_eq_some_iff.1 ht
      rw [show s = .stopping workers from hstage] at hs
      cases hs
    · exact ht
  gone id hnone := by
    rw [Tasks.find?_advance] at hnone
    split at hnone
    · exact Option.map_eq_none_iff.1 hnone
    · exact hnone

theorem rouse (ts : Tasks Stage) (first : Nat) : Upholds ts (rouse ts first) where
  stops id task workers ht hstage := by
    rw [find?_rouse] at ht
    split at ht
    · obtain ⟨u, -, rfl⟩ := Option.map_eq_some_iff.1 ht
      cases hstage
    · exact ht
  gone id hnone := by
    rw [find?_rouse] at hnone
    split at hnone
    · exact Option.map_eq_none_iff.1 hnone
    · exact hnone

/-- No stop is among those that are told to give up. -/
theorem cancelAll (ts : Tasks Stage) {ids : List Nat}
    (hids : ∀ id ∈ ids, ∀ task, ts.find? id = some task → task.stage.isWorker = true) : Upholds ts (cancelAll ts ids) where
  stops id task workers ht hstage := by
    rw [find?_cancelAll] at ht
    split at ht
    · obtain ⟨u, hu, rfl⟩ := Option.map_eq_some_iff.1 ht
      have hworker := hids id ‹_› u hu
      rw [show u.stage = .stopping workers from hstage] at hworker
      cases hworker
    · exact ht
  gone id hnone := by
    rw [find?_cancelAll] at hnone
    split at hnone
    · exact Option.map_eq_none_iff.1 hnone
    · exact hnone

theorem rouses {l : Lookups} {t : Turn} (h : Upholds l.tasks t.lookups.tasks) : Rouses l t :=
  fun id task workers ht hstage =>
    .inl ⟨h.stops id task workers ht hstage, fun hgone => .inl fun worker hworker => h.gone worker (hgone worker hworker)⟩

end Upholds

/-- When a task ends, the stops that have waited for it alone are woken. -/
theorem rouses_erase {l : Lookups} {t : Turn} {ts : Tasks Stage} {me : Nat} {e : Ending} (h : Upholds l.tasks ts)
    (hts : t.lookups.tasks = ts.erase me) (hfarewell : ∀ a ∈ farewell ts me e, a ∈ t.actions) :
    Rouses l t := by
  intro id task workers ht hstage
  rw [hts] at ht ⊢
  obtain ⟨hne, hold⟩ := Tasks.find?_of_erase ht
  refine .inl ⟨h.stops id task workers hold hstage, fun hgone => ?_⟩
  by_cases hme : me ∈ workers
  · refine .inr (hfarewell _ (List.mem_cons_of_mem _ (mem_wakes.2 ⟨id, List.mem_map.2 ⟨task, ?_, ?_⟩, task, ht, rfl⟩)))
    · refine List.mem_filter.2 ⟨Tasks.mem_of_find? ht, ?_⟩
      simp only [Turn.waitsFor, hstage, Bool.and_eq_true, List.contains_eq_mem, decide_eq_true_eq, Bool.not_eq_true',
        List.any_eq_false, Tasks.isLive, Option.isSome_iff_ne_none, ne_eq, not_not]
      exact ⟨hme, hgone⟩
    · exact Tasks.id_of_find? ht
  · refine .inl fun worker hworker => h.gone worker ?_
    have hnone := hgone worker hworker
    have hother : worker ≠ me := by
      rintro rfl
      exact hme hworker
    rwa [Tasks.find?_erase, if_neg hother] at hnone

/-- A stop that finds nobody to wait for wakes itself. -/
theorem rouses_halted {l : Lookups} {t : Turn} {me : Nat} {task : Task Stage} (ht : l.tasks.find? me = some task)
    (hcalled : task.stage = .called .stop) (hspared : task.cancelled = false)
    (hstaff : ∀ id ∈ l.workers, ∀ task, l.tasks.find? id = some task → task.stage.isWorker = true)
    (hlookups : t.lookups = halted l me) (hacts : t.actions = wakes l.tasks (doomed l) ++
      if l.workers.any (halted l me).tasks.isLive then [] else wakes (halted l me).tasks [me]) : Rouses l t := by
  have htold : ∀ id ∈ doomed l, ∀ task, l.tasks.find? id = some task → task.stage.isWorker = true :=
    fun id hid => hstaff id (List.mem_filter.1 hid).1
  have hme : me ∉ doomed l := fun hmem => by
    have hworker := htold me hmem task ht
    rw [hcalled] at hworker
    cases hworker
  have hcancel := Upholds.cancelAll l.tasks htold
  have hfind : ∀ id, t.lookups.tasks.find? id = if id = me then
      some { task with turn := task.turn + 1, stage := .stopping l.workers }
      else (cancelAll l.tasks (doomed l)).find? id := fun id => by
    rw [hlookups]
    show ((cancelAll l.tasks (doomed l)).advance me _).find? id = _
    rw [Tasks.find?_advance]
    split
    · rename_i hid
      rw [hid, find?_cancelAll, if_neg hme, ht, Option.map_some]
    · rfl
  intro id u workers hu hstage
  have hold := hu
  rw [hfind] at hold
  split at hold
  · rename_i hid
    cases hold
    obtain rfl := Stage.stopping.inj hstage
    refine .inr ⟨rfl, hspared, fun hgone => ?_⟩
    have hnone : l.workers.any (halted l me).tasks.isLive = false := List.any_eq_false.2 fun worker hworker => by
      rw [Tasks.isLive, ← hlookups, hgone worker hworker]
      exact Bool.false_ne_true
    rw [hlookups, hid] at hu
    rw [hacts, hnone, hid]
    exact List.mem_append_right _ (mem_wakes.2 ⟨me, List.mem_singleton_self me, _, hu, rfl⟩)
  · refine .inl ⟨hcancel.stops id u workers hold hstage, fun hgone => .inl fun worker hworker => hcancel.gone worker ?_⟩
    have hnone := hgone worker hworker
    rw [hfind] at hnone
    split at hnone
    · cases hnone
    · exact hnone

namespace Held

variable {l : Lookups} {t : Turn} {me : Nat} {o : Outcome} {task : Task Stage}

theorem course_rouses (ht : l.tasks.find? me = some task) (hcancelled : task.cancelled = false)
    (hstaff : ∀ id ∈ l.workers, ∀ task, l.tasks.find? id = some task → task.stage.isWorker = true)
    (hc : Course l me task.stage o t) : Rouses l t := by
  cases hc with
  | takes | rests | joins => exact (Upholds.advance l.tasks me rfl).rouses
  | waits => exact (Upholds.refl l.tasks).rouses
  | ends => exact rouses_erase (.refl l.tasks) rfl fun _ ha => ha
  | stops hs => exact rouses_halted ht hs hcancelled hstaff rfl rfl
  | stopped => exact rouses_erase (.refl l.tasks) rfl fun _ ha => List.mem_append_right _ ha

theorem leaves_rouses (hl : Leaves l me task.stage t) : Rouses l t := by
  cases hl with
  | breaks => exact rouses_erase (.refl l.tasks) rfl fun _ ha => List.mem_append_right _ ha
  | passes id =>
    exact rouses_erase (.rouse l.tasks id) rfl fun _ ha => List.mem_append_right _ ha
  | goes => exact rouses_erase (.refl l.tasks) rfl fun _ ha => ha

theorem enqueue_rouses (l : Lookups) (job : LookupJob) : Rouses l (l.enqueue job).2 := by
  refine Upholds.rouses ?_
  cases hfull : l.isFull with
  | true =>
    rw [(enqueue_of_isFull hfull job).2.1]
    exact .refl l.tasks
  | false =>
    cases hline : l.line with
    | nil =>
      rw [enqueue_of_line_nil hfull hline]
      exact .refl l.tasks
    | cons first rest =>
      rw [enqueue_of_line_cons hfull hline]
      exact .rouse l.tasks first

end Held

namespace Roused

variable {l : Lookups} {heard : List Action}

theorem turned (h : Roused l heard) {t : Turn} {me : Option Nat} {stops : Option (List Nat)} (ht : Turned l me stops t)
    (hr : Rouses l t) (hstaff : ∀ id ∈ l.workers, ∀ task, l.tasks.find? id = some task → task.stage.isWorker = true) :
    Roused t.lookups (heard ++ t.actions) where
  staff id task' workers ht' hstage worker hworker u' hu' := by
    obtain ⟨u, hu, hpasses⟩ := ht.passes worker u' hu'
    rw [hpasses.worker]
    obtain ⟨hold, -⟩ | ⟨rfl, -⟩ := hr id task' workers ht' hstage
    · exact h.staff id task' workers hold hstage worker hworker u hu
    · exact hstaff worker hworker u hu
  spared id task' workers ht' hstage := by
    obtain ⟨hold, -⟩ | ⟨-, hspared, -⟩ := hr id task' workers ht' hstage
    · exact h.spared id task' workers hold hstage
    · exact hspared
  woken id task' workers ht' hstage hgone := by
    obtain ⟨hold, hwoken⟩ | ⟨-, -, hwoken⟩ := hr id task' workers ht' hstage
    · obtain hbefore | hnow := hwoken hgone
      · exact List.mem_append_left _ (h.woken id task' workers hold hstage hbefore)
      · exact List.mem_append_right _ hnow
    · exact List.mem_append_right _ (hwoken hgone)

/-- Tasks are created, and none of them is a stop that waits. -/
theorem grown (h : Roused l heard) {l' : Lookups} (actions : List Action) (hheard : Heard l heard)
    (hsame : ∀ id, id < l.tasks.next → l'.tasks.find? id = l.tasks.find? id)
    (hstops : ∀ id task workers, l'.tasks.find? id = some task → task.stage = .stopping workers →
      l.tasks.find? id = some task) : Roused l' (heard ++ actions) where
  staff id task workers ht hstage worker hworker u hu := by
    have hold := hstops id task workers ht hstage
    rw [hsame worker (hheard.stopping id task workers hold hstage worker hworker)] at hu
    exact h.staff id task workers hold hstage worker hworker u hu
  spared id task workers ht hstage := h.spared id task workers (hstops id task workers ht hstage) hstage
  woken id task workers ht hstage hgone := by
    have hold := hstops id task workers ht hstage
    refine List.mem_append_left _ (h.woken id task workers hold hstage fun worker hworker => ?_)
    rw [← hsame worker (hheard.stopping id task workers hold hstage worker hworker)]
    exact hgone worker hworker

end Roused

namespace Watched

variable {p : Plan} {w : Watch}

/-- **Every move wakes the stops that it leaves nobody to wait for.** -/
theorem step_roused (h : Watched p w) (hr : Roused w.lookups w.heard) (m : Move) :
    Roused (w.step m).lookups (w.step m).heard := by
  have hord := h.held.ordered
  cases m with
  | enqueue job => exact hr.turned (h.held.enqueue_turned job) (Held.enqueue_rouses w.lookups job) h.staffed
  | start now =>
    cases hs : w.lookups.component.isStarted with
    | true =>
      rw [Watch.step_start_of_started hs]
      exact hr
    | false =>
      obtain ⟨entries, heq⟩ := start_eq hord hs now
      rw [Watch.step_start hs, heq]
      refine hr.grown _ h.heard (fun id hid => (find?_hired id _ hord).trans (if_neg (by omega))) ?_
      intro id task workers ht hstage
      obtain ⟨-, -, rfl⟩ | hold := find?_launched hord now ht
      · cases hstage
      · exact hold
  | ask c =>
    have hspawn : Roused { w.lookups with tasks := w.lookups.tasks.spawn (.called c) } w.heard := by
      rw [← List.append_nil w.heard]
      refine hr.grown [] h.heard (fun id hid => ?_) fun id task workers ht hstage => ?_
      · exact (Tasks.find?_spawn hord _ id).trans (if_neg (Nat.ne_of_lt hid))
      · obtain ⟨-, rfl⟩ | hold := Tasks.find?_of_spawn hord ht
        · cases hstage
        · exact hold
    have hstaff := fun id hid => ((h.spawn c).staff id hid).2
    obtain ⟨task, ht, -, hcancelled, hc⟩ := h.held.ask_course c
    exact hspawn.turned (h.ask_turned c) (Held.course_rouses ht hcancelled hstaff hc) hstaff
  | resume id turn o =>
    rw [Watch.step]
    split
    · refine hr.turned (h.held.resume_turned h.settled h.staffed id turn o) ?_ h.staffed
      obtain ⟨heq, -⟩ | ⟨task, ht, -, ⟨-, -, hl⟩ | ⟨hcancelled, -, hc⟩⟩ := resume_cases w.lookups id turn o
      · rw [heq]
        exact (Upholds.refl _).rouses
      · exact Held.leaves_rouses hl
      · exact Held.course_rouses ht hcancelled h.staffed hc
    · exact hr
  | giveUp id =>
    rw [Watch.step]
    split
    · rename_i hj
      obtain ⟨task, -, hstage⟩ := Held.stage_of_joins hj
      refine hr.turned (h.held.giveUp_turned hj) ?_ h.staffed
      exact Held.leaves_rouses (hstage ▸ Held.giveUp_leaves w.lookups id)
    · exact hr

theorem after_roused (h : Watched p w) (hr : Roused w.lookups w.heard) (moves : List Move) :
    Roused (w.after moves).lookups (w.after moves).heard := by
  induction moves generalizing w with
  | nil => exact hr
  | cons m moves ih => exact ih (h.step m) (h.step_roused hr m)

end Watched

theorem Plan.roused (p : Plan) : Roused p.watch.lookups p.watch.heard := ⟨nofun, nofun, nofun⟩

/-! ## After a start has crossed a stop -/

namespace Watched

variable {p : Plan} {w : Watch} {id : Nat} {task : Task Stage}

/-- A stop with nobody left to wait for can go on, and is over. -/
theorem resume_stopping (hr : Roused w.lookups w.heard) (ht : w.lookups.tasks.find? id = some task)
    {workers : List Nat} (hstage : task.stage = .stopping workers)
    (hgone : ∀ worker ∈ workers, w.lookups.tasks.find? worker = none) :
    (w.step (.resume id task.turn .done)).lookups = w.lookups.rested id := by
  have hawaits : w.awaits id task.turn = true :=
    List.any_eq_true.2 ⟨_, hr.woken id task workers ht hstage hgone, decide_eq_true rfl⟩
  have hc := resume_course ht (hr.spared id task workers ht hstage) .done
  rw [hstage] at hc
  rw [Watch.step_resume hawaits]
  exact hc.of_stopping

/-- A worker that looks for a job takes one, if one waits, whoever has asked to stop before. -/
theorem taken_after_stop (h : Watched p w) (hs : w.lookups.component.isStarted = false)
    (ht : w.lookups.tasks.find? id = some task) (hbusy : task.stage.isBusy = true) (hspared : task.cancelled = false)
    (hq : w.lookups.queue ≠ []) :
    ((w.step (.ask .stop)).step (.resume id task.turn .done)).starts = w.starts ∧
      ¬ w.lookups.queue <+: ((w.step (.ask .stop)).step (.resume id task.turn .done)).lookups.queue := by
  have hw := h.step (.ask .stop)
  have hlt := Tasks.lt_next_of_find? h.held.ordered ht
  have ht' : (w.step (.ask .stop)).lookups.tasks.find? id = some task := by
    obtain ⟨u, -, hstage, -, hc⟩ := h.held.ask_course .stop
    rw [hstage] at hc
    obtain ⟨-, heq⟩ | ⟨hstarted, -⟩ | ⟨hstarted, -⟩ := hc.of_stop
    · show (w.lookups.ask .stop).lookups.tasks.find? id = some task
      rw [heq, Tasks.find?_erase, if_neg (Nat.ne_of_lt hlt), Tasks.find?_spawn h.held.ordered, if_neg (Nat.ne_of_lt hlt), ht]
    · exact absurd (hs.symm.trans hstarted) nofun
    · exact absurd (hs.symm.trans hstarted) nofun
  have hqueue : (w.step (.ask .stop)).lookups.queue = w.lookups.queue := (h.ask_still .stop).1
  have hpos := List.length_pos_of_ne_nil hq
  rw [Watch.step_resume (hw.awaits_of_isBusy ht' hbusy)]
  refine ⟨rfl, fun hprefix => ?_⟩
  have hle : w.lookups.queue.length ≤ ((w.step (.ask .stop)).lookups.resume id task.turn .done).lookups.queue.length :=
    hprefix.length_le
  obtain ⟨job, hcons, -⟩ | ⟨hnil, -⟩ := (resume_course ht' hspared .done).of_isBusy hbusy
  · have hlength := congrArg List.length hcons
    rw [hqueue, List.length_cons] at hlength
    omega
  · rw [hnil, List.length_nil] at hle
    omega

/-- Some job can be made to wait, and a worker that has not run yet has still not run. -/
theorem exists_waits (h : Watched p w) (ht : w.lookups.tasks.find? id = some task) (hbegun : task.stage = .begun)
    (hspared : task.cancelled = false) : ∃ more task', (∀ now, .start now ∉ more) ∧ (w.after more).lookups.queue ≠ [] ∧
      (w.after more).lookups.component = w.lookups.component ∧ (w.after more).lookups.tasks.find? id = some task' ∧
      task'.stage = .begun ∧ task'.cancelled = false := by
  by_cases hq : w.lookups.queue = []
  · let job : LookupJob := ⟨"", ""⟩
    have hturned := h.held.enqueue_turned job
    refine ⟨[.enqueue job], ?_⟩
    cases ht' : (w.step (.enqueue job)).lookups.tasks.find? id with
    | none => exact absurd (hturned.gone id task ht ht') nofun
    | some task' =>
      obtain ⟨u, hu, hpasses⟩ := hturned.passes id task' ht'
      cases ht.symm.trans hu
      obtain ⟨-, hsame | ⟨hwaiting, -⟩⟩ | ⟨hmine, -⟩ := hpasses.moved
      · refine ⟨task', by simp, ?_, (enqueue_staff w.lookups job).2.2, ht', hsame.trans hbegun,
          (hpasses.spared rfl).trans hspared⟩
        have hroom : w.lookups.isFull = false := Bool.eq_false_iff.2 fun hfull => by
          have hlen := h.held.isFull_iff.1 hfull
          have hpos := h.held.capacity_pos
          rw [hq, List.length_nil] at hlen
          omega
        obtain ⟨line, tasks, acts, heq, -⟩ := enqueue_of_not_isFull hroom job
        show (w.lookups.enqueue job).2.lookups.queue ≠ []
        rw [heq]
        exact List.append_ne_nil_of_right_ne_nil _ (List.cons_ne_nil _ _)
      · cases hbegun.symm.trans hwaiting
      · cases hmine
  · exact ⟨[], task, nofun, hq, rfl, ht, hbegun, hspared⟩

/-- **A stop that a start has crossed forgets the workers of that start**: later, with no start in between, a job is taken
after a call to stop. -/
theorem exists_unkept (h : Watched p w) (hr : Roused w.lookups w.heard) (htidy : w.lookups.Tidy)
    (hs : w.lookups.component.isStarted = false) (hstopping : w.lookups.isStopping = true) (now : Nat) :
    ∃ more moves, (∀ now, .start now ∉ more) ∧
      ((((w.step (.start now)).after more).step (.ask .stop)).after moves).starts =
        ((w.step (.start now)).after more).starts ∧
      ¬ ((w.step (.start now)).after more).lookups.queue <+:
        ((((w.step (.start now)).after more).step (.ask .stop)).after moves).lookups.queue := by
  have hord := h.held.ordered
  have hw := h.step (.start now)
  obtain ⟨stop, hlive, hstage⟩ := List.any_eq_true.1 hstopping
  cases hworkers : stop.stage with
  | called | begun | waiting | woken | resolving | joining => rw [hworkers] at hstage; cases hstage
  | stopping workers =>
    have ht := Tasks.find?_of_mem hord hlive
    -- No worker is left that the stop could wait for, and the new ones are others.
    have hsame : ∀ id, id < w.lookups.tasks.next →
        (w.step (.start now)).lookups.tasks.find? id = w.lookups.tasks.find? id := fun id hid => by
      obtain ⟨entries, heq⟩ := start_eq hord hs now
      rw [Watch.step_start hs, heq]
      exact (find?_hired id _ hord).trans (if_neg (by omega))
    have hgone : ∀ worker ∈ workers, (w.step (.start now)).lookups.tasks.find? worker = none := fun worker hworker => by
      rw [hsame worker (h.heard.stopping _ stop workers ht hworkers worker hworker)]
      cases hu : w.lookups.tasks.find? worker with
      | none => rfl
      | some u =>
        have hworker' := hr.staff _ stop workers ht hworkers worker hworker u hu
        exact absurd ((htidy.vacant hs worker u hu).symm.trans hworker') nofun
    have hlt := Tasks.lt_next_of_find? hord ht
    have hrested := resume_stopping (h.step_roused hr (.start now)) ((hsame _ hlt).trans ht) hworkers hgone
    have hbegun : ((w.step (.start now)).step (.resume stop.id stop.turn .done)).lookups.tasks.find? w.lookups.tasks.next =
        some { id := w.lookups.tasks.next, stage := .begun } := by
      rw [hrested]
      exact (Tasks.find?_erase _ _).trans ((if_neg (Nat.ne_of_gt hlt)).trans (h.find?_start hs now))
    have hw' := hw.step (.resume stop.id stop.turn .done)
    obtain ⟨more, task', hstarts, hq, hcomponent, ht', hstage', hspared'⟩ := hw'.exists_waits hbegun rfl rfl
    refine ⟨.resume stop.id stop.turn .done :: more, [.resume w.lookups.tasks.next task'.turn .done], ?_, ?_⟩
    · simpa using hstarts
    · refine (hw'.after more).taken_after_stop ?_ ht' (by rw [hstage']; rfl) hspared' hq
      rw [hcomponent, hrested]
      exact Component.isStarted_stop _

end Watched

/-! ## The first start that crosses a stop -/

namespace Watch

variable {w : Watch}

/-- Only a start that takes effect while a stop waits crosses it. -/
theorem step_crossed_iff (w : Watch) (m : Move) : (w.step m).crossed = true ↔ w.crossed = true ∨
    (∃ now, m = .start now) ∧ w.lookups.component.isStarted = false ∧ w.lookups.isStopping = true := by
  cases m with
  | enqueue | ask =>
    refine (or_iff_left fun h => ?_).symm
    obtain ⟨⟨now, hstart⟩, -⟩ := h
    cases hstart
  | resume | giveUp =>
    rw [Watch.step]
    split
    all_goals
      refine (or_iff_left fun h => ?_).symm
      obtain ⟨⟨now, hstart⟩, -⟩ := h
      cases hstart
  | start now =>
    cases hs : w.lookups.component.isStarted with
    | true =>
      rw [step_start_of_started hs]
      refine (or_iff_left fun h => ?_).symm
      cases h.2.1
    | false =>
      rw [step_start hs]
      show (w.crossed || w.lookups.isStopping) = true ↔ _
      rw [Bool.or_eq_true]
      exact or_congr_right ⟨fun h => ⟨⟨now, rfl⟩, rfl, h⟩, fun h => h.2.2⟩

theorem after_append (w : Watch) (before after : List Move) : w.after (before ++ after) = (w.after before).after after :=
  List.foldl_append

/-- What has been crossed stays so. -/
theorem crossed_of_after {moves : List Move} (h : (w.after moves).crossed = false) : w.crossed = false := by
  induction moves generalizing w with
  | nil => exact h
  | cons m moves ih =>
    refine Bool.eq_false_iff.2 fun hcrossed => Bool.eq_false_iff.1 (ih h) ?_
    exact (w.step_crossed_iff m).2 (.inl hcrossed)

theorem crossed_after {more : List Move} (hstarts : ∀ now, .start now ∉ more) (h : w.crossed = false) :
    (w.after more).crossed = false := by
  induction more generalizing w with
  | nil => exact h
  | cons m more ih =>
    refine ih (fun now hmem => hstarts now (List.mem_cons_of_mem _ hmem)) (Bool.eq_false_iff.2 fun hcrossed => ?_)
    obtain hcrossed | ⟨⟨now, rfl⟩, -⟩ := (w.step_crossed_iff m).1 hcrossed
    · exact Bool.eq_false_iff.1 h hcrossed
    · exact hstarts now List.mem_cons_self

theorem exists_crossing {moves : List Move} (h : w.crossed = false) (hcrossed : (w.after moves).crossed = true) :
    ∃ before now, before ++ [.start now] <+: moves ∧ (w.after before).crossed = false ∧
      (w.after before).lookups.component.isStarted = false ∧ (w.after before).lookups.isStopping = true := by
  induction moves generalizing w with
  | nil => exact absurd (h.symm.trans hcrossed) nofun
  | cons m moves ih =>
    cases hstep : (w.step m).crossed with
    | true =>
      obtain hbefore | ⟨⟨now, rfl⟩, hs, hstopping⟩ := (w.step_crossed_iff m).1 hstep
      · exact absurd (h.symm.trans hbefore) nofun
      · exact ⟨[], now, ⟨moves, rfl⟩, h, hs, hstopping⟩
    | false =>
      obtain ⟨before, now, hprefix, hrest⟩ := ih hstep hcrossed
      exact ⟨m :: before, now, List.cons_prefix_cons.2 ⟨rfl, hprefix⟩, hrest⟩

end Watch

end PoolFeed.Lookups
