import PoolFeed.Proofs.Lookups.Waking

/-!
# What has been heard

In every run, whatever a task waits for has been asked for, nobody is woken at a turn that is to come, and a stop is woken
only when the workers that it waits for are gone (`Heard`, `Watched.after`).
-/

namespace PoolFeed.Lookups

/-! ## What has been heard -/

/-- What all that was said tells of the tasks. -/
structure Heard (l : Lookups) (heard : List Action) : Prop where
  past : ∀ a ∈ heard, ∀ id turn, a.subject? = some (id, turn) →
    id < l.tasks.next ∧ ∀ task, l.tasks.find? id = some task → turn ≤ task.turn
  calls : ∀ id turn job task, .resolve id turn job ∈ heard → l.tasks.find? id = some task → task.turn = turn →
    task.stage = .resolving job
  /-- A stop that has been woken waits for nobody any more. -/
  stops : ∀ id task workers, .wake id task.turn ∈ heard → l.tasks.find? id = some task → task.stage = .stopping workers →
    ∀ worker ∈ workers, l.tasks.find? worker = none
  announced : ∀ id task, l.tasks.find? id = some task → Announced heard task
  ended : ∀ id e, .ended id e ∈ heard → id < l.tasks.next ∧ l.tasks.find? id = none
  staff : ∀ id ∈ l.workers, id < l.tasks.next ∧ ∀ task, l.tasks.find? id = some task → task.stage.isWorker = true
  stopping : ∀ id task workers, l.tasks.find? id = some task → task.stage = .stopping workers →
    ∀ worker ∈ workers, worker < l.tasks.next

/-- Nobody is left at a call. -/
def Settled (l : Lookups) : Prop := ∀ id task c, l.tasks.find? id = some task → task.stage ≠ .called c

namespace Passes

variable {me : Option Nat} {stops : Option (List Nat)} {actions : List Action} {task task' : Task Stage}

theorem turn_le (h : Passes me stops actions task task') : task.turn ≤ task'.turn := by
  obtain ⟨heq, -⟩ | ⟨-, hlt, -⟩ := h.moved
  · exact Nat.le_of_eq heq.symm
  · exact Nat.le_of_lt hlt

/-- A task that has not come to another turn. -/
theorem of_turn_le (h : Passes me stops actions task task') (hle : task'.turn ≤ task.turn) : task'.turn = task.turn ∧
    (task'.stage = task.stage ∨ (task.stage = .waiting ∧ task'.stage = .woken ∧ .wake task.id task.turn ∈ actions)) := by
  obtain hstays | ⟨-, hlt, -⟩ := h.moved
  · exact hstays
  · omega

/-- A stop stays where it is, or has just begun. -/
theorem stopping (h : Passes me stops actions task task') {workers : List Nat} (hs : task'.stage = .stopping workers) :
    task.stage = .stopping workers ∨ stops = some workers := by
  obtain ⟨-, hsame | ⟨-, hwoken, -⟩⟩ | ⟨-, -, -, -, hstops⟩ := h.moved
  · exact .inl (hsame ▸ hs)
  · rw [hs] at hwoken
    cases hwoken
  · exact .inr (hstops workers hs)

end Passes

namespace Heard

variable {l : Lookups} {heard : List Action} {t : Turn} {me : Option Nat} {stops : Option (List Nat)}

/-- A turn is taken. -/
theorem turned (h : Heard l heard) (hord : l.tasks.Ordered) (ht : Turned l me stops t)
    (hworkers : ∀ id ∈ t.lookups.workers, id ∈ l.workers) (hstops : ∀ workers, stops = some workers → workers = l.workers) :
    Heard t.lookups (heard ++ t.actions) where
  past a ha id turn hsubject := by
    have hlt : ∀ task, t.lookups.tasks.find? id = some task → id < t.lookups.tasks.next := fun task' ht' => by
      obtain ⟨task, htask, -⟩ := ht.passes id task' ht'
      exact ht.next ▸ Tasks.lt_next_of_find? hord htask
    rcases List.mem_append.1 ha with ha | ha
    · obtain ⟨hid, hturn⟩ := h.past a ha id turn hsubject
      refine ⟨ht.next ▸ hid, fun task' ht' => ?_⟩
      obtain ⟨task, htask, hpasses⟩ := ht.passes id task' ht'
      exact Nat.le_trans (hturn task htask) hpasses.turn_le
    · cases ht.told a ha with
      | log | ended => cases hsubject
      | wake hfind hturn | resolve hfind hturn =>
        cases hsubject
        refine ⟨hlt _ hfind, fun task' ht' => ?_⟩
        cases hfind.symm.trans ht'
        exact Nat.le_of_eq hturn.symm
  calls id turn job task' ha ht' hturn := by
    obtain ⟨task, htask, hpasses⟩ := ht.passes id task' ht'
    rcases List.mem_append.1 ha with ha | ha
    · have hle := (h.past _ ha id turn rfl).2 task htask
      obtain ⟨hsame, hstage | ⟨hwaiting, -⟩⟩ := hpasses.of_turn_le (hturn ▸ hle)
      · exact hstage.trans (h.calls id turn job task ha htask (hsame ▸ hturn))
      · have hresolving := h.calls id turn job task ha htask (hsame ▸ hturn)
        rw [hwaiting] at hresolving
        cases hresolving
    · cases ht.told _ ha with
      | resolve hfind _ hstage =>
        cases hfind.symm.trans ht'
        exact hstage
  stops id task' workers ha ht' hstage := by
    obtain ⟨task, htask, hpasses⟩ := ht.passes id task' ht'
    rcases List.mem_append.1 ha with ha | ha
    · obtain ⟨hturn, hsame | ⟨-, hwoken, -⟩⟩ := hpasses.of_turn_le ((h.past _ ha id _ rfl).2 task htask)
      · intro worker hworker
        have hgone := h.stops id task workers (hturn ▸ ha) htask (hsame ▸ hstage) worker hworker
        cases hworker' : t.lookups.tasks.find? worker with
        | none => rfl
        | some u =>
          obtain ⟨u', hu', -⟩ := ht.passes worker u hworker'
          cases hgone.symm.trans hu'
      · rw [hstage] at hwoken
        cases hwoken
    · cases ht.told _ ha with
      | wake hfind _ hready =>
        cases hfind.symm.trans ht'
        rwa [hstage] at hready
  announced id task' ht' := by
    obtain ⟨task, htask, hpasses⟩ := ht.passes id task' ht'
    have hold := h.announced id task htask
    have hid : task'.id = task.id := (Tasks.id_of_find? ht').trans (Tasks.id_of_find? htask).symm
    obtain ⟨hturn, hsame | ⟨-, hwoken, hwake⟩⟩ | ⟨-, -, hann, -⟩ := hpasses.moved
    · exact (hold.congr hid hturn hsame).append_left _
    · rw [← hid, ← hturn] at hwake
      refine ⟨fun _ => List.mem_append_right _ hwake, fun job hj => ?_⟩
      rw [hwoken] at hj
      cases hj
    · exact hann.append_right heard
  ended id e ha := by
    rcases List.mem_append.1 ha with ha | ha
    · obtain ⟨hid, hnone⟩ := h.ended id e ha
      refine ⟨ht.next ▸ hid, ?_⟩
      cases hfind : t.lookups.tasks.find? id with
      | none => rfl
      | some u =>
        obtain ⟨u', hu', -⟩ := ht.passes id u hfind
        cases hnone.symm.trans hu'
    · cases ht.told _ ha with
      | ended _ _ _ hnone hid => exact ⟨hid, hnone⟩
  staff id hid := by
    obtain ⟨hlt, hworker⟩ := h.staff id (hworkers id hid)
    refine ⟨ht.next ▸ hlt, fun task' ht' => ?_⟩
    obtain ⟨task, htask, hpasses⟩ := ht.passes id task' ht'
    exact hpasses.worker.trans (hworker task htask)
  stopping id task' workers ht' hstage worker hworker := by
    obtain ⟨task, htask, hpasses⟩ := ht.passes id task' ht'
    rw [ht.next]
    rcases hpasses.stopping hstage with hold | hnew
    · exact h.stopping id task workers htask hold worker hworker
    · exact (h.staff worker (hstops workers hnew ▸ hworker)).1

/-- Tasks are created, and some of them woken. -/
theorem grown (h : Heard l heard) {l' : Lookups} {actions : List Action}
    (hnext : l.tasks.next ≤ l'.tasks.next) (hsame : ∀ id, id < l.tasks.next → l'.tasks.find? id = l.tasks.find? id)
    (hnew : ∀ id task, l.tasks.next ≤ id → l'.tasks.find? id = some task →
      Announced actions task ∧ ∀ workers, task.stage ≠ .stopping workers)
    (hacts : ∀ a ∈ actions, (∃ e, a = .log e) ∨ ∃ id, a = .wake id 0 ∧ l.tasks.next ≤ id ∧ id < l'.tasks.next)
    (hstaff : ∀ id ∈ l'.workers, id < l'.tasks.next ∧ ∀ task, l'.tasks.find? id = some task → task.stage.isWorker = true) :
    Heard l' (heard ++ actions) where
  past a ha id turn hsubject := by
    rcases List.mem_append.1 ha with ha | ha
    · obtain ⟨hid, hturn⟩ := h.past a ha id turn hsubject
      exact ⟨Nat.lt_of_lt_of_le hid hnext, hsame id hid ▸ hturn⟩
    · obtain ⟨e, rfl⟩ | ⟨i, rfl, -, hi⟩ := hacts a ha
      · cases hsubject
      · cases hsubject
        exact ⟨hi, fun _ _ => Nat.zero_le _⟩
  calls id turn job task ha ht hturn := by
    rcases List.mem_append.1 ha with ha | ha
    · exact h.calls id turn job task ha (hsame id (h.past _ ha id turn rfl).1 ▸ ht) hturn
    · obtain ⟨e, he⟩ | ⟨i, hi, -⟩ := hacts _ ha
      · cases he
      · cases hi
  stops id task workers ha ht hstage worker hworker := by
    rcases List.mem_append.1 ha with ha | ha
    · have ht' := hsame id (h.past _ ha id _ rfl).1 ▸ ht
      rw [hsame worker (h.stopping id task workers ht' hstage worker hworker)]
      exact h.stops id task workers ha ht' hstage worker hworker
    · obtain ⟨e, he⟩ | ⟨i, hi, hge, -⟩ := hacts _ ha
      · cases he
      · obtain ⟨rfl, -⟩ := Action.wake.inj hi
        exact absurd hstage ((hnew _ task hge ht).2 workers)
  announced id task ht := by
    by_cases hid : id < l.tasks.next
    · exact (h.announced id task (hsame id hid ▸ ht)).append_left _
    · exact (hnew id task (Nat.le_of_not_lt hid) ht).1.append_right _
  ended id e ha := by
    rcases List.mem_append.1 ha with ha | ha
    · obtain ⟨hid, hnone⟩ := h.ended id e ha
      exact ⟨Nat.lt_of_lt_of_le hid hnext, (hsame id hid).trans hnone⟩
    · obtain ⟨e, he⟩ | ⟨i, hi, -⟩ := hacts _ ha
      · cases he
      · cases hi
  staff := hstaff
  stopping id task workers ht hstage worker hworker := by
    by_cases hid : id < l.tasks.next
    · exact Nat.lt_of_lt_of_le (h.stopping id task workers (hsame id hid ▸ ht) hstage worker hworker) hnext
    · exact absurd hstage ((hnew id task (Nat.le_of_not_lt hid) ht).2 workers)

end Heard

/-! ## The moves -/

namespace Held

variable {l : Lookups} {id : Nat}

theorem enqueue_turned (h : l.Held) (job : LookupJob) : Turned l none none (l.enqueue job).2 := by
  cases hfull : l.isFull with
  | true =>
    obtain ⟨-, hlookups, e, hacts⟩ := enqueue_of_isFull hfull job
    refine .of_eq (by rw [hlookups]) fun a ha => ?_
    rw [hacts] at ha
    rw [List.mem_singleton.1 ha]
    exact .log e
  | false =>
    cases hline : l.line with
    | nil =>
      rw [enqueue_of_line_nil hfull hline]
      exact .of_eq rfl nofun
    | cons first rest =>
      rw [enqueue_of_line_cons hfull hline]
      refine h.roused_turned hline none rfl (fun a ha => ha) fun a ha => ?_
      obtain ⟨i, hi, task, ht, rfl⟩ := mem_wakes.1 ha
      rw [List.mem_singleton.1 hi] at ht ⊢
      have hfind : (rouse l.tasks first).find? first = some { task with stage := .woken } := by
        rw [find?_rouse, if_pos rfl, ht, Option.map_some]
      exact .wake hfind rfl trivial

theorem resume_turned (h : l.Held) (hsettled : l.Settled)
    (hstaff : ∀ id ∈ l.workers, ∀ task, l.tasks.find? id = some task → task.stage.isWorker = true)
    (id turn : Nat) (o : Outcome) : Turned l (some id) none (l.resume id turn o) := by
  obtain ⟨heq, -⟩ | ⟨task, ht, -, ⟨-, -, hl⟩ | ⟨-, -, hc⟩⟩ := resume_cases l id turn o
  · rw [heq]
    exact .of_eq rfl nofun
  · exact h.leaves_turned ht hl
  · have hturned := h.course_turned ht hstaff hc
    have hnone : warned? l task.stage = none := by
      have hnot := hsettled id task
      cases hstage : task.stage with
      | called c => exact absurd hstage (hnot c ht)
      | begun | waiting | woken | resolving | stopping | joining => rfl
    rwa [hnone] at hturned

theorem giveUp_turned (h : l.Held) (hj : l.joins id = true) : Turned l (some id) none (l.giveUp id) := by
  obtain ⟨task, ht, hstage⟩ := stage_of_joins hj
  exact h.leaves_turned ht (hstage ▸ giveUp_leaves l id)

end Held

/-- A turn keeps the workers, or forgets them. -/
theorem Course.workers {l : Lookups} {me : Nat} {s : Stage} {o : Outcome} {t : Turn} (h : Course l me s o t) :
    t.lookups.workers = l.workers ∨ (t.lookups.workers = [] ∧
      ((∃ ws, s = .stopping ws) ∨ (s = .called .stop ∧ l.component.isStarted = true ∧ l.workers = []))) := by
  obtain ⟨completed, failed, hcredited, -⟩ := credited_eq l s o
  cases h with
  | takes | rests =>
    rw [hcredited]
    exact .inl rfl
  | waits | ends | joins | stops => exact .inl rfl
  | stopped _ hs => exact .inr ⟨rfl, hs⟩

/-- Only a stop that is over changes whether the lookups are started. -/
theorem Course.component {l : Lookups} {me : Nat} {s : Stage} {o : Outcome} {t : Turn} (h : Course l me s o t)
    (hs : (∀ workers, s ≠ .stopping workers) ∧ s ≠ .called .stop) : t.lookups.component = l.component := by
  obtain ⟨completed, failed, hcredited, -⟩ := credited_eq l s o
  cases h with
  | takes | rests => rw [hcredited]
  | waits | ends | joins | stops => rfl
  | stopped _ hstopping =>
    obtain ⟨ws, hstopping⟩ | ⟨hcalled, -⟩ := hstopping
    · exact absurd hstopping (hs.1 ws)
    · exact absurd hcalled hs.2

theorem Held.ask_join_component {l : Lookups} (h : l.Held) : (l.ask .join).lookups.component = l.component := by
  obtain ⟨task, -, hstage, -, hc⟩ := h.ask_course .join
  exact hc.component (hstage ▸ ⟨nofun, nofun⟩)

/-- To give up changes nothing about the workers that were created. -/
theorem Leaves.staff {l : Lookups} {me : Nat} {s : Stage} {t : Turn} (h : Leaves l me s t) :
    t.lookups.workers = l.workers ∧ t.lookups.workerCount = l.workerCount ∧ t.lookups.component = l.component := by
  cases h <;> exact ⟨rfl, rfl, rfl⟩

theorem Turned.settled {l : Lookups} {me : Option Nat} {stops : Option (List Nat)} {t : Turn}
    (ht : Turned l me stops t) (h : ∀ id task c, me ≠ some id → l.tasks.find? id = some task → task.stage ≠ .called c)
    (hme : ∀ id task task' c, me = some id → l.tasks.find? id = some task → t.lookups.tasks.find? id = some task' →
      task'.stage = task.stage → task'.stage ≠ .called c) : t.lookups.Settled := by
  intro id task' c ht'
  obtain ⟨task, htask, hpasses⟩ := ht.passes id task' ht'
  obtain ⟨-, hsame | ⟨-, hwoken, -⟩⟩ | ⟨-, -, -, hcalled, -⟩ := hpasses.moved
  · by_cases hid : me = some id
    · exact hme id task task' c hid htask ht' hsame
    · exact hsame ▸ h id task c hid htask
  · rw [hwoken]
    exact nofun
  · exact hcalled c

/-- A caller ends or waits. -/
theorem Course.not_called {l : Lookups} {me : Nat} {c : Call} {o : Outcome} {t : Turn} {task : Task Stage}
    (h : Course l me (.called c) o t) (ht : t.lookups.tasks.find? me = some task) : ∀ c', task.stage ≠ .called c' := by
  have hadvance : ∀ {ts : Tasks Stage} {s : Stage}, (ts.advance me s).find? me = some task → task.stage = s := fun hfind => by
    rw [Tasks.find?_advance, if_pos rfl] at hfind
    obtain ⟨u, -, rfl⟩ := Option.map_eq_some_iff.1 hfind
    rfl
  have herase : ∀ {ts : Tasks Stage}, (ts.erase me).find? me ≠ some task := fun hfind =>
    (Tasks.find?_of_erase hfind).1 rfl
  cases c with
  | stop =>
    obtain ⟨-, heq⟩ | ⟨-, -, heq⟩ | ⟨-, -, heq⟩ := h.of_stop <;> rw [heq] at ht
    · exact absurd ht herase
    · rw [hadvance ht]
      exact nofun
    · exact absurd ht herase
  | join =>
    obtain ⟨-, heq⟩ | heq := h.of_join <;> rw [heq] at ht
    · exact absurd ht herase
    · rw [hadvance ht]
      exact nofun

theorem enqueue_staff (l : Lookups) (job : LookupJob) : (l.enqueue job).2.lookups.workers = l.workers ∧
    (l.enqueue job).2.lookups.workerCount = l.workerCount ∧ (l.enqueue job).2.lookups.component = l.component := by
  cases hfull : l.isFull with
  | true =>
    rw [(enqueue_of_isFull hfull job).2.1]
    exact ⟨rfl, rfl, rfl⟩
  | false =>
    obtain ⟨line, tasks, acts, heq, -⟩ := enqueue_of_not_isFull hfull job
    rw [heq]
    exact ⟨rfl, rfl, rfl⟩

theorem resume_workers (l : Lookups) (id turn : Nat) (o : Outcome) :
    ∀ worker ∈ (l.resume id turn o).lookups.workers, worker ∈ l.workers := by
  obtain ⟨heq, -⟩ | ⟨task, -, -, ⟨-, -, hl⟩ | ⟨-, -, hc⟩⟩ := resume_cases l id turn o
  · rw [heq]
    exact fun _ hw => hw
  · rw [hl.staff.1]
    exact fun _ hw => hw
  · obtain hsame | ⟨hnil, -⟩ := hc.workers
    · rw [hsame]
      exact fun _ hw => hw
    · rw [hnil]
      exact nofun

/-- All that is kept along a run. -/
structure Watched (p : Plan) (w : Watch) : Prop extends Sound p w where
  heard : Heard w.lookups w.heard
  settled : w.lookups.Settled

theorem Plan.watched (p : Plan) : Watched p p.watch where
  toSound := p.sound
  heard := {
    past := nofun
    calls := nofun
    stops := nofun
    announced := nofun
    ended := nofun
    staff := nofun
    stopping := nofun }
  settled := nofun

namespace Watched

variable {p : Plan} {w : Watch}

theorem staffed (h : Watched p w) :
    ∀ id ∈ w.lookups.workers, ∀ task, w.lookups.tasks.find? id = some task → task.stage.isWorker = true :=
  fun id hid => (h.heard.staff id hid).2

/-- The workers have been created, and each of them woken. -/
theorem launched (h : Watched p w) (now : Nat) (entries : List Log.Entry) :
    Heard (w.lookups.launched now) (w.heard ++ (entries.map .log ++
      (List.range' w.lookups.tasks.next w.lookups.workerCount).map fun id => .wake id 0)) ∧
      (w.lookups.launched now).Settled := by
  have hord := h.held.ordered
  have hnext : (w.lookups.launched now).tasks.next = w.lookups.tasks.next + w.lookups.workerCount := hired_next _ _
  have hnew : ∀ id task, w.lookups.tasks.next ≤ id → (w.lookups.launched now).tasks.find? id = some task →
      id < w.lookups.tasks.next + w.lookups.workerCount ∧ task = { id := id, stage := .begun } := fun id task hid ht => by
    obtain ⟨-, hnew⟩ | hold := find?_launched hord now ht
    · exact hnew
    · cases (Tasks.find?_next hord hid).symm.trans hold
  refine ⟨h.heard.grown (by rw [hnext]; omega) (fun id hid => ?_) ?_ ?_ ?_, ?_⟩
  · exact (find?_hired id _ hord).trans (if_neg (by omega))
  · intro id task hid ht
    obtain ⟨hlt, rfl⟩ := hnew id task hid ht
    refine ⟨⟨fun _ => List.mem_append_right _ (List.mem_map.2 ⟨id, ?_, rfl⟩), nofun⟩, nofun⟩
    exact List.mem_range'_1.2 ⟨hid, hlt⟩
  · intro a ha
    rcases List.mem_append.1 ha with ha | ha
    · obtain ⟨e, -, rfl⟩ := List.mem_map.1 ha
      exact .inl ⟨e, rfl⟩
    · obtain ⟨id, hid, rfl⟩ := List.mem_map.1 ha
      obtain ⟨hge, hlt⟩ := List.mem_range'_1.1 hid
      exact .inr ⟨id, rfl, hge, hnext ▸ hlt⟩
  · intro id hid
    obtain ⟨hge, hlt⟩ := List.mem_range'_1.1 hid
    refine ⟨hnext ▸ hlt, fun task ht => ?_⟩
    obtain ⟨-, rfl⟩ := hnew id task hge ht
    rfl
  · intro id task c ht
    obtain ⟨-, -, rfl⟩ | hold := find?_launched hord now ht
    · exact nofun
    · exact h.settled id task c hold

/-- Someone has come to ask for something. -/
theorem spawn (h : Watched p w) (c : Call) :
    Heard { w.lookups with tasks := w.lookups.tasks.spawn (.called c) } w.heard := by
  have hord := h.held.ordered
  have hfind := fun id => Tasks.find?_spawn hord (.called c) id
  rw [← List.append_nil w.heard]
  refine h.heard.grown (Nat.le_succ _) (fun id hid => ?_) (fun id task hid ht => ?_) nofun fun id hid => ?_
  · exact (hfind id).trans (if_neg (Nat.ne_of_lt hid))
  · obtain ⟨-, rfl⟩ | hold := Tasks.find?_of_spawn hord ht
    · exact ⟨⟨nofun, nofun⟩, nofun⟩
    · cases (Tasks.find?_next hord hid).symm.trans hold
  · obtain ⟨hlt, hworker⟩ := h.heard.staff id hid
    refine ⟨Nat.lt_succ_of_lt hlt, fun task ht => hworker task ?_⟩
    exact ((hfind id).trans (if_neg (Nat.ne_of_lt hlt))).symm.trans ht

/-- The turn of a caller, seen from the lookups that it comes to. -/
theorem ask_turned (h : Watched p w) (c : Call) : Turned { w.lookups with tasks := w.lookups.tasks.spawn (.called c) }
    (some w.lookups.tasks.next) (warned? w.lookups (.called c)) (w.lookups.ask c) := by
  obtain ⟨task, ht, hstage, -, hc⟩ := h.held.ask_course c
  have hturned := (h.held.spawn c).course_turned ht (fun id hid => ((h.spawn c).staff id hid).2) hc
  rw [hstage] at hturned
  cases c <;> exact hturned

theorem ask (h : Watched p w) (c : Call) : Heard (w.lookups.ask c).lookups (w.heard ++ (w.lookups.ask c).actions) ∧
    (w.lookups.ask c).lookups.Settled := by
  have hturned := h.ask_turned c
  obtain ⟨task, ht, hstage, -, hc⟩ := h.held.ask_course c
  refine ⟨(h.spawn c).turned (h.held.spawn c).ordered hturned ?_ ?_, hturned.settled ?_ ?_⟩
  · obtain hsame | ⟨hnil, -⟩ := hc.workers
    · rw [hsame]
      exact fun _ hw => hw
    · rw [hnil]
      exact nofun
  · cases c with
    | stop => exact fun workers hw => (Option.some.inj hw).symm
    | join => exact nofun
  · intro id task' c' hid ht'
    rw [Tasks.find?_spawn h.held.ordered, if_neg fun heq => hid (by rw [heq])] at ht'
    exact h.settled id task' c' ht'
  · rintro id task₁ task' c' hid ht₁ ht' hsame
    cases hid
    cases ht.symm.trans ht₁
    exact (hstage ▸ hc).not_called ht' c'

/-- A turn that is no call. -/
theorem turned (h : Watched p w) {me : Option Nat} {t : Turn} (ht : Turned w.lookups me none t)
    (hworkers : ∀ id ∈ t.lookups.workers, id ∈ w.lookups.workers) :
    Heard t.lookups (w.heard ++ t.actions) ∧ t.lookups.Settled := by
  refine ⟨h.heard.turned h.held.ordered ht hworkers nofun, ht.settled ?_ ?_⟩
  · exact fun id task c _ hfind => h.settled id task c hfind
  · exact fun id task task' c _ hfind _ hsame => hsame ▸ h.settled id task c hfind

theorem step_heard (h : Watched p w) (m : Move) :
    Heard (w.step m).lookups (w.step m).heard ∧ (w.step m).lookups.Settled := by
  cases m with
  | enqueue job =>
    refine h.turned (h.held.enqueue_turned job) ?_
    rw [(enqueue_staff w.lookups job).1]
    exact fun _ hw => hw
  | start now =>
    cases hs : w.lookups.component.isStarted with
    | true =>
      rw [Watch.step_start_of_started hs]
      exact ⟨h.heard, h.settled⟩
    | false =>
      obtain ⟨entries, heq⟩ := start_eq h.held.ordered hs now
      rw [Watch.step_start hs, heq]
      exact h.launched now entries
  | ask c => exact h.ask c
  | resume id turn o =>
    rw [Watch.step]
    split
    · exact h.turned (h.held.resume_turned h.settled h.staffed id turn o) (resume_workers _ _ _ _)
    · exact ⟨h.heard, h.settled⟩
  | giveUp id =>
    rw [Watch.step]
    split
    · refine h.turned (h.held.giveUp_turned ‹_›) ?_
      rw [(Held.giveUp_leaves w.lookups id).staff.1]
      exact fun _ hw => hw
    · exact ⟨h.heard, h.settled⟩

/-- **Every move keeps what is known of the tasks.** -/
theorem step (h : Watched p w) (m : Move) : Watched p (w.step m) :=
  ⟨h.toSound.step m, (h.step_heard m).1, (h.step_heard m).2⟩

theorem after (h : Watched p w) (moves : List Move) : Watched p (w.after moves) := by
  induction moves generalizing w with
  | nil => exact h
  | cons m moves ih => exact ih (h.step m)

end Watched

end PoolFeed.Lookups
