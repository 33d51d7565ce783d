import Mathlib.Data.List.Perm.Subperm
import PoolFeed.Proofs.Lookups.Hearing

/-!
# Stopping

As long as no start takes effect while a stop still waits, the workers that are there are those of the last start, and a
stop that waits has told them all to give up (`Tidy`). So no more jobs are resolved at once than there are workers
(`running_le`), and from the moment of a stop to the next start no job is begun or lost (`kept`).
-/

namespace PoolFeed.Lookups

/-- Every worker is one of the last start. -/
structure Tidy (l : Lookups) : Prop where
  listed : ∀ id task, l.tasks.find? id = some task → task.stage.isWorker = true → id ∈ l.workers
  length_le : l.workers.length ≤ l.workerCount
  vacant : l.component.isStarted = false → ∀ id task, l.tasks.find? id = some task → task.stage.isWorker = false
  /-- A stop waits for every worker that is there, and has told it to give up. -/
  told : ∀ id task workers, l.tasks.find? id = some task → task.stage = .stopping workers →
    ∀ i u, l.tasks.find? i = some u → u.stage.isWorker = true → u.cancelled = true ∧ i ∈ workers

/-- Every worker has been told to give up. -/
def Closed (l : Lookups) : Prop :=
  ∀ id task, l.tasks.find? id = some task → task.stage.isWorker = true → task.cancelled = true

/-- No stop waits for workers. -/
theorem ne_stopping {l : Lookups} (h : l.isStopping = false) {id : Nat} {task : Task Stage}
    (ht : l.tasks.find? id = some task) (workers : List Nat) : task.stage ≠ .stopping workers := by
  intro hs
  have hnot := List.any_eq_false.1 h task (Tasks.mem_of_find? ht)
  rw [hs] at hnot
  exact hnot rfl

theorem launched_ne_stopping {l : Lookups} (hord : l.tasks.Ordered) (h : l.isStopping = false) {now id : Nat}
    {task : Task Stage} (ht : (l.launched now).tasks.find? id = some task) (workers : List Nat) :
    task.stage ≠ .stopping workers := by
  obtain ⟨-, -, rfl⟩ | hold := find?_launched hord now ht
  · rintro ⟨⟩
  · exact ne_stopping h hold workers

/-! ## Few at once -/

theorem Tidy.running_le {l : Lookups} (h : l.Tidy) (hord : l.tasks.Ordered) : l.running ≤ l.workerCount := by
  have hnodup : ((l.tasks.among Stage.isResolving).map (·.id)).Nodup := (hord.among _).imp Nat.ne_of_lt
  have hsub : (l.tasks.among Stage.isResolving).map (·.id) ⊆ l.workers := by
    intro id hid
    obtain ⟨task, hmem, rfl⟩ := List.mem_map.1 hid
    obtain ⟨hlive, hresolving⟩ := Tasks.mem_among.1 hmem
    exact h.listed task.id task (Tasks.find?_of_mem hord hlive)
      (Stage.isWorker_of_isBusy (Stage.isBusy_of_isResolving hresolving))
  have hle := (hnodup.subperm hsub).length_le
  rw [List.length_map] at hle
  exact Nat.le_trans hle h.length_le

namespace Tidy

variable {l : Lookups} {t : Turn} {me : Nat} {o : Outcome} {task : Task Stage}

/-- Nobody has become a worker or begun to stop. -/
theorem of_sub (h : l.Tidy) {l' : Lookups} (hworkers : l'.workers = l.workers) (hcount : l'.workerCount = l.workerCount)
    (hcomponent : l'.component = l.component)
    (hsub : ∀ id task', l'.tasks.find? id = some task' → ∃ task, l.tasks.find? id = some task ∧
      (task'.stage.isWorker = true → task.stage.isWorker = true) ∧ (task.cancelled = true → task'.cancelled = true) ∧
      ∀ workers, task'.stage = .stopping workers → task.stage = .stopping workers) : l'.Tidy where
  listed id task' ht' hw := by
    obtain ⟨task, ht, hworker, -⟩ := hsub id task' ht'
    rw [hworkers]
    exact h.listed id task ht (hworker hw)
  length_le := by
    rw [hworkers, hcount]
    exact h.length_le
  vacant hs id task' ht' := by
    obtain ⟨task, ht, hworker, -⟩ := hsub id task' ht'
    exact Bool.eq_false_iff.2 fun hw => Bool.eq_false_iff.1 (h.vacant (hcomponent ▸ hs) id task ht) (hworker hw)
  told id task' workers ht' hstage i u' hu' hw := by
    obtain ⟨task, ht, -, -, hstopping⟩ := hsub id task' ht'
    obtain ⟨u, hu, hworker, hcancelled, -⟩ := hsub i u' hu'
    obtain ⟨hc, hmem⟩ := h.told id task workers ht (hstopping workers hstage) i u hu (hworker hw)
    exact ⟨hcancelled hc, hmem⟩

theorem turned (h : l.Tidy) {who : Option Nat} (ht : Turned l who none t) (hworkers : t.lookups.workers = l.workers)
    (hcount : t.lookups.workerCount = l.workerCount) (hcomponent : t.lookups.component = l.component) : t.lookups.Tidy := by
  refine h.of_sub hworkers hcount hcomponent fun id task' ht' => ?_
  obtain ⟨task, htask, hpasses⟩ := ht.passes id task' ht'
  refine ⟨task, htask, fun hw => hpasses.worker ▸ hw, hpasses.cancelled, fun workers hs => ?_⟩
  exact (hpasses.stopping hs).resolve_right nofun

/-- A stop is over, and no worker is left. -/
theorem rested (hnone : ∀ id task, l.tasks.find? id = some task → task.stage.isWorker = false) :
    (l.rested me).Tidy := by
  have hstill : ∀ id task, (l.rested me).tasks.find? id = some task → task.stage.isWorker = false :=
    fun id task ht => hnone id task (Tasks.find?_of_erase ht).2
  exact {
    listed := fun id task ht hw => absurd ((hstill id task ht).symm.trans hw) nofun
    length_le := Nat.zero_le _
    vacant := fun _ => hstill
    told := fun _ _ _ _ _ i u hu hw => absurd ((hstill i u hu).symm.trans hw) nofun }

theorem find?_halted (l : Lookups) (me id : Nat) {task : Task Stage} (ht : (l.halted me).tasks.find? id = some task) :
    (id = me ∧ task.stage = .stopping l.workers) ∨ ∃ u, l.tasks.find? id = some u ∧ task.stage = u.stage ∧
      (task.cancelled = false → id ∉ doomed l) := by
  have hfind : ((cancelAll l.tasks (doomed l)).advance me (.stopping l.workers)).find? id = some task := ht
  rw [Tasks.find?_advance, find?_cancelAll] at hfind
  split at hfind
  · obtain ⟨u, -, rfl⟩ := Option.map_eq_some_iff.1 hfind
    exact .inl ⟨‹_›, rfl⟩
  · split at hfind
    · obtain ⟨u, hu, rfl⟩ := Option.map_eq_some_iff.1 hfind
      exact .inr ⟨u, hu, rfl, nofun⟩
    · exact .inr ⟨task, hfind, rfl, fun _ => ‹_›⟩

/-- A stop tells all workers to give up. -/
theorem halted_closed (h : l.Tidy) (me : Nat) : (l.halted me).Closed := by
  intro id task ht hw
  obtain ⟨-, hstage⟩ | ⟨u, hu, hstage, hspared⟩ := find?_halted l me id ht
  · rw [hstage] at hw
    cases hw
  · rw [hstage] at hw
    cases hc : task.cancelled with
    | true => rfl
    | false =>
      refine absurd (List.mem_filter.2 ⟨h.listed id u hu hw, ?_⟩) (hspared hc)
      rw [Tasks.isLive, hu]
      rfl

theorem halted (h : l.Tidy) (me : Nat) (hstarted : l.component.isStarted = true) : (l.halted me).Tidy where
  listed id task ht hw := by
    obtain ⟨-, hstage⟩ | ⟨u, hu, hstage, -⟩ := find?_halted l me id ht
    · rw [hstage] at hw
      cases hw
    · exact h.listed id u hu (hstage ▸ hw)
  length_le := h.length_le
  vacant hs := absurd (hs.symm.trans hstarted) nofun
  told id task workers ht hs i u' hu' hw := by
    refine ⟨h.halted_closed me i u' hu' hw, ?_⟩
    obtain ⟨-, hstage⟩ | ⟨u, hu, hstage, -⟩ := find?_halted l me i hu'
    · rw [hstage] at hw
      cases hw
    · rw [hstage] at hw
      obtain ⟨-, hmine⟩ | ⟨v, hv, hold, -⟩ := find?_halted l me id ht
      · cases hmine.symm.trans hs
        exact h.listed i u hu hw
      · exact (h.told id v workers hv (hold ▸ hs) i u hu hw).2

/-- A task goes on; a stop goes on only when the workers that it waits for are gone. -/
theorem course (h : l.Tidy) (ht : l.tasks.find? me = some task) (hc : Course l me task.stage o t)
    (hgone : ∀ workers, task.stage = .stopping workers → ∀ worker ∈ workers, l.tasks.find? worker = none) :
    t.lookups.Tidy := by
  obtain ⟨completed, failed, hcredited, -⟩ := credited_eq l task.stage o
  have hadvance : ∀ {l' : Lookups} {s : Stage}, l'.tasks = l.tasks.advance me s → l'.workers = l.workers →
      l'.workerCount = l.workerCount → l'.component = l.component → s.isWorker = task.stage.isWorker →
      (∀ workers, s ≠ .stopping workers) → l'.Tidy := fun hts hworkers hcount hcomponent hw hs => by
    refine h.of_sub hworkers hcount hcomponent fun id task' ht' => ?_
    rw [hts, Tasks.find?_advance] at ht'
    split at ht'
    · rename_i hid
      rw [hid, ht, Option.map_some] at ht'
      cases ht'
      exact ⟨task, hid ▸ ht, fun hw' => hw ▸ hw', fun hc => hc, fun workers hs' => absurd hs' (hs workers)⟩
    · exact ⟨task', ht', fun hw => hw, fun hc => hc, fun _ hs => hs⟩
  have herase : Tidy { l with tasks := l.tasks.erase me } := by
    refine h.of_sub rfl rfl rfl fun id task' ht' => ?_
    exact ⟨task', (Tasks.find?_of_erase ht').2, fun hw => hw, fun hc => hc, fun _ hs => hs⟩
  cases hc with
  | takes job rest hs hq hr _ =>
    rw [hcredited]
    exact hadvance rfl rfl rfl rfl (Stage.isWorker_of_isBusy hs).symm nofun
  | rests hs hdry _ =>
    rw [hcredited]
    exact hadvance rfl rfl rfl rfl (Stage.isWorker_of_isBusy hs).symm nofun
  | waits _ => exact h
  | ends _ => exact herase
  | joins hs _ => exact hadvance rfl rfl rfl rfl (by rw [hs]; rfl) nofun
  | stops _ hstarted _ => exact h.halted me hstarted
  | stopped _ hs =>
    refine rested fun id u hu => Bool.eq_false_iff.2 fun hw => ?_
    obtain ⟨workers, hs⟩ | ⟨-, -, hnil⟩ := hs
    · have hmem := (h.told me task workers ht hs id u hu hw).2
      exact absurd (hgone workers hs id hmem) (by rw [hu]; exact nofun)
    · have hmem := h.listed id u hu hw
      rw [hnil] at hmem
      cases hmem

/-- Someone has come to ask for something. -/
theorem spawn (h : l.Tidy) (hord : l.tasks.Ordered) (c : Call) : Tidy { l with tasks := l.tasks.spawn (.called c) } := by
  have hold : ∀ id task, (l.tasks.spawn (.called c)).find? id = some task →
      task.stage = .called c ∨ l.tasks.find? id = some task := fun id task ht => by
    obtain ⟨-, rfl⟩ | hold := Tasks.find?_of_spawn hord ht
    · exact .inl rfl
    · exact .inr hold
  have hworker : ∀ id task, (l.tasks.spawn (.called c)).find? id = some task → task.stage.isWorker = true →
      l.tasks.find? id = some task := fun id task ht hw => (hold id task ht).resolve_left fun hs => by
    rw [hs] at hw
    cases hw
  exact {
    listed := fun id task ht hw => h.listed id task (hworker id task ht hw) hw
    length_le := h.length_le
    vacant := fun hs id task ht => Bool.eq_false_iff.2 fun hw =>
      Bool.eq_false_iff.1 (h.vacant hs id task (hworker id task ht hw)) hw
    told := fun id task workers ht hs i u hu hw => by
      have ht' := (hold id task ht).resolve_left (by rw [hs]; exact nofun)
      exact h.told id task workers ht' hs i u (hworker i u hu hw) hw }

/-- The workers have been created, with no other worker left and no stop under way. -/
theorem launched (h : l.Tidy) (hord : l.tasks.Ordered) (hs : l.component.isStarted = false)
    (hnone : l.isStopping = false) (now : Nat) : (l.launched now).Tidy := by
  refine ⟨fun id task ht hw => ?_, Nat.le_of_eq List.length_range', fun hs' => ?_, fun id task workers ht hstage => ?_⟩
  · obtain ⟨hge, hlt, -⟩ | hold := find?_launched hord now ht
    · exact List.mem_range'_1.2 ⟨hge, hlt⟩
    · exact absurd ((h.vacant hs id task hold).symm.trans hw) nofun
  · exact absurd (hs'.symm.trans (launched_started l now)) nofun
  · obtain ⟨-, -, rfl⟩ | hold := find?_launched hord now ht
    · cases hstage
    · exact absurd hstage (ne_stopping hnone hold workers)

end Tidy

namespace Watched

variable {p : Plan} {w : Watch}

/-- A stop that is resumed waits for nobody any more. -/
theorem gone_of_awaits (h : Watched p w) {id turn : Nat} {task : Task Stage} (ht : w.lookups.tasks.find? id = some task)
    (hturn : task.turn = turn) (hawaits : w.awaits id turn = true) {workers : List Nat}
    (hs : task.stage = .stopping workers) : ∀ worker ∈ workers, w.lookups.tasks.find? worker = none := by
  obtain ⟨a, ha, hsubject⟩ := List.any_eq_true.1 hawaits
  rw [decide_eq_true_eq] at hsubject
  cases a with
  | log | ended => cases hsubject
  | wake =>
    cases hsubject
    exact h.heard.stops _ task workers (hturn ▸ ha) ht hs
  | resolve =>
    cases hsubject
    cases hs.symm.trans (h.heard.calls _ _ _ task ha ht hturn)

/-- **Every move keeps the workers those of the last start**, unless it is a start that crosses a stop. -/
theorem step_tidy (h : Watched p w) (htidy : w.crossed = false → w.lookups.Tidy) (m : Move) :
    (w.step m).crossed = false → (w.step m).lookups.Tidy := by
  cases m with
  | enqueue job =>
    intro hcrossed
    obtain ⟨hworkers, hcount, hcomponent⟩ := enqueue_staff w.lookups job
    exact (htidy hcrossed).turned (h.held.enqueue_turned job) hworkers hcount hcomponent
  | start now =>
    cases hs : w.lookups.component.isStarted with
    | true =>
      rw [Watch.step_start_of_started hs]
      exact htidy
    | false =>
      obtain ⟨entries, heq⟩ := start_eq h.held.ordered hs now
      rw [Watch.step_start hs, heq]
      intro hcrossed
      obtain ⟨hbefore, hnone⟩ := Bool.or_eq_false_iff.1 hcrossed
      exact (htidy hbefore).launched h.held.ordered hs hnone now
  | ask c =>
    intro hcrossed
    obtain ⟨task, ht, hstage, -, hc⟩ := h.held.ask_course c
    exact ((htidy hcrossed).spawn h.held.ordered c).course ht hc fun workers hs => by
      rw [hstage] at hs
      cases hs
  | resume id turn o =>
    rw [Watch.step]
    split
    · rename_i hawaits
      intro hcrossed
      have hturned := h.held.resume_turned h.settled h.staffed id turn o
      obtain ⟨heq, -⟩ | ⟨task, ht, hturn, ⟨-, -, hl⟩ | ⟨-, -, hc⟩⟩ := resume_cases w.lookups id turn o
      · rw [heq]
        exact htidy hcrossed
      · exact (htidy hcrossed).turned hturned hl.staff.1 hl.staff.2.1 hl.staff.2.2
      · exact (htidy hcrossed).course ht hc fun workers hs => h.gone_of_awaits ht hturn hawaits hs
    · exact htidy
  | giveUp id =>
    rw [Watch.step]
    split
    · rename_i hj
      intro hcrossed
      have hl := Held.giveUp_leaves w.lookups id
      exact (htidy hcrossed).turned (h.held.giveUp_turned hj) hl.staff.1 hl.staff.2.1 hl.staff.2.2
    · exact htidy

theorem after_tidy (h : Watched p w) (htidy : w.crossed = false → w.lookups.Tidy) (moves : List Move) :
    (w.after moves).crossed = false → (w.after moves).lookups.Tidy := by
  induction moves generalizing w with
  | nil => exact htidy
  | cons m moves ih => exact ih (h.step m) (h.step_tidy htidy m)

end Watched

theorem Plan.tidy (p : Plan) : p.watch.lookups.Tidy where
  listed := nofun
  length_le := Nat.zero_le _
  vacant _ := nofun
  told := nofun

/-! ## From a stop to the next start -/

theorem Closed.turned {l : Lookups} (h : l.Closed) {who : Option Nat} {stops : Option (List Nat)} {t : Turn}
    (ht : Turned l who stops t) : t.lookups.Closed := by
  intro id task' ht' hw
  obtain ⟨task, htask, hpasses⟩ := ht.passes id task' ht'
  exact hpasses.cancelled (h id task htask (hpasses.worker ▸ hw))

/-- Only a worker that goes on takes a job. -/
theorem Course.still {l : Lookups} {me : Nat} {s : Stage} {o : Outcome} {t : Turn} (h : Course l me s o t)
    (hs : s.isBusy = false) : t.lookups.queue = l.queue ∧ begunIn t.actions = [] := by
  cases h with
  | takes _ _ hbusy | rests hbusy => exact absurd (hs.symm.trans hbusy) nofun
  | waits | joins => exact ⟨rfl, rfl⟩
  | ends => exact ⟨rfl, begunIn_farewell _ _ _⟩
  | stops =>
    refine ⟨rfl, ?_⟩
    split <;> simp
  | stopped entries => exact ⟨rfl, by rw [begunIn_append, begunIn_logs, begunIn_farewell, List.nil_append]⟩

theorem Leaves.still {l : Lookups} {me : Nat} {s : Stage} {t : Turn} (h : Leaves l me s t) :
    t.lookups.queue = l.queue ∧ begunIn t.actions = [] := by
  cases h with
  | breaks _ hacts => exact ⟨rfl, by rw [begunIn_append, hacts.begunIn, begunIn_farewell, List.nil_append]⟩
  | passes => exact ⟨rfl, by rw [begunIn_append, begunIn_wakes, begunIn_farewell, List.nil_append]⟩
  | goes => exact ⟨rfl, begunIn_farewell _ _ _⟩

namespace Watched

variable {p : Plan} {w : Watch}

/-- Whether all workers have been told to give up, and no job was begun or lost since. -/
structure Rests (w w' : Watch) : Prop where
  closed : w'.lookups.Closed
  begun : w'.begun = w.begun
  queue : w.lookups.queue <+: w'.lookups.queue

theorem Rests.trans {w w' w'' : Watch} (h : Rests w w') (h' : Rests w' w'') : Rests w w'' :=
  ⟨h'.closed, h'.begun.trans h.begun, h.queue.trans h'.queue⟩

/-- A turn that takes no job. -/
theorem rests_took {w' : Watch} {t : Turn} (hclosed : t.lookups.Closed) (hqueue : w.lookups.queue <+: t.lookups.queue)
    (hacts : begunIn t.actions = []) (hlookups : w'.lookups = t.lookups) (hheard : w'.heard = w.heard ++ t.actions) :
    Rests w w' where
  closed := hlookups ▸ hclosed
  begun := by rw [Watch.begun, hheard, begunIn_append, hacts, List.append_nil]; rfl
  queue := hlookups ▸ hqueue

/-- What is asked for takes no job. -/
theorem ask_still (h : Watched p w) (c : Call) :
    (w.lookups.ask c).lookups.queue = w.lookups.queue ∧ begunIn (w.lookups.ask c).actions = [] := by
  obtain ⟨task, -, hstage, -, hc⟩ := h.held.ask_course c
  exact hc.still (by rw [hstage]; rfl)

theorem step_rests (h : Watched p w) (hclosed : w.lookups.Closed) (m : Move) (hstarts : (w.step m).starts = w.starts) :
    Rests w (w.step m) := by
  cases m with
  | enqueue job =>
    have hnew := hclosed.turned (h.held.enqueue_turned job)
    cases hfull : w.lookups.isFull with
    | true =>
      obtain ⟨-, hlookups, e, hacts⟩ := enqueue_of_isFull hfull job
      have hqueue : (w.lookups.enqueue job).2.lookups.queue = w.lookups.queue := by rw [hlookups]
      exact rests_took hnew (hqueue ▸ List.prefix_rfl) (by rw [hacts]; rfl) rfl rfl
    | false =>
      obtain ⟨line, tasks, acts, heq, hacts⟩ := enqueue_of_not_isFull hfull job
      exact rests_took hnew (by rw [heq]; exact List.prefix_append _ _) (by rw [heq]; exact hacts) rfl rfl
  | start now =>
    cases hs : w.lookups.component.isStarted with
    | true =>
      rw [Watch.step_start_of_started hs]
      exact ⟨hclosed, rfl, List.prefix_rfl⟩
    | false =>
      rw [Watch.step_start hs] at hstarts
      exact absurd hstarts (Nat.succ_ne_self _)
  | ask c =>
    obtain ⟨hqueue, hacts⟩ := h.ask_still c
    have hspawn : Closed { w.lookups with tasks := w.lookups.tasks.spawn (.called c) } := fun id task ht hw => by
      obtain ⟨-, rfl⟩ | hold := Tasks.find?_of_spawn h.held.ordered ht
      · cases hw
      · exact hclosed id task hold hw
    exact rests_took (hspawn.turned (h.ask_turned c)) (hqueue ▸ List.prefix_rfl) hacts rfl rfl
  | resume id turn o =>
    rw [Watch.step]
    split
    · have hnew := hclosed.turned (h.held.resume_turned h.settled h.staffed id turn o)
      obtain ⟨heq, -⟩ | ⟨task, ht, hturn, ⟨-, -, hl⟩ | ⟨hc, -, hcourse⟩⟩ := resume_cases w.lookups id turn o
      · have hqueue : (w.lookups.resume id turn o).lookups.queue = w.lookups.queue := by rw [heq]
        exact rests_took hnew (hqueue ▸ List.prefix_rfl) (by rw [heq]; rfl) rfl rfl
      · exact rests_took hnew (hl.still.1 ▸ List.prefix_rfl) hl.still.2 rfl rfl
      · have hidle : task.stage.isBusy = false := Bool.eq_false_iff.2 fun hbusy =>
          absurd (hc.symm.trans (hclosed id task ht (Stage.isWorker_of_isBusy hbusy))) Bool.false_ne_true
        exact rests_took hnew ((hcourse.still hidle).1 ▸ List.prefix_rfl) (hcourse.still hidle).2 rfl rfl
    · exact ⟨hclosed, rfl, List.prefix_rfl⟩
  | giveUp id =>
    rw [Watch.step]
    split
    · have hl := Held.giveUp_leaves w.lookups id
      exact rests_took (hclosed.turned (h.held.giveUp_turned ‹_›)) (hl.still.1 ▸ List.prefix_rfl) hl.still.2 rfl rfl
    · exact ⟨hclosed, rfl, List.prefix_rfl⟩

theorem starts_le_step (w : Watch) (m : Move) : w.starts ≤ (w.step m).starts := by
  cases m with
  | enqueue | ask => exact Nat.le_refl _
  | start =>
    rw [Watch.step]
    split
    · exact Nat.le_refl _
    · exact Nat.le_succ _
  | resume | giveUp =>
    rw [Watch.step]
    split <;> exact Nat.le_refl _

theorem starts_le_after (moves : List Move) : ∀ w : Watch, w.starts ≤ (w.after moves).starts := by
  induction moves with
  | nil => exact fun _ => Nat.le_refl _
  | cons m moves ih => exact fun w => Nat.le_trans (starts_le_step w m) (ih (w.step m))

theorem after_rests (h : Watched p w) (hclosed : w.lookups.Closed) (moves : List Move)
    (hstarts : (w.after moves).starts = w.starts) : Rests w (w.after moves) := by
  induction moves generalizing w with
  | nil => exact ⟨hclosed, rfl, List.prefix_rfl⟩
  | cons m moves ih =>
    have hstep := starts_le_step w m
    have hafter := starts_le_after moves (w.step m)
    have hfirst := h.step_rests hclosed m (by
      rw [Watch.after, List.foldl_cons, ← Watch.after] at hstarts
      omega)
    refine hfirst.trans (ih (h.step m) hfirst.closed ?_)
    rw [Watch.after, List.foldl_cons, ← Watch.after] at hstarts
    omega

/-- A stop tells every worker to give up, or there is none. -/
theorem ask_stop_closed (h : Watched p w) (htidy : w.lookups.Tidy) : (w.lookups.ask .stop).lookups.Closed := by
  have hspawn := htidy.spawn h.held.ordered .stop
  obtain ⟨task, ht, hstage, -, hc⟩ := h.held.ask_course .stop
  have herase : (∀ id u, (w.lookups.tasks.spawn (.called .stop)).find? id = some u → u.stage.isWorker = false) →
      ∀ id u, ((w.lookups.tasks.spawn (.called .stop)).erase w.lookups.tasks.next).find? id = some u →
        u.stage.isWorker = true → u.cancelled = true :=
    fun hnone id u hu hw => absurd ((hnone id u (Tasks.find?_of_erase hu).2).symm.trans hw) nofun
  rw [hstage] at hc
  obtain ⟨hstopped, heq⟩ | ⟨-, -, heq⟩ | ⟨-, hnil, heq⟩ := hc.of_stop <;> rw [heq]
  · exact herase (hspawn.vacant hstopped)
  · exact hspawn.halted_closed _
  · refine herase fun id u hu => Bool.eq_false_iff.2 fun hw => ?_
    have hmem := hspawn.listed id u hu hw
    rw [hnil] at hmem
    cases hmem

/-- **No job is begun or lost from a stop to the next start.** -/
theorem kept (h : Watched p w) (htidy : w.lookups.Tidy) (moves : List Move)
    (hstarts : ((w.step (.ask .stop)).after moves).starts = w.starts) :
    ((w.step (.ask .stop)).after moves).begun = w.begun ∧
      w.lookups.queue <+: ((w.step (.ask .stop)).after moves).lookups.queue := by
  obtain ⟨hqueue, hacts⟩ := h.ask_still .stop
  have hfirst : Rests w (w.step (.ask .stop)) :=
    rests_took (h.ask_stop_closed htidy) (hqueue ▸ List.prefix_rfl) hacts rfl rfl
  have hrests := hfirst.trans ((h.step (.ask .stop)).after_rests hfirst.closed moves hstarts)
  exact ⟨hrests.begun, hrests.queue⟩

end Watched

end PoolFeed.Lookups
