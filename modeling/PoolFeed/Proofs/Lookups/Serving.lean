import Mathlib.Data.Nat.Pairing
import PoolFeed.Proofs.Lookups.Stopping

/-!
# Serving

After a start, as long as nobody asks to stop, the workers stay and none is told to give up (`Manned`). Whenever a job
waits, one of them is due: it has been woken, or the resolver has been called for it (`exists_due`). So, if whoever is due
is resumed at some time, every job that was accepted is taken, begun and done with (`served`).
-/

namespace PoolFeed.Lookups

/-- Workers are there, and none of them has been told to give up. -/
structure Manned (l : Lookups) (v : Nat) : Prop where
  worker : ∃ task, l.tasks.find? v = some task ∧ task.stage.isWorker = true
  spared : ∀ id task, l.tasks.find? id = some task → task.stage.isWorker = true → task.cancelled = false

/-- What a move makes of the tasks, while nobody tells the workers to give up. -/
structure Stride (l l' : Lookups) (who : Option Nat) : Prop where
  passes : ∀ id task', l'.tasks.find? id = some task' →
    (∃ task actions, l.tasks.find? id = some task ∧ Passes who none actions task task') ∨
      (l.tasks.next ≤ id ∧ task'.cancelled = false)
  gone : ∀ id task, l.tasks.find? id = some task → l'.tasks.find? id = none → who = some id

theorem Turned.stride {l : Lookups} {who : Option Nat} {t : Turn} (h : Turned l who none t) : Stride l t.lookups who where
  passes id task' ht' := by
    obtain ⟨task, ht, hpasses⟩ := h.passes id task' ht'
    exact .inl ⟨task, t.actions, ht, hpasses⟩
  gone := h.gone

/-- Workers are created. -/
theorem launched_stride {l : Lookups} (hord : l.tasks.Ordered) (now : Nat) : Stride l (l.launched now) none where
  passes id task' ht' := by
    obtain ⟨hge, -, rfl⟩ | hold := find?_launched hord now ht'
    · exact .inr ⟨hge, rfl⟩
    · exact .inl ⟨task', [], hold, .refl _ _ _ _⟩
  gone id task ht hnone := by
    have hlt := Tasks.lt_next_of_find? hord ht
    have hsame : (l.launched now).tasks.find? id = l.tasks.find? id := (find?_hired id _ hord).trans (if_neg (by omega))
    cases ht.symm.trans (hsame.symm.trans hnone)

theorem Stride.refl (l : Lookups) (who : Option Nat) : Stride l l who where
  passes id task' ht' := .inl ⟨task', [], ht', .refl _ _ _ _⟩
  gone id task ht hnone := by cases ht.symm.trans hnone

theorem Stride.nobodys {l l' : Lookups} {P : Nat → Task Stage → Prop} (h : Stride l l' none) :
    ∃ who, Stride l l' who ∧ ∀ id task, who = some id → l.tasks.find? id = some task → P id task :=
  ⟨none, h, nofun⟩

/-- A worker that goes on stays. -/
theorem Course.stays {l : Lookups} {me : Nat} {o : Outcome} {t : Turn} {task : Task Stage}
    (h : Course l me task.stage o t) (ht : l.tasks.find? me = some task) (hw : task.stage.isWorker = true) :
    t.lookups.tasks.find? me ≠ none := by
  rcases Stage.waiting_or_isBusy hw with hwaiting | hbusy
  · rw [hwaiting] at h
    rw [h.of_waiting, ht]
    exact nofun
  · obtain ⟨job, -, htasks⟩ | ⟨-, htasks⟩ := h.of_isBusy hbusy <;>
      · rw [htasks, Tasks.find?_advance_self ht]
        exact nofun

namespace Watched

variable {p : Plan} {w : Watch} {v : Nat}

/-- Whoever asks to be told when no job is left is new. -/
theorem ask_join_stride (h : Watched p w) :
    Stride w.lookups (w.step (.ask .join)).lookups (some w.lookups.tasks.next) where
  passes id task' ht' := by
    obtain ⟨task, ht, hpasses⟩ := (h.ask_turned .join).passes id task' ht'
    obtain ⟨hid, rfl⟩ | hold := Tasks.find?_of_spawn h.held.ordered ht
    · exact .inr ⟨Nat.le_of_eq hid.symm, hpasses.spared rfl⟩
    · exact .inl ⟨task, _, hold, hpasses⟩
  gone id task ht hnone := by
    have hne := Nat.ne_of_lt (Tasks.lt_next_of_find? h.held.ordered ht)
    exact (h.ask_turned .join).gone id task (by rw [Tasks.find?_spawn h.held.ordered, if_neg hne, ht]) hnone

/-- A move that is not a stop is a stride of one task: it has been resumed, or has given up waiting for the end of all
jobs. -/
theorem step_stride (h : Watched p w) (m : Move) (hstop : m ≠ .ask .stop) :
    ∃ who, Stride w.lookups (w.step m).lookups who ∧ ∀ id task, who = some id → w.lookups.tasks.find? id = some task →
      (∃ o, m = .resume id task.turn o) ∨ task.stage = .joining := by
  cases m with
  | enqueue job => exact (h.held.enqueue_turned job).stride.nobodys
  | start now =>
    cases hs : w.lookups.component.isStarted with
    | true =>
      rw [Watch.step_start_of_started hs]
      exact (Stride.refl _ _).nobodys
    | false =>
      obtain ⟨entries, heq⟩ := start_eq h.held.ordered hs now
      rw [Watch.step_start hs, heq]
      exact (launched_stride h.held.ordered now).nobodys
  | ask c =>
    cases c with
    | stop => exact absurd rfl hstop
    | join =>
      refine ⟨some w.lookups.tasks.next, h.ask_join_stride, fun id task hid ht => ?_⟩
      cases hid
      rw [Tasks.find?_next h.held.ordered (Nat.le_refl _)] at ht
      cases ht
  | resume id turn o =>
    rw [Watch.step]
    split
    · have hturned := h.held.resume_turned h.settled h.staffed id turn o
      obtain ⟨heq, -⟩ | ⟨task, ht, hturn, -⟩ := resume_cases w.lookups id turn o
      · rw [Watch.took, heq]
        exact (Stride.refl _ _).nobodys
      · refine ⟨some id, hturned.stride, fun i u hi hu => .inl ⟨o, ?_⟩⟩
        cases hi
        cases ht.symm.trans hu
        rw [hturn]
    · exact (Stride.refl _ _).nobodys
  | giveUp id =>
    rw [Watch.step]
    split
    · rename_i hj
      obtain ⟨task, ht, hstage⟩ := Held.stage_of_joins hj
      refine ⟨some id, (h.held.giveUp_turned hj).stride, fun i u hi hu => .inr ?_⟩
      cases hi
      cases ht.symm.trans hu
      exact hstage
    · exact (Stride.refl _ _).nobodys

/-- A worker that is resumed, and has not been told to give up, goes on. -/
theorem resume_stays (hm : w.lookups.Manned v) {id : Nat} {task : Task Stage} (ht : w.lookups.tasks.find? id = some task)
    (hw : task.stage.isWorker = true) (o : Outcome) :
    (w.step (.resume id task.turn o)).lookups.tasks.find? id ≠ none := by
  rw [Watch.step]
  split
  · obtain ⟨heq, -⟩ | ⟨u, hu, -, ⟨hc, -⟩ | ⟨-, -, hcourse⟩⟩ := resume_cases w.lookups id task.turn o
    · rw [Watch.took, heq, ht]
      exact Option.some_ne_none task
    · cases ht.symm.trans hu
      exact absurd ((hm.spared id task ht hw).symm.trans hc) Bool.false_ne_true
    · cases ht.symm.trans hu
      exact hcourse.stays ht hw
  · rw [ht]
    exact Option.some_ne_none task

/-- Whoever works is there after the move, and at the same turn unless it has been resumed. -/
theorem step_worker (h : Watched p w) (hm : w.lookups.Manned v) (m : Move) (hstop : m ≠ .ask .stop) {id : Nat}
    {task : Task Stage} (ht : w.lookups.tasks.find? id = some task) (hw : task.stage.isWorker = true) :
    ∃ task', (w.step m).lookups.tasks.find? id = some task' ∧ task'.stage.isWorker = true ∧
      ((∀ o, m ≠ .resume id task.turn o) → task'.turn = task.turn ∧
        (task'.stage = task.stage ∨ (task.stage = .waiting ∧ task'.stage = .woken))) := by
  obtain ⟨who, hstride, hwho⟩ := h.step_stride m hstop
  have hnotJoining : task.stage ≠ .joining := fun hs => by
    rw [hs] at hw
    cases hw
  cases ht' : (w.step m).lookups.tasks.find? id with
  | none =>
    obtain ⟨o, rfl⟩ | hjoining := hwho id task (hstride.gone id task ht ht') ht
    · exact absurd ht' (resume_stays hm ht hw o)
    · exact absurd hjoining hnotJoining
  | some task' =>
    obtain ⟨u, actions, hu, hpasses⟩ | ⟨hge, -⟩ := hstride.passes id task' ht'
    · cases ht.symm.trans hu
      refine ⟨task', rfl, hpasses.worker.trans hw, fun hother => ?_⟩
      obtain ⟨hturn, hsame | ⟨hwaiting, hwoken, -⟩⟩ | ⟨hmine, -⟩ := hpasses.moved
      · exact ⟨hturn, .inl hsame⟩
      · exact ⟨hturn, .inr ⟨hwaiting, hwoken⟩⟩
      · obtain ⟨o, rfl⟩ | hjoining := hwho id task (Tasks.id_of_find? ht ▸ hmine) ht
        · exact absurd rfl (hother o)
        · exact absurd hjoining hnotJoining
    · exact absurd (Tasks.lt_next_of_find? h.held.ordered ht) (Nat.not_lt_of_le hge)

/-- **While nobody asks to stop, the workers stay.** -/
theorem step_manned (h : Watched p w) (hm : w.lookups.Manned v) (m : Move) (hstop : m ≠ .ask .stop) :
    (w.step m).lookups.Manned v := by
  obtain ⟨who, hstride, -⟩ := h.step_stride m hstop
  obtain ⟨task, ht, hw⟩ := hm.worker
  obtain ⟨task', ht', hw', -⟩ := h.step_worker hm m hstop ht hw
  refine ⟨⟨task', ht', hw'⟩, fun id u' hu' hworker => ?_⟩
  obtain ⟨u, actions, hu, hpasses⟩ | ⟨-, hspared⟩ := hstride.passes id u' hu'
  · exact (hpasses.spared rfl).trans (hm.spared id u hu (hpasses.worker ▸ hworker))
  · exact hspared

/-- A start that takes effect creates workers, the first of them with the next number. -/
theorem find?_start (h : Watched p w) (hs : w.lookups.component.isStarted = false) (now : Nat) :
    (w.step (.start now)).lookups.tasks.find? w.lookups.tasks.next =
      some { id := w.lookups.tasks.next, stage := .begun } := by
  obtain ⟨entries, heq⟩ := start_eq h.held.ordered hs now
  have hpos : 0 < w.lookups.workerCount := h.workerCount ▸ p.workers_pos
  rw [Watch.step_start hs, heq]
  exact (find?_hired _ _ h.held.ordered).trans (if_pos ⟨Nat.le_refl _, by omega⟩)

theorem start_manned (h : Watched p w) (htidy : w.lookups.Tidy) (hs : w.lookups.component.isStarted = false) (now : Nat) :
    (w.step (.start now)).lookups.Manned w.lookups.tasks.next := by
  refine ⟨⟨_, h.find?_start hs now, rfl⟩, fun id task ht hw => ?_⟩
  obtain ⟨entries, heq⟩ := start_eq h.held.ordered hs now
  rw [Watch.step_start hs, heq] at ht
  obtain ⟨-, -, rfl⟩ | hold := find?_launched h.held.ordered now ht
  · rfl
  · exact absurd ((htidy.vacant hs id task hold).symm.trans hw) Bool.false_ne_true

/-! ## Progress -/

/-- Whoever looks for a job when it is resumed has been woken, or the resolver was called for it. -/
theorem awaits_of_isBusy (h : Watched p w) {id : Nat} {task : Task Stage} (ht : w.lookups.tasks.find? id = some task)
    (hbusy : task.stage.isBusy = true) : w.awaits id task.turn = true := by
  have hann := h.heard.announced id task ht
  rw [← Tasks.id_of_find? ht, Watch.awaits, List.any_eq_true]
  cases hstage : task.stage with
  | begun => exact ⟨_, hann.woken (.inl hstage), by simp [Action.subject?]⟩
  | woken => exact ⟨_, hann.woken (.inr hstage), by simp [Action.subject?]⟩
  | resolving job => exact ⟨_, hann.resolved job hstage, by simp [Action.subject?]⟩
  | called | waiting | stopping | joining => rw [hstage] at hbusy; cases hbusy

/-- **Whenever a job waits, a worker is due.** -/
theorem exists_due (h : Watched p w) (hm : w.lookups.Manned v) (hq : w.lookups.queue ≠ []) :
    ∃ id task, w.lookups.tasks.find? id = some task ∧ task.stage.isBusy = true := by
  obtain ⟨task, ht, hw⟩ := hm.worker
  rcases Stage.waiting_or_isBusy hw with hwaiting | hbusy
  · -- It is in the line, so that others have been called for the jobs that wait.
    have hline : v ∈ w.lookups.line := (h.held.waiting v).2 (by
      rw [Tasks.stage?_of_find? ht, hm.spared v task ht hw, hwaiting]
      rfl)
    have hcalled := h.held.called (List.ne_nil_of_mem hline)
    have hpos := List.length_pos_of_ne_nil hq
    obtain ⟨u, hu⟩ := List.exists_mem_of_length_pos (Nat.lt_of_lt_of_le hpos hcalled)
    obtain ⟨hlive, hwoken⟩ := List.mem_filter.1 hu
    exact ⟨u.id, u, Tasks.find?_of_mem h.held.ordered hlive, Stage.isBusy_of_isWoken hwoken⟩
  · exact ⟨v, task, ht, hbusy⟩

end Watched

/-- How many jobs have been taken from the queue. -/
def Watch.taken (w : Watch) : Nat := w.accepted.length - w.lookups.queue.length

theorem Handles.queue_length_le {l : Lookups} {t : Turn} {cut : Nat} (h : Handles l t cut) :
    t.lookups.queue.length ≤ l.queue.length := by
  cases hr : l.resolves with
  | true =>
    rw [← h.taken hr, List.length_append]
    exact Nat.le_add_left _ _
  | false => exact (h.discarded hr).2.length_le

theorem Sound.queue_length_le {p : Plan} {w : Watch} (h : Sound p w) : w.lookups.queue.length ≤ w.accepted.length := by
  cases hr : p.resolves with
  | true =>
    rw [← h.order hr, List.length_append]
    exact Nat.le_add_left _ _
  | false => exact (h.discarded hr).2.length_le

namespace Watched

variable {p : Plan} {w : Watch} {v : Nat}

/-- Jobs that were accepted stay accepted, and jobs that were taken stay taken. -/
theorem step_taken (h : Watched p w) (m : Move) :
    w.accepted <+: (w.step m).accepted ∧ w.taken ≤ (w.step m).taken := by
  have hother : ∀ {w' : Watch} {t : Turn} {cut : Nat}, Handles w.lookups t cut → w'.lookups = t.lookups →
      w'.accepted = w.accepted → w.accepted <+: w'.accepted ∧ w.taken ≤ w'.taken := fun ht hlookups haccepted => by
    have hle := ht.queue_length_le
    rw [Watch.taken, Watch.taken, hlookups, haccepted]
    exact ⟨List.prefix_rfl, by omega⟩
  cases m with
  | enqueue job =>
    cases hfull : w.lookups.isFull with
    | true =>
      obtain ⟨hno, hlookups, -⟩ := enqueue_of_isFull hfull job
      simp only [Watch.step, Watch.took, Watch.taken, hno, hlookups, Bool.false_eq_true, if_false]
      exact ⟨List.prefix_rfl, Nat.le_refl _⟩
    | false =>
      obtain ⟨line, tasks, acts, heq, -⟩ := enqueue_of_not_isFull hfull job
      simp only [Watch.step, Watch.took, Watch.taken, heq, if_true, added, List.length_append, List.length_singleton]
      exact ⟨List.prefix_append _ _, by omega⟩
  | start now =>
    rw [Watch.step]
    split <;> exact hother (h.held.start_handles now) rfl rfl
  | ask c => exact hother (h.held.ask_handles c) rfl rfl
  | resume id turn o =>
    rw [Watch.step]
    split
    · exact hother (h.held.resume_handles id turn o) rfl rfl
    · exact ⟨List.prefix_rfl, Nat.le_refl _⟩
  | giveUp id =>
    rw [Watch.step]
    split
    · rename_i hj
      obtain ⟨task, ht, hstage⟩ := Held.stage_of_joins hj
      exact hother (h.held.leaves_handles ht (hstage ▸ Held.giveUp_leaves w.lookups id)) rfl rfl
    · exact ⟨List.prefix_rfl, Nat.le_refl _⟩

/-- A worker that is resumed takes a job, if one waits. -/
theorem resume_taken (h : Watched p w) (hm : w.lookups.Manned v) {id : Nat} {task : Task Stage}
    (ht : w.lookups.tasks.find? id = some task) (hbusy : task.stage.isBusy = true) (hq : w.lookups.queue ≠ []) (o : Outcome) :
    w.taken < (w.step (.resume id task.turn o)).taken := by
  have hle := h.queue_length_le
  have hpos := List.length_pos_of_ne_nil hq
  have hspared := hm.spared id task ht (Stage.isWorker_of_isBusy hbusy)
  rw [Watch.step, if_pos (h.awaits_of_isBusy ht hbusy)]
  show w.accepted.length - w.lookups.queue.length < w.accepted.length - (w.lookups.resume id task.turn o).lookups.queue.length
  obtain ⟨job, hcons, -⟩ | ⟨hnil, -⟩ := (resume_course ht hspared o).of_isBusy hbusy
  · have hlength := congrArg List.length hcons
    rw [List.length_cons] at hlength
    omega
  · rw [hnil, List.length_nil]
    omega

/-- Nobody is there to give up while a job is being resolved. -/
theorem step_cut (hm : w.lookups.Manned v) (m : Move) : (w.step m).cut = w.cut := by
  cases m with
  | enqueue | ask => rfl
  | start | giveUp =>
    rw [Watch.step]
    split <;> rfl
  | resume id turn o =>
    rw [Watch.step]
    split
    · have hno : w.lookups.cutsShort id turn = false := by
        rw [cutsShort]
        cases ht : w.lookups.tasks.find? id with
        | none => rfl
        | some task =>
          rw [Option.any_some]
          cases hr : task.stage.isResolving with
          | false => rw [Bool.and_false]
          | true =>
            have hw := Stage.isWorker_of_isBusy (Stage.isBusy_of_isResolving hr)
            rw [hm.spared id task ht hw, Bool.and_false, Bool.false_and]
      simp only [hno, Bool.toNat_false, Nat.add_zero]
    · rfl

end Watched

/-! ## Runs that go on -/

/-- The call of the resolver that an action begins. -/
def Action.call? : Action → Option (Nat × Nat)
  | .resolve task turn _ => some (task, turn)
  | .log _ | .wake _ _ | .ended _ _ => none

namespace Watch

/-- The watch after the first moves of a run that goes on for ever. -/
def along (w : Watch) (moves : Nat → Move) : Nat → Watch
  | 0 => w
  | n + 1 => (along w moves n).step (moves n)

/-- Whoever may be resumed is resumed at some time: tasks that are woken run, and every call of the resolver ends. -/
def Fair (w : Watch) (moves : Nat → Move) : Prop :=
  ∀ n id task, (w.along moves n).lookups.tasks.find? id = some task → (w.along moves n).awaits id task.turn = true →
    ∃ m, n ≤ m ∧ ∃ o, moves m = .resume id task.turn o

/-- A call of the resolver, by its task and turn, has ended. -/
def IsOver (w : Watch) (call : Nat × Nat) : Prop :=
  ∀ task, w.lookups.tasks.find? call.1 = some task → task.turn ≠ call.2

/-- The calls of the resolver, in order. -/
def calls (w : Watch) : List (Nat × Nat) := w.heard.filterMap Action.call?

end Watch

/-- Every state can be gone on from like this, for instance by resuming everyone again and again. -/
theorem Watch.exists_fair (w : Watch) : ∃ moves, (∀ n, moves n ≠ .ask .stop) ∧ w.Fair moves := by
  refine ⟨fun n => .resume n.unpair.1.unpair.1 n.unpair.1.unpair.2 .done, nofun, fun n id task _ _ => ?_⟩
  refine ⟨Nat.pair (Nat.pair id task.turn) n, Nat.right_le_pair _ _, .done, ?_⟩
  simp only [Nat.unpair_pair]

/-- Every job that had been accepted in one state has been processed in another: none of them waits, the calls for them
have begun, in order, and have ended, and none was cut short. -/
structure Processed (p : Plan) (w w' : Watch) : Prop where
  gone : w.accepted.length + w'.lookups.queue.length ≤ w'.accepted.length
  begun : p.resolves = true → w.accepted <+: w'.begun
  ended : ∀ call ∈ w'.calls.take w.accepted.length, w'.IsOver call
  cut : w'.cut = w.cut

/-- A worker that goes on comes to its next turn. -/
theorem Course.turn_eq {l : Lookups} {me : Nat} {o : Outcome} {t : Turn} {task task' : Task Stage}
    (h : Course l me task.stage o t) (ht : l.tasks.find? me = some task) (hbusy : task.stage.isBusy = true)
    (ht' : t.lookups.tasks.find? me = some task') : task'.turn = task.turn + 1 := by
  obtain ⟨job, -, htasks⟩ | ⟨-, htasks⟩ := h.of_isBusy hbusy <;>
    · rw [htasks, Tasks.find?_advance_self ht] at ht'
      cases ht'
      rfl

namespace Watched

variable {p : Plan} {w : Watch} {v : Nat} {moves : Nat → Move}

theorem heard_step (w : Watch) (m : Move) : w.heard <+: (w.step m).heard := by
  cases m with
  | enqueue | ask => exact List.prefix_append _ _
  | start =>
    rw [Watch.step]
    split <;> exact List.prefix_append _ _
  | resume | giveUp =>
    rw [Watch.step]
    split
    · exact List.prefix_append _ _
    · exact List.prefix_rfl

/-- While nobody asks to stop, the workers stay and no call is cut short. -/
theorem along_manned (h : Watched p w) (hm : w.lookups.Manned v) (hstop : ∀ n, moves n ≠ .ask .stop) (n : Nat) :
    Watched p (w.along moves n) ∧ (w.along moves n).lookups.Manned v ∧ (w.along moves n).cut = w.cut := by
  induction n with
  | zero => exact ⟨h, hm, rfl⟩
  | succ n ih =>
    obtain ⟨hn, hmn, hcut⟩ := ih
    exact ⟨hn.step (moves n), hn.step_manned hmn (moves n) (hstop n), (step_cut hmn (moves n)).trans hcut⟩

theorem along_mono (h : Watched p w) (hm : w.lookups.Manned v) (hstop : ∀ n, moves n ≠ .ask .stop) {n m : Nat}
    (hle : n ≤ m) : (w.along moves n).accepted <+: (w.along moves m).accepted ∧
      (w.along moves n).taken ≤ (w.along moves m).taken ∧ (w.along moves n).heard <+: (w.along moves m).heard := by
  induction hle with
  | refl => exact ⟨List.prefix_rfl, Nat.le_refl _, List.prefix_rfl⟩
  | @step m _ ih =>
    obtain ⟨haccepted, htaken⟩ := (along_manned h hm hstop m).1.step_taken (moves m)
    exact ⟨ih.1.trans haccepted, Nat.le_trans ih.2.1 htaken, ih.2.2.trans (heard_step _ _)⟩

/-- Whoever is due is resumed at some time, where it was. -/
theorem resumed_of_isBusy (h : Watched p w) (hm : w.lookups.Manned v) (hstop : ∀ n, moves n ≠ .ask .stop)
    (hfair : w.Fair moves) {n id : Nat} {task : Task Stage} (ht : (w.along moves n).lookups.tasks.find? id = some task)
    (hbusy : task.stage.isBusy = true) : ∃ m task' o, n ≤ m ∧ (w.along moves m).lookups.tasks.find? id = some task' ∧
      task'.turn = task.turn ∧ task'.stage = task.stage ∧ moves m = .resume id task'.turn o := by
  obtain ⟨last, hle, o, hlast⟩ := hfair n id task ht ((along_manned h hm hstop n).1.awaits_of_isBusy ht hbusy)
  obtain ⟨d, rfl⟩ := Nat.exists_eq_add_of_le hle
  induction d generalizing n task with
  | zero => exact ⟨n, task, o, Nat.le_refl n, ht, rfl, rfl, hlast⟩
  | succ d ih =>
    obtain ⟨hn, hmn, -⟩ := along_manned h hm hstop n
    by_cases hnow : ∃ o', moves n = .resume id task.turn o'
    · obtain ⟨o', hnow⟩ := hnow
      exact ⟨n, task, o', Nat.le_refl n, ht, rfl, rfl, hnow⟩
    · -- Nobody has resumed it yet, so that it is still there.
      obtain ⟨u, hu, -, hkeeps⟩ := hn.step_worker hmn (moves n) (hstop n) ht (Stage.isWorker_of_isBusy hbusy)
      obtain ⟨hturn, hsame | ⟨hwaiting, -⟩⟩ := hkeeps fun o' heq => hnow ⟨o', heq⟩
      · obtain ⟨m, task', o', hle', ht', hturn', hstage', hmove⟩ := ih (n := n + 1) hu (hsame ▸ hbusy) (by omega)
          (by rw [hturn, ← hlast, Nat.add_assoc, Nat.add_comm 1])
        exact ⟨m, task', o', by omega, ht', hturn'.trans hturn, hstage'.trans hsame, hmove⟩
      · rw [hwaiting] at hbusy
        cases hbusy

/-- As long as a job waits, more are taken. -/
theorem exists_taken_lt (h : Watched p w) (hm : w.lookups.Manned v) (hstop : ∀ n, moves n ≠ .ask .stop)
    (hfair : w.Fair moves) {n : Nat} (hwaits : (w.along moves n).taken < (w.along moves n).accepted.length) :
    ∃ m, n ≤ m ∧ (w.along moves n).taken < (w.along moves m).taken := by
  obtain ⟨hn, hmn, -⟩ := along_manned h hm hstop n
  have hq : (w.along moves n).lookups.queue ≠ [] := fun hnil => by
    rw [Watch.taken, hnil, List.length_nil] at hwaits
    omega
  obtain ⟨id, task, ht, hbusy⟩ := hn.exists_due hmn hq
  obtain ⟨m, task', o, hle, ht', -, hstage, hmove⟩ := resumed_of_isBusy h hm hstop hfair ht hbusy
  obtain ⟨hm', hmm', -⟩ := along_manned h hm hstop m
  obtain ⟨haccepted, htaken, -⟩ := along_mono h hm hstop hle
  by_cases hq' : (w.along moves m).lookups.queue = []
  · have hlen := haccepted.length_le
    refine ⟨m, hle, ?_⟩
    rw [Watch.taken, Watch.taken, hq', List.length_nil] at *
    omega
  · have hnext := hm'.resume_taken hmm' ht' (hstage ▸ hbusy) hq' o
    refine ⟨m + 1, Nat.le_succ_of_le hle, Nat.lt_of_le_of_lt htaken ?_⟩
    rwa [Watch.along, hmove]

/-- Every job that has been accepted is taken. -/
theorem exists_le_taken (h : Watched p w) (hm : w.lookups.Manned v) (hstop : ∀ n, moves n ≠ .ask .stop)
    (hfair : w.Fair moves) (jobs : Nat) (hjobs : jobs ≤ w.accepted.length) : ∃ n, jobs ≤ (w.along moves n).taken := by
  induction jobs with
  | zero => exact ⟨0, Nat.zero_le _⟩
  | succ jobs ih =>
    obtain ⟨n, hn⟩ := ih (Nat.le_of_succ_le hjobs)
    have haccepted := (along_mono h hm hstop (Nat.zero_le n)).1.length_le
    by_cases hdone : jobs + 1 ≤ (w.along moves n).taken
    · exact ⟨n, hdone⟩
    · obtain ⟨m, -, hlt⟩ := exists_taken_lt h hm hstop hfair (n := n) (by
        rw [Watch.along] at haccepted
        omega)
      exact ⟨m, by omega⟩

theorem mem_calls {call : Nat × Nat} : call ∈ w.calls ↔ ∃ job, .resolve call.1 call.2 job ∈ w.heard := by
  rw [Watch.calls, List.mem_filterMap]
  constructor
  · rintro ⟨a, ha, hcall⟩
    cases a with
    | resolve task turn job =>
      cases hcall
      exact ⟨job, ha⟩
    | log | wake | ended => cases hcall
  · rintro ⟨job, ha⟩
    exact ⟨_, ha, rfl⟩

/-- A call of the resolver that has ended does not come back. -/
theorem step_over (h : Watched p w) (m : Move) (hstop : m ≠ .ask .stop) {call : Nat × Nat}
    (hcall : call ∈ w.calls) (hover : w.IsOver call) : (w.step m).IsOver call := by
  obtain ⟨job, hjob⟩ := mem_calls.1 hcall
  obtain ⟨hid, hturn⟩ := h.heard.past _ hjob call.1 call.2 rfl
  obtain ⟨who, hstride, -⟩ := h.step_stride m hstop
  intro task' ht'
  obtain ⟨task, actions, ht, hpasses⟩ | ⟨hge, -⟩ := hstride.passes call.1 task' ht'
  · have hne := hover task ht
    have hle := hturn task ht
    have hle' := hpasses.turn_le
    omega
  · omega

theorem along_over (h : Watched p w) (hm : w.lookups.Manned v) (hstop : ∀ n, moves n ≠ .ask .stop) {n m : Nat}
    (hle : n ≤ m) {call : Nat × Nat} (hcall : call ∈ (w.along moves n).calls) (hover : (w.along moves n).IsOver call) :
    (w.along moves m).IsOver call := by
  induction hle with
  | refl => exact hover
  | @step m hle ih =>
    obtain ⟨hm', -, -⟩ := along_manned h hm hstop m
    exact hm'.step_over (moves m) (hstop m) (((along_mono h hm hstop hle).2.2.filterMap _).subset hcall) ih

/-- Every call of the resolver ends. -/
theorem exists_over (h : Watched p w) (hm : w.lookups.Manned v) (hstop : ∀ n, moves n ≠ .ask .stop)
    (hfair : w.Fair moves) {n : Nat} {call : Nat × Nat} (hcall : call ∈ (w.along moves n).calls) :
    ∃ m, n ≤ m ∧ (w.along moves m).IsOver call := by
  by_cases hover : (w.along moves n).IsOver call
  · exact ⟨n, Nat.le_refl n, hover⟩
  · obtain ⟨task, ht, hturn⟩ : ∃ task, (w.along moves n).lookups.tasks.find? call.1 = some task ∧ task.turn = call.2 := by
      simpa [Watch.IsOver] using hover
    obtain ⟨job, hjob⟩ := mem_calls.1 hcall
    have hstage := (along_manned h hm hstop n).1.heard.calls _ _ job task hjob ht hturn
    obtain ⟨m, task', o, hle, ht', hturn', hstage', hmove⟩ := resumed_of_isBusy h hm hstop hfair ht (by rw [hstage]; rfl)
    obtain ⟨hm', hmm', -⟩ := along_manned h hm hstop m
    have hbusy : task'.stage.isBusy = true := by rw [hstage', hstage]; rfl
    have hspared := hmm'.spared _ task' ht' (Stage.isWorker_of_isBusy hbusy)
    refine ⟨m + 1, Nat.le_succ_of_le hle, fun task'' ht'' => ?_⟩
    rw [Watch.along, hmove, Watch.step, if_pos (hm'.awaits_of_isBusy ht' hbusy)] at ht''
    have hnext := (resume_course ht' hspared o).turn_eq ht' hbusy ht''
    omega

theorem exists_all_over (h : Watched p w) (hm : w.lookups.Manned v) (hstop : ∀ n, moves n ≠ .ask .stop)
    (hfair : w.Fair moves) (n : Nat) (calls : List (Nat × Nat)) (hcalls : ∀ call ∈ calls, call ∈ (w.along moves n).calls) :
    ∃ m, n ≤ m ∧ ∀ call ∈ calls, (w.along moves m).IsOver call := by
  induction calls with
  | nil => exact ⟨n, Nat.le_refl n, nofun⟩
  | cons call calls ih =>
    obtain ⟨m, hle, hrest⟩ := ih fun c hc => hcalls c (List.mem_cons_of_mem _ hc)
    have hstill : ∀ c ∈ call :: calls, c ∈ (w.along moves m).calls := fun c hc =>
      ((along_mono h hm hstop hle).2.2.filterMap _).subset (hcalls c hc)
    obtain ⟨m', hle', hover⟩ := exists_over h hm hstop hfair (hstill call List.mem_cons_self)
    refine ⟨m', Nat.le_trans hle hle', fun c hc => ?_⟩
    rcases List.mem_cons.1 hc with rfl | hmem
    · exact hover
    · exact along_over h hm hstop hle' (hstill c hc) (hrest c hmem)

theorem length_calls (w : Watch) : w.calls.length = w.begun.length := by
  rw [Watch.calls, Watch.begun, begunIn, List.length_filterMap_eq_countP, List.length_filterMap_eq_countP]
  congr 1
  funext a
  cases a <;> rfl

/-- **After a start every job that was accepted before is processed**, if nobody asks to stop and whoever may be resumed is
resumed at some time. -/
theorem served (h : Watched p w) (htidy : w.lookups.Tidy) (hs : w.lookups.component.isStarted = false) (now : Nat)
    (hstop : ∀ n, moves n ≠ .ask .stop) (hfair : (w.step (.start now)).Fair moves) :
    ∃ n, Processed p w ((w.step (.start now)).along moves n) := by
  have hm := h.start_manned htidy hs now
  have hw := h.step (.start now)
  have haccepted : (w.step (.start now)).accepted = w.accepted := by rw [Watch.step_start hs]; rfl
  have hcut : (w.step (.start now)).cut = w.cut := by rw [Watch.step_start hs]; rfl
  obtain ⟨n, hn⟩ := exists_le_taken hw hm hstop hfair w.accepted.length (Nat.le_of_eq (congrArg _ haccepted.symm))
  obtain ⟨m, hle, hover⟩ := exists_all_over hw hm hstop hfair n
    (((w.step (.start now)).along moves n).calls.take w.accepted.length) fun _ hc => List.mem_of_mem_take hc
  obtain ⟨hwn, -, -⟩ := along_manned hw hm hstop n
  obtain ⟨hwm, -, hcutm⟩ := along_manned hw hm hstop m
  obtain ⟨-, htaken, hheard⟩ := along_mono hw hm hstop hle
  have hall : w.accepted <+: ((w.step (.start now)).along moves m).accepted :=
    haccepted ▸ (along_mono hw hm hstop (Nat.zero_le m)).1
  have hgone : w.accepted.length + ((w.step (.start now)).along moves m).lookups.queue.length ≤
      ((w.step (.start now)).along moves m).accepted.length := by
    have hqueue := hwm.queue_length_le
    simp only [Watch.taken] at hn htaken
    have hprefix := hall.length_le
    omega
  refine ⟨m, hgone, fun hr => ?_, fun call hcall => ?_, hcutm.trans hcut⟩
  · have horder := hwm.order hr
    have hlen := congrArg List.length horder
    rw [List.length_append] at hlen
    exact List.prefix_of_prefix_length_le hall ⟨_, horder⟩ (by omega)
  · obtain ⟨more, hmore⟩ : ((w.step (.start now)).along moves n).calls <+: ((w.step (.start now)).along moves m).calls :=
      hheard.filterMap _
    cases hr : p.resolves with
    | true =>
      have hlen := congrArg List.length (hwn.order hr)
      rw [List.length_append, ← length_calls] at hlen
      rw [← hmore, List.take_append_of_le_length (by rw [Watch.taken] at hn; omega)] at hcall
      exact hover call hcall
    | false =>
      have hnil : ((w.step (.start now)).along moves m).calls = [] :=
        List.eq_nil_of_length_eq_zero (by rw [length_calls, (hwm.discarded hr).1]; rfl)
      rw [hnil, List.take_nil] at hcall
      cases hcall

end Watched

end PoolFeed.Lookups
