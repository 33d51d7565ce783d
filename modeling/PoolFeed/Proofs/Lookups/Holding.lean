import PoolFeed.Proofs.Lookups.Courses

/-!
# What is always true of the lookups

`Held` says that the queue keeps to its bound, that jobs which wait or are being resolved are counted, and that the line
holds the workers that wait. A job never waits with nobody called for it while there is someone in the line. Every
operation and every turn keeps this.
-/

namespace PoolFeed.Lookups

/-- How many jobs are being resolved. -/
def running (l : Lookups) : Nat := l.tasks.countAt Stage.isResolving

structure Held (l : Lookups) : Prop where
  capacity_pos : 0 < l.capacity
  ordered : l.tasks.Ordered
  bounded : (l.queue.length : Int) ≤ l.capacity
  unfinished : l.unfinished = l.queue.length + l.running
  nodup : l.line.Nodup
  waiting : ∀ id, id ∈ l.line ↔ l.tasks.stage? id = some .waiting
  /-- For each job that waits, as long as there is someone in the line, a worker has been called. -/
  called : l.line ≠ [] → l.queue.length ≤ l.tasks.countAt Stage.isWoken

section Tasks
variable {ts : Tasks Stage} {id me : Nat} {s : Stage}

theorem stage?_rouse (ts : Tasks Stage) (id i : Nat) :
    (rouse ts id).stage? i = if i = id then (ts.stage? i).map fun _ => .woken else ts.stage? i := by
  rw [Tasks.stage?, find?_rouse, Tasks.stage?]
  split
  · cases ts.find? i with
    | none => rfl
    | some task => cases hc : task.cancelled <;> simp [hc]
  · rfl

theorem rouse_ordered (h : ts.Ordered) (id : Nat) : (rouse ts id).Ordered := by
  refine h.modify (fun _ => ?_) id
  rfl

/-- A worker from the line is counted among the woken. -/
theorem rouse_counts (h : ts.Ordered) (hs : ts.stage? id = some .waiting) :
    (rouse ts id).countAt Stage.isResolving = ts.countAt Stage.isResolving ∧
      (rouse ts id).countAt Stage.isWoken = ts.countAt Stage.isWoken + 1 := by
  obtain ⟨task, htask, hstage, -⟩ := Tasks.find?_of_stage? hs
  have hcount : ∀ p : Stage → Bool,
      (rouse ts id).countAt p + (p .waiting).toNat = ts.countAt p + (p .woken).toNat := fun p => by
    rw [rouse, Tasks.countAt_modify h htask, Tasks.countAt_eq h htask, hstage]
    exact Nat.add_right_comm _ _ _
  exact ⟨hcount Stage.isResolving, hcount Stage.isWoken⟩

/-- Only a worker waits in the line. -/
theorem ne_waiting {task : Task Stage} (ht : ts.find? me = some task) (hs : task.stage.isWorker = false) :
    ts.stage? me ≠ some .waiting := by
  intro hw
  obtain ⟨task', ht', hstage, -⟩ := Tasks.find?_of_stage? hw
  rw [Option.some.inj (ht.symm.trans ht'), hstage] at hs
  cases hs

theorem ne_waiting_of_isBusy (hs : s.isBusy) : some s ≠ some .waiting := by
  intro hw
  rw [Option.some.inj hw] at hs
  cases hs

theorem stage?_cancelAll (ts : Tasks Stage) (ids : List Nat) (id : Nat) :
    (cancelAll ts ids).stage? id = if id ∈ ids then none else ts.stage? id := by
  rw [Tasks.stage?, find?_cancelAll]
  split
  · cases ts.find? id <;> rfl
  · rfl

end Tasks

namespace Held

variable {l : Lookups} {me : Nat} {s : Stage}

theorem isFull_iff (h : l.Held) : l.isFull = true ↔ (l.queue.length : Int) = l.capacity := by
  have hpos := h.capacity_pos
  have hle := h.bounded
  simp only [isFull, Bool.and_eq_true, decide_eq_true_eq]
  omega

/-- The line when a task that is not in it goes on or ends. -/
theorem waiting_congr (h : l.Held) {ts : Tasks Stage} (hold : l.tasks.stage? me ≠ some .waiting)
    (hnew : ts.stage? me ≠ some .waiting) (hsame : ∀ id, id ≠ me → ts.stage? id = l.tasks.stage? id) :
    ∀ id, id ∈ l.line ↔ ts.stage? id = some .waiting := by
  intro id
  by_cases hid : id = me
  · subst hid
    exact (h.waiting id).trans ⟨fun hw => absurd hw hold, fun hw => absurd hw hnew⟩
  · rw [hsame id hid]
    exact h.waiting id

/-- The line when its first is called. -/
theorem roused (h : l.Held) {id : Nat} {rest : List Nat} (hline : l.line = id :: rest) :
    rest.Nodup ∧ ∀ i, i ∈ rest ↔ (rouse l.tasks id).stage? i = some .waiting := by
  have hnodup := List.nodup_cons.1 (hline ▸ h.nodup)
  refine ⟨hnodup.2, fun i => ?_⟩
  have hmem := h.waiting i
  rw [hline, List.mem_cons] at hmem
  rw [stage?_rouse]
  split
  · rename_i hi
    rw [hi, (h.waiting id).1 (by simp [hline])]
    exact ⟨fun hrest => absurd hrest hnodup.1, nofun⟩
  · rename_i hi
    rw [← hmem]
    exact ⟨.inr, fun hor => hor.resolve_left hi⟩

/-- A job is accepted or dropped. -/
theorem enqueue (h : l.Held) (job : LookupJob) : (l.enqueue job).2.lookups.Held := by
  cases hfull : l.isFull with
  | true =>
    rw [(enqueue_of_isFull hfull job).2.1]
    exact ⟨h.capacity_pos, h.ordered, h.bounded, h.unfinished, h.nodup, h.waiting, h.called⟩
  | false =>
    have hroom : ((l.queue ++ [job]).length : Int) ≤ l.capacity := by
      have hne := mt h.isFull_iff.2 (Bool.eq_false_iff.1 hfull)
      have hle := h.bounded
      rw [List.length_append, List.length_singleton]
      omega
    have hunfinished := h.unfinished
    cases hline : l.line with
    | nil =>
      rw [enqueue_of_line_nil hfull hline]
      refine ⟨h.capacity_pos, h.ordered, hroom, ?_, h.nodup, h.waiting, fun hne => absurd hline hne⟩
      simp only [added, List.length_append, List.length_singleton, running] at hunfinished ⊢
      omega
    | cons id rest =>
      rw [enqueue_of_line_cons hfull hline]
      have hid : l.tasks.stage? id = some .waiting := (h.waiting id).1 (by simp [hline])
      have hcalled := h.called (by simp [hline])
      obtain ⟨hrunning, hwoken⟩ := rouse_counts h.ordered hid
      obtain ⟨hnodup, hwaiting⟩ := h.roused hline
      refine ⟨h.capacity_pos, rouse_ordered h.ordered id, hroom, ?_, hnodup, hwaiting, fun _ => ?_⟩
      · simp only [added, List.length_append, List.length_singleton, running, hrunning] at hunfinished ⊢
        omega
      · show (l.queue ++ [job]).length ≤ (rouse l.tasks id).countAt Stage.isWoken
        rw [hwoken, List.length_append, List.length_singleton]
        omega

theorem launched (h : l.Held) (now : Nat) : (l.launched now).Held where
  capacity_pos := h.capacity_pos
  ordered := hired_ordered _ h.ordered
  bounded := h.bounded
  unfinished := h.unfinished.trans (congrArg (l.queue.length + ·) (hired_countAt rfl _ _).symm)
  nodup := h.nodup
  waiting id := by
    refine (h.waiting id).trans ?_
    show _ ↔ (hired l.tasks l.workerCount).stage? id = _
    rw [Tasks.stage?, Tasks.stage?, find?_hired id _ h.ordered]
    split
    · rename_i hid
      rw [Tasks.find?_next h.ordered hid.1]
      exact ⟨by rintro ⟨⟩, by rintro ⟨⟩⟩
    · rfl
  called hline := Nat.le_trans (h.called hline) (Nat.le_of_eq (hired_countAt rfl _ _).symm)

theorem start (h : l.Held) (now : Nat) : (l.start now).lookups.Held := by
  cases hs : l.component.isStarted with
  | true => rwa [start_of_started hs]
  | false =>
    obtain ⟨entries, heq⟩ := start_eq h.ordered hs now
    rw [heq]
    exact h.launched now

/-- Someone has come to ask for something. -/
theorem spawn (h : l.Held) (c : Call) : Held { l with tasks := l.tasks.spawn (.called c) } where
  capacity_pos := h.capacity_pos
  ordered := h.ordered.spawn _
  bounded := h.bounded
  unfinished := h.unfinished.trans (congrArg (l.queue.length + ·) (Tasks.countAt_spawn rfl).symm)
  nodup := h.nodup
  waiting := by
    have hold : l.tasks.stage? l.tasks.next ≠ some .waiting := by
      rw [Tasks.stage?_next h.ordered (Nat.le_refl _)]
      exact nofun
    refine h.waiting_congr hold ?_ fun id hid => by rw [Tasks.stage?_spawn h.ordered, if_neg hid]
    rw [Tasks.stage?_spawn h.ordered, if_pos rfl]
    exact nofun
  called hline := Nat.le_trans (h.called hline) (Nat.le_of_eq (Tasks.countAt_spawn rfl).symm)

/-- A task ends that has no job under way; if it was called for one, nothing is lost. -/
theorem erase (h : l.Held) {task : Task Stage} (ht : l.tasks.find? me = some task)
    (hline : l.tasks.stage? me ≠ some .waiting) (hr : task.stage.isResolving = false)
    (hw : task.stage.isWoken → l.queue = [] ∨ l.line = []) : Held { l with tasks := l.tasks.erase me } where
  capacity_pos := h.capacity_pos
  ordered := h.ordered.erase me
  bounded := h.bounded
  unfinished := by
    have hcount := Tasks.countAt_eq (p := Stage.isResolving) h.ordered ht
    rw [hr, Bool.toNat_false, Nat.add_zero] at hcount
    exact h.unfinished.trans (congrArg (l.queue.length + ·) hcount)
  nodup := h.nodup
  waiting := h.waiting_congr hline (by rw [Tasks.stage?_erase, if_pos rfl]; exact nofun)
    fun id hid => by rw [Tasks.stage?_erase, if_neg hid]
  called hne := by
    have hcount := Tasks.countAt_eq (p := Stage.isWoken) h.ordered ht
    have hcalled := h.called hne
    show l.queue.length ≤ (l.tasks.erase me).countAt Stage.isWoken
    cases hwoken : task.stage.isWoken with
    | false =>
      rw [hwoken, Bool.toNat_false] at hcount
      omega
    | true =>
      rw [(hw hwoken).resolve_right hne]
      exact Nat.zero_le _

/-- A task goes on that neither was a worker nor becomes one. -/
theorem advance (h : l.Held) {task : Task Stage} {s' : Stage} (ht : l.tasks.find? me = some task)
    (hs : task.stage.isWorker = false) (hs' : s'.isWorker = false) : Held { l with tasks := l.tasks.advance me s' } := by
  have hsame : ∀ p : Stage → Bool, (∀ u : Stage, u.isWorker = false → p u = false) →
      (l.tasks.advance me s').countAt p = l.tasks.countAt p := fun p hp => by
    have hcount := Tasks.countAt_advance_add (p := p) h.ordered ht s'
    rwa [hp _ hs, hp _ hs'] at hcount
  have hwoken := hsame Stage.isWoken fun u hu => (Stage.idle_of_not_isWorker hu).2
  have hrunning := hsame Stage.isResolving fun u hu => (Stage.idle_of_not_isWorker hu).1
  refine ⟨h.capacity_pos, h.ordered.advance me s', h.bounded, ?_, h.nodup, ?_, fun hline => ?_⟩
  · exact h.unfinished.trans (congrArg (l.queue.length + ·) hrunning.symm)
  · refine h.waiting_congr (ne_waiting ht hs) ?_ fun id hid => by rw [Tasks.stage?_advance, if_neg hid]
    rw [Tasks.stage?_advance, if_pos rfl]
    intro hw
    obtain ⟨-, -, rfl⟩ := Option.map_eq_some_iff.1 hw
    cases hs'
  · exact Nat.le_trans (h.called hline) (Nat.le_of_eq hwoken.symm)

/-- Some workers are told to give up. -/
theorem warned (h : l.Held) (ids : List Nat) :
    Held { l with tasks := cancelAll l.tasks ids, line := l.line.filter (· ∉ ids) } where
  capacity_pos := h.capacity_pos
  ordered := cancelAll_ordered h.ordered ids
  bounded := h.bounded
  unfinished := h.unfinished.trans (congrArg (l.queue.length + ·) (cancelAll_countAt ids l.tasks).symm)
  nodup := h.nodup.filter _
  waiting id := by
    simp only [List.mem_filter, decide_eq_true_eq, h.waiting, stage?_cancelAll]
    split <;> simp_all
  called hne := by
    have hline : l.line ≠ [] := fun hnil => hne (by rw [hnil]; rfl)
    exact Nat.le_trans (h.called hline) (Nat.le_of_eq (cancelAll_countAt ids l.tasks).symm)

/-- A worker takes a job. -/
theorem takes (h : l.Held) (o : Outcome) (hme : l.tasks.stage? me = some s) (hs : s.isBusy) {job : LookupJob}
    {rest : List LookupJob} (hq : l.queue = job :: rest) :
    Held { credited l s o with queue := rest, tasks := l.tasks.advance me (.resolving job) } := by
  obtain ⟨completed, failed, hcredited, -⟩ := credited_eq l s o
  rw [hcredited]
  obtain ⟨task, ht, rfl, -⟩ := Tasks.find?_of_stage? hme
  have hunfinished : l.unfinished = l.queue.length + l.tasks.countAt Stage.isResolving := h.unfinished
  have hle := h.bounded
  rw [hq, List.length_cons] at hunfinished hle
  have hresolving : (l.tasks.advance me (.resolving job)).countAt Stage.isResolving + task.stage.isResolving.toNat =
    l.tasks.countAt Stage.isResolving + 1 := Tasks.countAt_advance_add h.ordered ht _
  have hwoken : (l.tasks.advance me (.resolving job)).countAt Stage.isWoken + task.stage.isWoken.toNat =
    l.tasks.countAt Stage.isWoken := Tasks.countAt_advance_add h.ordered ht _
  refine ⟨h.capacity_pos, h.ordered.advance me _, ?_, ?_, h.nodup, ?_, fun hline => ?_⟩
  · show (rest.length : Int) ≤ l.capacity
    omega
  · show l.unfinished - task.stage.isResolving.toNat =
      rest.length + (l.tasks.advance me (.resolving job)).countAt Stage.isResolving
    omega
  · refine h.waiting_congr (hme ▸ ne_waiting_of_isBusy hs) (by rw [Tasks.stage?_advance_self hme]; exact nofun) ?_
    exact fun id hid => by rw [Tasks.stage?_advance, if_neg hid]
  · have hcalled := h.called hline
    rw [hq, List.length_cons] at hcalled
    have hone : task.stage.isWoken.toNat ≤ 1 := Bool.toNat_le _
    show rest.length ≤ (l.tasks.advance me (.resolving job)).countAt Stage.isWoken
    omega

/-- A worker gets into the line, and no job is left. -/
theorem rests (h : l.Held) (o : Outcome) (hme : l.tasks.stage? me = some s) (hs : s.isBusy) :
    Held { credited l s o with
      queue := [], line := l.line ++ [me], unfinished := (credited l s o).unfinished - l.queue.length,
      tasks := l.tasks.advance me .waiting } := by
  obtain ⟨completed, failed, hcredited, -⟩ := credited_eq l s o
  rw [hcredited]
  obtain ⟨task, ht, rfl, -⟩ := Tasks.find?_of_stage? hme
  have hunfinished : l.unfinished = l.queue.length + l.tasks.countAt Stage.isResolving := h.unfinished
  have hresolving : (l.tasks.advance me .waiting).countAt Stage.isResolving + task.stage.isResolving.toNat =
    l.tasks.countAt Stage.isResolving := Tasks.countAt_advance_add h.ordered ht _
  refine ⟨h.capacity_pos, h.ordered.advance me _, Int.le_of_lt h.capacity_pos, ?_, ?_, fun id => ?_, fun _ => Nat.zero_le _⟩
  · show l.unfinished - task.stage.isResolving.toNat - l.queue.length =
      0 + (l.tasks.advance me .waiting).countAt Stage.isResolving
    omega
  · refine List.nodup_append.2 ⟨h.nodup, by simp, fun a ha b hb => ?_⟩
    rintro rfl
    rw [List.mem_singleton.1 hb] at ha
    exact hme ▸ ne_waiting_of_isBusy hs <| (h.waiting me).1 ha
  · rw [List.mem_append, List.mem_singleton]
    by_cases hid : id = me
    · subst hid
      exact ⟨fun _ => Tasks.stage?_advance_self hme _, fun _ => .inr rfl⟩
    · rw [Tasks.stage?_advance, if_neg hid, ← h.waiting id]
      exact ⟨fun hor => hor.resolve_right hid, .inl⟩

/-- A task ends that is not a worker. -/
theorem ends (h : l.Held) {task : Task Stage} (ht : l.tasks.find? me = some task) (hs : task.stage.isWorker = false) :
    Held { l with tasks := l.tasks.erase me } := by
  obtain ⟨hresolving, hwoken⟩ := Stage.idle_of_not_isWorker hs
  exact h.erase ht (ne_waiting ht hs) hresolving fun hw => absurd (hwoken.symm.trans hw) nofun

/-- A task goes on. -/
theorem course (h : l.Held) {o : Outcome} {t : Turn} (hme : l.tasks.stage? me = some s) (hc : Course l me s o t) :
    t.lookups.Held := by
  obtain ⟨task, ht, rfl, -⟩ := Tasks.find?_of_stage? hme
  cases hc with
  | takes job rest hs hq _ _ => exact h.takes o hme hs hq
  | rests hs _ _ => exact h.rests o hme hs
  | waits _ => exact h
  | ends he => exact h.ends ht (by obtain he | ⟨he, -⟩ | ⟨he, -⟩ := he <;> rw [he] <;> rfl)
  | joins hs _ => exact h.advance ht (by rw [hs]; rfl) rfl
  | stops hs _ _ =>
    have hfind := find?_cancelAll me (doomed l) l.tasks
    rw [ht] at hfind
    split at hfind
    · exact (h.warned (doomed l)).advance hfind (by rw [hs]; rfl) rfl
    · exact (h.warned (doomed l)).advance hfind (by rw [hs]; rfl) rfl
  | stopped _ he =>
    have hends := h.ends ht (by obtain ⟨ws, he⟩ | ⟨he, -⟩ := he <;> rw [he] <;> rfl)
    exact ⟨hends.capacity_pos, hends.ordered, hends.bounded, hends.unfinished, hends.nodup, hends.waiting, hends.called⟩

/-- A job is cut short. -/
theorem cutShort (h : l.Held) {task : Task Stage} (ht : l.tasks.find? me = some task)
    (hline : l.tasks.stage? me ≠ some .waiting) (hr : task.stage.isResolving = true) :
    Held { l with unfinished := l.unfinished - 1, tasks := l.tasks.erase me } := by
  have hnotWoken : task.stage.isWoken = false := Bool.eq_false_iff.2 fun hw =>
    absurd ((Stage.not_isResolving_of_isWoken hw).symm.trans hr) nofun
  have hresolving := Tasks.countAt_eq (p := Stage.isResolving) h.ordered ht
  have hwoken := Tasks.countAt_eq (p := Stage.isWoken) h.ordered ht
  have hunfinished : l.unfinished = l.queue.length + l.tasks.countAt Stage.isResolving := h.unfinished
  rw [hr, Bool.toNat_true] at hresolving
  rw [hnotWoken, Bool.toNat_false, Nat.add_zero] at hwoken
  refine ⟨h.capacity_pos, h.ordered.erase me, h.bounded, ?_, h.nodup, ?_, fun hne => hwoken ▸ h.called hne⟩
  · show l.unfinished - 1 = l.queue.length + (l.tasks.erase me).countAt Stage.isResolving
    omega
  · exact h.waiting_congr hline (by rw [Tasks.stage?_erase, if_pos rfl]; exact nofun)
      fun id hid => by rw [Tasks.stage?_erase, if_neg hid]

/-- A worker that was called ends, and the next in the line is called instead. -/
theorem passes (h : l.Held) {task : Task Stage} (ht : l.tasks.find? me = some task)
    (hnot : l.tasks.stage? me ≠ some .waiting) (hw : task.stage.isWoken = true) {id : Nat} {rest : List Nat}
    (hline : l.line = id :: rest) : Held { l with line := rest, tasks := (rouse l.tasks id).erase me } := by
  have hid : l.tasks.stage? id = some .waiting := (h.waiting id).1 (by simp [hline])
  have hne : me ≠ id := by
    rintro rfl
    exact hnot hid
  have hfind : (rouse l.tasks id).find? me = some task := by rw [find?_rouse, if_neg hne, ht]
  have hord := rouse_ordered h.ordered id
  have hresolving := Tasks.countAt_eq (p := Stage.isResolving) hord hfind
  have hwoken := Tasks.countAt_eq (p := Stage.isWoken) hord hfind
  rw [hw, Bool.toNat_true] at hwoken
  rw [Stage.not_isResolving_of_isWoken hw, Bool.toNat_false, Nat.add_zero] at hresolving
  obtain ⟨hrunning', hwoken'⟩ := rouse_counts h.ordered hid
  obtain ⟨hnodup, hwaiting⟩ := h.roused hline
  refine ⟨h.capacity_pos, hord.erase me, h.bounded, ?_, hnodup, fun i => ?_, fun _ => ?_⟩
  · exact h.unfinished.trans (congrArg (l.queue.length + ·) (hrunning'.symm.trans hresolving))
  · refine (hwaiting i).trans ?_
    show _ ↔ ((rouse l.tasks id).erase me).stage? i = _
    rw [Tasks.stage?_erase]
    split
    · rename_i hi
      rw [hi, stage?_rouse, if_neg hne]
      exact ⟨fun hwait => absurd hwait hnot, nofun⟩
    · rfl
  · -- One worker fewer has been called, and one more.
    have hcalled := h.called (by simp [hline])
    show l.queue.length ≤ ((rouse l.tasks id).erase me).countAt Stage.isWoken
    omega

/-- A task gives up. -/
theorem leaves (h : l.Held) {task : Task Stage} {t : Turn} (ht : l.tasks.find? me = some task)
    (hnot : l.tasks.stage? me ≠ some .waiting) (hl : Leaves l me task.stage t) : t.lookups.Held := by
  cases hl with
  | breaks hr _ => exact h.cutShort ht hnot hr
  | passes id rest hw hline => exact h.passes ht hnot hw hline
  | goes hr hw => exact h.erase ht hnot hr hw

end Held

end PoolFeed.Lookups
