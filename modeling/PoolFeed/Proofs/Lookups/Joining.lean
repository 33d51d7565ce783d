import PoolFeed.Proofs.Lookups.Hearing

/-!
# Waiting until no job is left

Whoever asks to be told when all jobs are done is told after a moment at which nothing waits and nothing is being resolved,
and that moment comes after the question (`joined`).
-/

namespace PoolFeed.Lookups

/-- Nothing waits and nothing is being resolved. -/
def Watch.Idle (w : Watch) : Prop := w.lookups.queue = [] ∧ w.lookups.running = 0

/-- Someone waits until no job is left, and has not been woken. -/
def Untold (l : Lookups) (heard : List Action) (id : Nat) : Prop :=
  ∃ task, l.tasks.find? id = some task ∧ task.stage = .joining ∧ .wake id task.turn ∉ heard

/-- Someone has ended, but not because no job was left. -/
def Left (l : Lookups) (heard : List Action) (id : Nat) : Prop :=
  id < l.tasks.next ∧ l.tasks.find? id = none ∧ .ended id .finished ∉ heard

theorem Held.idle {w : Watch} (h : w.lookups.Held) (hzero : w.lookups.unfinished = 0) : w.Idle := by
  have hsum := h.unfinished
  exact ⟨List.eq_nil_of_length_eq_zero (by omega), by omega⟩

section Turned
variable {l : Lookups} {t : Turn} {me : Option Nat} {stops : Option (List Nat)} {heard : List Action} {id : Nat}

/-- The turn of another. -/
theorem Turned.untold (ht : Turned l me stops t) (hu : Untold l heard id) (hme : me ≠ some id) :
    t.lookups.unfinished = 0 ∨ Untold t.lookups (heard ++ t.actions) id := by
  obtain ⟨task, htask, hstage, hunheard⟩ := hu
  cases ht' : t.lookups.tasks.find? id with
  | none => exact absurd (ht.gone id task htask ht') hme
  | some task' =>
    obtain ⟨u, hu, hpasses⟩ := ht.passes id task' ht'
    cases htask.symm.trans hu
    obtain ⟨hturn, hsame | ⟨hwaiting, -⟩⟩ | ⟨hmine, -⟩ := hpasses.moved
    · by_cases hwake : .wake id task'.turn ∈ t.actions
      · cases ht.told _ hwake with
        | wake hfind _ hready =>
          cases hfind.symm.trans ht'
          rw [hsame, hstage] at hready
          exact .inl hready
      · refine .inr ⟨task', ht', hsame.trans hstage, fun hmem => ?_⟩
        rcases List.mem_append.1 hmem with hmem | hmem
        · exact hunheard (hturn ▸ hmem)
        · exact hwake hmem
    · rw [hstage] at hwaiting
      cases hwaiting
    · exact absurd (hmine.trans (congrArg some (Tasks.id_of_find? htask))) hme

theorem Turned.left (ht : Turned l me stops t) (hl : Left l heard id) (hme : me ≠ some id) :
    Left t.lookups (heard ++ t.actions) id := by
  obtain ⟨hid, hnone, hunheard⟩ := hl
  refine ⟨ht.next ▸ hid, ?_, fun hmem => ?_⟩
  · cases ht' : t.lookups.tasks.find? id with
    | none => rfl
    | some task' =>
      obtain ⟨u, hu, -⟩ := ht.passes id task' ht'
      cases hnone.symm.trans hu
  · rcases List.mem_append.1 hmem with hmem | hmem
    · exact hunheard hmem
    · cases ht.told _ hmem with
      | ended _ _ hmine => exact hme hmine

end Turned

/-- Someone has not been told yet that no job is left, and may have given up. -/
def Waits (l : Lookups) (heard : List Action) (id : Nat) : Prop := Untold l heard id ∨ Left l heard id

theorem Turned.waits {l : Lookups} {t : Turn} {me : Option Nat} {stops : Option (List Nat)} {heard : List Action} {id : Nat}
    (ht : Turned l me stops t) (hw : Waits l heard id) (hme : me ≠ some id) :
    t.lookups.unfinished = 0 ∨ Waits t.lookups (heard ++ t.actions) id := by
  rcases hw with hu | hl
  · exact (ht.untold hu hme).imp_right .inl
  · exact .inr (.inr (ht.left hl hme))

namespace Watched

variable {p : Plan} {w : Watch} {id : Nat}

theorem lt_next_of_waits (h : Watched p w) (hw : Waits w.lookups w.heard id) : id < w.lookups.tasks.next := by
  obtain ⟨task, ht, -⟩ | ⟨hid, -⟩ := hw
  · exact Tasks.lt_next_of_find? h.held.ordered ht
  · exact hid

/-- New tasks do not matter to those who wait. -/
theorem waits_of_eq {l l' : Lookups} {heard actions : List Action} (hw : Waits l heard id)
    (hfind : l'.tasks.find? id = l.tasks.find? id) (hnext : l.tasks.next ≤ l'.tasks.next)
    (hacts : ∀ a ∈ actions, (∃ e, a = .log e) ∨ ∃ i, a = .wake i 0 ∧ i ≠ id) : Waits l' (heard ++ actions) id := by
  obtain ⟨task, ht, hstage, hunheard⟩ | ⟨hid, hnone, hunheard⟩ := hw
  · refine .inl ⟨task, hfind.trans ht, hstage, fun hmem => ?_⟩
    rcases List.mem_append.1 hmem with hmem | hmem
    · exact hunheard hmem
    · obtain ⟨e, he⟩ | ⟨i, hi, hne⟩ := hacts _ hmem
      · cases he
      · exact hne (Action.wake.inj hi).1.symm
  · refine .inr ⟨Nat.lt_of_lt_of_le hid hnext, hfind.trans hnone, fun hmem => ?_⟩
    rcases List.mem_append.1 hmem with hmem | hmem
    · exact hunheard hmem
    · obtain ⟨e, he⟩ | ⟨i, hi, -⟩ := hacts _ hmem
      · cases he
      · cases hi

/-- Whoever has not been woken cannot be resumed. -/
theorem resume_waits (h : Watched p w) (hw : Waits w.lookups w.heard id) {turn : Nat} (hawaits : w.awaits id turn = true)
    (o : Outcome) : w.lookups.resume id turn o = ⟨w.lookups, []⟩ := by
  obtain ⟨heq, -⟩ | ⟨task, ht, hturn, -⟩ := resume_cases w.lookups id turn o
  · exact heq
  · obtain ⟨u, hu, hstage, hunheard⟩ | ⟨-, hnone, -⟩ := hw
    · cases ht.symm.trans hu
      obtain ⟨a, ha, hsubject⟩ := List.any_eq_true.1 hawaits
      rw [decide_eq_true_eq] at hsubject
      cases a with
      | log | ended => cases hsubject
      | wake =>
        cases hsubject
        exact absurd (hturn ▸ ha) hunheard
      | resolve =>
        cases hsubject
        cases hstage.symm.trans (h.heard.calls _ _ _ task ha ht hturn)
    · cases hnone.symm.trans ht

/-- Whoever gives up is not told. -/
theorem giveUp_left (h : Watched p w) (hj : w.lookups.joins id = true) :
    Left (w.lookups.giveUp id).lookups (w.heard ++ (w.lookups.giveUp id).actions) id := by
  obtain ⟨task, ht, -⟩ := Held.stage_of_joins hj
  have hfinish : w.lookups.giveUp id =
      ⟨{ w.lookups with tasks := w.lookups.tasks.erase id }, farewell w.lookups.tasks id .cancelled⟩ := Turn.finish_eq _ _ _
  rw [hfinish]
  refine ⟨Tasks.lt_next_of_find? h.held.ordered ht, ?_, fun hmem => ?_⟩
  · show (w.lookups.tasks.erase id).find? id = none
    rw [Tasks.find?_erase, if_pos rfl]
  · rcases List.mem_append.1 hmem with hmem | hmem
    · cases (h.heard.ended id _ hmem).2.symm.trans ht
    · rcases List.mem_cons.1 hmem with heq | hmem
      · cases heq
      · obtain ⟨i, -, u, -, heq⟩ := mem_wakes.1 hmem
        cases heq

theorem start_waits (h : Watched p w) (hw : Waits w.lookups w.heard id) (now : Nat) :
    Waits (w.lookups.start now).lookups (w.heard ++ (w.lookups.start now).actions) id := by
  have hlt := h.lt_next_of_waits hw
  cases hs : w.lookups.component.isStarted with
  | true =>
    rw [start_of_started hs]
    exact waits_of_eq hw rfl (Nat.le_refl _) (List.forall_mem_nil _)
  | false =>
    obtain ⟨entries, heq⟩ := start_eq h.held.ordered hs now
    rw [heq]
    refine waits_of_eq hw ?_ ?_ fun a ha => ?_
    · exact (find?_hired id _ h.held.ordered).trans (if_neg (by omega))
    · exact Nat.le_trans (Nat.le_add_right _ _) (Nat.le_of_eq (hired_next _ _).symm)
    · rcases List.mem_append.1 ha with ha | ha
      · obtain ⟨e, -, rfl⟩ := List.mem_map.1 ha
        exact .inl ⟨e, rfl⟩
      · obtain ⟨i, hi, rfl⟩ := List.mem_map.1 ha
        have hge := (List.mem_range'_1.1 hi).1
        exact .inr ⟨i, rfl, by omega⟩

/-- A move either makes it so that nothing is left, or whoever waits for that goes on waiting. -/
theorem step_waits (h : Watched p w) (hw : Waits w.lookups w.heard id) (m : Move) :
    (w.step m).Idle ∨ Waits (w.step m).lookups (w.step m).heard id := by
  have hheld := (h.step m).held
  cases m with
  | enqueue job => exact ((h.held.enqueue_turned job).waits hw (Option.some_ne_none id).symm).imp_left hheld.idle
  | start now =>
    have hstart := h.start_waits hw now
    rw [Watch.step]
    split <;> exact .inr hstart
  | ask c =>
    have hlt := h.lt_next_of_waits hw
    have hspawn : Waits { w.lookups with tasks := w.lookups.tasks.spawn (.called c) } w.heard id := by
      rw [← List.append_nil w.heard]
      refine waits_of_eq hw ?_ (Nat.le_succ _) (List.forall_mem_nil _)
      exact (Tasks.find?_spawn h.held.ordered _ _).trans (if_neg (Nat.ne_of_lt hlt))
    have hne : some w.lookups.tasks.next ≠ some id := fun heq => Nat.ne_of_gt hlt (Option.some.inj heq)
    exact ((h.ask_turned c).waits hspawn hne).imp_left hheld.idle
  | resume i turn o =>
    cases hawaits : w.awaits i turn with
    | false => exact .inr (by simpa [Watch.step, hawaits] using hw)
    | true =>
      simp only [Watch.step, hawaits, if_true] at hheld ⊢
      by_cases hi : i = id
      · subst hi
        have heq := h.resume_waits hw hawaits o
        refine .inr ?_
        simp only [Watch.took, heq]
        exact waits_of_eq hw rfl (Nat.le_refl _) (List.forall_mem_nil _)
      · have hne : some i ≠ some id := fun heq => hi (Option.some.inj heq)
        exact ((h.held.resume_turned h.settled h.staffed i turn o).waits hw hne).imp_left hheld.idle
  | giveUp i =>
    cases hj : w.lookups.joins i with
    | false => exact .inr (by simpa [Watch.step, hj] using hw)
    | true =>
      simp only [Watch.step, hj, if_true] at hheld ⊢
      by_cases hi : i = id
      · subst hi
        exact .inr (.inr (h.giveUp_left hj))
      · have hne : some i ≠ some id := fun heq => hi (Option.some.inj heq)
        exact ((h.held.giveUp_turned hj).waits hw hne).imp_left hheld.idle

/-- Whoever waits is told only after a moment at which nothing is left. -/
theorem idle_of_finished (h : Watched p w) (hw : Waits w.lookups w.heard id) (moves : List Move)
    (hended : .ended id .finished ∈ (w.after moves).heard) :
    ∃ before after, moves = before ++ after ∧ (w.after before).Idle := by
  induction moves generalizing w with
  | nil =>
    obtain ⟨task, ht, -⟩ | ⟨-, -, hunheard⟩ := hw
    · cases (h.heard.ended id _ hended).2.symm.trans ht
    · exact absurd hended hunheard
  | cons m moves ih =>
    rcases h.step_waits hw m with hidle | hwaits
    · exact ⟨[m], moves, rfl, hidle⟩
    · obtain ⟨before, after, rfl, hidle⟩ := ih (h.step m) hwaits hended
      exact ⟨m :: before, after, rfl, hidle⟩

/-- Whoever asks to be told when all jobs are done is answered at once, or waits. -/
theorem ask_waits (h : Watched p w) : (w.step (.ask .join)).Idle ∨
    Waits (w.step (.ask .join)).lookups (w.step (.ask .join)).heard w.lookups.tasks.next := by
  have hheld := (h.step (.ask .join)).held
  obtain ⟨task, ht, hstage, -, hc⟩ := h.held.ask_course .join
  simp only [Watch.step, Watch.took] at hheld ⊢
  rw [hstage] at hc
  obtain ⟨hzero, heq⟩ | heq := hc.of_join
  · refine .inl (hheld.idle ?_)
    rw [heq]
    exact hzero
  · rw [heq, List.append_nil]
    refine .inr (.inl ⟨_, Tasks.find?_advance_self ht .joining, rfl, fun hmem => ?_⟩)
    exact absurd (h.heard.past _ hmem _ _ rfl).1 (Nat.lt_irrefl _)

/-- **Whoever asks to be told when all jobs are done is told after a moment, since the question, at which none was left.** -/
theorem joined (h : Watched p w) (moves : List Move)
    (hended : .ended w.lookups.tasks.next .finished ∈ ((w.step (.ask .join)).after moves).heard) :
    ∃ before after, moves = before ++ after ∧ ((w.step (.ask .join)).after before).Idle := by
  rcases h.ask_waits with hidle | hwaits
  · exact ⟨[], moves, rfl, hidle⟩
  · exact (h.step (.ask .join)).idle_of_finished hwaits moves hended

end Watched

end PoolFeed.Lookups
