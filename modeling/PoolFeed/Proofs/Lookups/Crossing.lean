import PoolFeed.Proofs.Lookups.Stopping

/-!
# Starts that cross a stop

A start takes effect while a stop waits only if another stop has made the lookups stopped in between. So no start crosses a
stop as long as no two stops are under way at once (`crossed_eq_false`).
-/

namespace PoolFeed.Lookups

/-- At most one stop waits, and the lookups run until it is over. -/
structure Alone (l : Lookups) : Prop where
  started : ∀ id task workers, l.tasks.find? id = some task → task.stage = .stopping workers →
    l.component.isStarted = true
  unique : ∀ i j t u workers workers', l.tasks.find? i = some t → t.stage = .stopping workers →
    l.tasks.find? j = some u → u.stage = .stopping workers' → i = j

namespace Alone

variable {l l' : Lookups}

/-- No other stop has begun. -/
theorem of_sub (h : l.Alone) (hcomponent : l'.component = l.component)
    (hsub : ∀ id task' workers, l'.tasks.find? id = some task' → task'.stage = .stopping workers →
      ∃ task workers, l.tasks.find? id = some task ∧ task.stage = .stopping workers) : l'.Alone where
  started id task' workers ht' hs := by
    obtain ⟨task, workers, ht, hs⟩ := hsub id task' workers ht' hs
    rw [hcomponent]
    exact h.started id task workers ht hs
  unique i j t' u' workers workers' ht' hs hu' hs' := by
    obtain ⟨t, workers, ht, hs⟩ := hsub i t' workers ht' hs
    obtain ⟨u, workers', hu, hs'⟩ := hsub j u' workers' hu' hs'
    exact h.unique i j t u workers workers' ht hs hu hs'

theorem turned (h : l.Alone) {who : Option Nat} {t : Turn} (ht : Turned l who none t)
    (hcomponent : t.lookups.component = l.component) : t.lookups.Alone :=
  h.of_sub hcomponent fun id task' workers ht' hs => by
    obtain ⟨task, htask, hpasses⟩ := ht.passes id task' ht'
    exact ⟨task, workers, htask, (hpasses.stopping hs).resolve_right nofun⟩

/-- Nobody stops. -/
theorem of_not_isStopping (h : ∀ id task workers, l.tasks.find? id = some task → task.stage ≠ .stopping workers) :
    l.Alone where
  started id task workers ht hs := absurd hs (h id task workers ht)
  unique i _ t _ workers _ ht hs _ _ := absurd hs (h i t workers ht)

theorem isStopping_eq_false (h : l.Alone) (hord : l.tasks.Ordered) (hs : l.component.isStarted = false) :
    l.isStopping = false := by
  refine List.any_eq_false.2 fun task hlive hstopping => ?_
  cases hstage : task.stage with
  | stopping workers => exact absurd (hs.symm.trans (h.started _ task workers (Tasks.find?_of_mem hord hlive) hstage)) nofun
  | called | begun | waiting | woken | resolving | joining => rw [hstage] at hstopping; cases hstopping

end Alone

namespace Watched

variable {p : Plan} {w : Watch}

/-- A caller asks to stop, and nobody else does. -/
theorem ask_stop_alone (h : Watched p w) (hnone : w.lookups.isStopping = false) : (w.lookups.ask .stop).lookups.Alone := by
  obtain ⟨task, ht, hstage, -, hc⟩ := h.held.ask_course .stop
  have hspawn : ∀ id u workers, (w.lookups.tasks.spawn (.called .stop)).find? id = some u → u.stage ≠ .stopping workers :=
    fun id u workers hu => by
      obtain ⟨-, rfl⟩ | hold := Tasks.find?_of_spawn h.held.ordered hu
      · exact nofun
      · exact ne_stopping hnone hold workers
  have herase : ∀ id u workers, ((w.lookups.tasks.spawn (.called .stop)).erase w.lookups.tasks.next).find? id = some u →
      u.stage ≠ .stopping workers := fun id u workers hu => hspawn id u workers (Tasks.find?_of_erase hu).2
  rw [hstage] at hc
  obtain ⟨-, heq⟩ | ⟨hstarted, -, heq⟩ | ⟨-, -, heq⟩ := hc.of_stop <;> rw [heq]
  · exact .of_not_isStopping herase
  · have hmine : ∀ i u workers, (halted { w.lookups with tasks := w.lookups.tasks.spawn (.called .stop) }
        w.lookups.tasks.next).tasks.find? i = some u → u.stage = .stopping workers → i = w.lookups.tasks.next :=
      fun i u workers hu hs => by
        obtain ⟨hi, -⟩ | ⟨u', hu', hstage', -⟩ := Tidy.find?_halted _ _ i hu
        · exact hi
        · exact absurd (hstage' ▸ hs) (hspawn i u' workers hu')
    exact ⟨fun _ _ _ _ _ => hstarted, fun i j t u workers workers' ht hs hu hs' =>
      (hmine i t workers ht hs).trans (hmine j u workers' hu hs').symm⟩
  · exact .of_not_isStopping herase

theorem resume_alone (h : Watched p w) (ha : w.lookups.Alone) (id turn : Nat) (o : Outcome) :
    (w.lookups.resume id turn o).lookups.Alone := by
  have hturned := h.held.resume_turned h.settled h.staffed id turn o
  obtain ⟨heq, -⟩ | ⟨task, ht, -, ⟨-, -, hl⟩ | ⟨-, -, hc⟩⟩ := resume_cases w.lookups id turn o
  · rwa [heq]
  · exact ha.turned hturned hl.staff.2.2
  · by_cases hs : ∃ workers, task.stage = .stopping workers
    · obtain ⟨workers, hs⟩ := hs
      -- It is the one that stops, and it ends.
      refine .of_not_isStopping fun i u ws hu hstopping => ?_
      obtain ⟨u', hu', hpasses⟩ := hturned.passes i u hu
      cases ha.unique id i task u' workers ws ht hs hu' ((hpasses.stopping hstopping).resolve_right nofun)
      rw [hs] at hc
      rw [hc.of_stopping] at hu
      exact (Tasks.find?_of_erase hu).1 rfl
    · exact ha.turned hturned (hc.component ⟨fun workers hw => hs ⟨workers, hw⟩, h.settled id task .stop ht⟩)

/-- A stop that begins when no other is under way, and any other move, leaves at most one. -/
theorem step_alone (h : Watched p w) (ha : w.lookups.Alone) (m : Move)
    (hstop : m = .ask .stop → w.lookups.isStopping = false) :
    (w.step m).lookups.Alone ∧ (w.crossed = false → (w.step m).crossed = false) := by
  cases m with
  | enqueue job => exact ⟨ha.turned (h.held.enqueue_turned job) (enqueue_staff w.lookups job).2.2, id⟩
  | start now =>
    cases hs : w.lookups.component.isStarted with
    | true =>
      rw [Watch.step_start_of_started hs]
      exact ⟨ha, id⟩
    | false =>
      obtain ⟨entries, heq⟩ := start_eq h.held.ordered hs now
      have hnone := ha.isStopping_eq_false h.held.ordered hs
      rw [Watch.step_start hs, heq]
      refine ⟨.of_not_isStopping fun _ _ workers ht => ?_, fun hbefore => by rw [hbefore, hnone]; rfl⟩
      exact launched_ne_stopping h.held.ordered hnone ht workers
  | ask c =>
    refine ⟨?_, id⟩
    cases c with
    | stop => exact h.ask_stop_alone (hstop rfl)
    | join =>
      have hspawn : Alone { w.lookups with tasks := w.lookups.tasks.spawn (.called .join) } :=
        ha.of_sub rfl fun id u workers hu hs => by
          obtain ⟨-, rfl⟩ | hold := Tasks.find?_of_spawn h.held.ordered hu
          · cases hs
          · exact ⟨u, workers, hold, hs⟩
      exact hspawn.turned (h.ask_turned .join) h.held.ask_join_component
  | resume id turn o =>
    rw [Watch.step]
    split
    · exact ⟨h.resume_alone ha id turn o, fun hbefore => hbefore⟩
    · exact ⟨ha, fun hbefore => hbefore⟩
  | giveUp id =>
    rw [Watch.step]
    split
    · exact ⟨ha.turned (h.held.giveUp_turned ‹_›) (Held.giveUp_leaves w.lookups id).staff.2.2, fun hbefore => hbefore⟩
    · exact ⟨ha, fun hbefore => hbefore⟩

/-- **No start crosses a stop if no two stops are under way at once.** -/
theorem crossed_eq_false (h : Watched p w) (ha : w.lookups.Alone) (hcrossed : w.crossed = false) (moves : List Move)
    (hstops : ∀ before after, moves = before ++ .ask .stop :: after → (w.after before).lookups.isStopping = false) :
    (w.after moves).crossed = false := by
  induction moves generalizing w with
  | nil => exact hcrossed
  | cons m moves ih =>
    obtain ⟨hnext, hstill⟩ := h.step_alone ha m fun heq => hstops [] moves (by rw [heq]; rfl)
    refine ih (h.step m) hnext (hstill hcrossed) fun before after heq => ?_
    exact hstops (m :: before) after (by rw [heq]; rfl)

end Watched

theorem Plan.alone (p : Plan) : p.watch.lookups.Alone := .of_not_isStopping nofun

end PoolFeed.Lookups
