import PoolFeed.Proofs.Lookups.Crossing
import PoolFeed.Proofs.Lookups.Forgetting
import PoolFeed.Proofs.Lookups.Joining

/-!
# No job is lost

| here | there |
| --- | --- |
| `Lawful` | "max pending jobs", "a full queue drops the job" and "wait until every queued job has been processed" (`MetadataQueue`) |
| `Orderly` | "a fixed worker pool" and "number of concurrent workers", as `MetadataQueue` has it |

`jobs_conserved` says, of every run, that the queue keeps to its bound and refuses a job only when it is full; that the
resolver is called for the accepted jobs in order, once each; that every accepted job waits, is being resolved, has been
completed, has failed or was cut short; and that whoever waits for the end of all jobs is told after it (`Lawful`).

No more calls run at once than there are workers, a stop ends them all, and the next start goes on with what waits
(`Orderly`): exactly as long as no start crosses a stop. A start that comes while a stop waits for workers finds the lookups
started and does nothing. It takes effect before that stop returns only if another stop, of the same workers, has returned
already: the later stop then forgets the workers of that start without telling them to give up. It does not come to that as
long as no two stops are under way at once (`not_crossed`).
-/

namespace PoolFeed.Lookups

/-- What holds after a run. -/
structure Lawful (p : Plan) (w : Watch) : Prop where
  bounded : (w.lookups.queue.length : Int) ≤ p.capacity
  /-- A job is refused exactly when the queue is full. -/
  refused : ∀ job, (w.lookups.enqueue job).1 = false ↔ (w.lookups.queue.length : Int) = p.capacity
  /-- With a job that is refused, nothing changes but the count of those. -/
  dropped : ∀ job, (w.lookups.enqueue job).1 = false →
    (w.lookups.enqueue job).2.lookups = { w.lookups with dropped := w.lookups.dropped + 1 }
  /-- The jobs that the resolver has been called for, one call each, are the first that were accepted; the others wait. -/
  order : p.resolves = true → w.begun ++ w.lookups.queue = w.accepted
  uncalled : p.resolves = false → w.begun = []
  balance : p.resolves = true → w.lookups.enqueued =
    w.lookups.queue.length + w.lookups.running + w.lookups.completed + w.lookups.failed + w.cut
  /-- Whoever asks to be told when no job is left is told after a moment, since then, at which none was. -/
  joined : ∀ moves, .ended w.lookups.tasks.next .finished ∈ ((w.step (.ask .join)).after moves).heard →
    ∃ before after, moves = before ++ after ∧ ((w.step (.ask .join)).after before).Idle

/-- What holds as long as the workers are those of the last start. -/
structure Orderly (p : Plan) (w : Watch) : Prop where
  atOnce : w.lookups.running ≤ p.workers
  /-- From a stop to the next start no job is begun, and those that waited wait where they were. -/
  kept : ∀ moves, ((w.step (.ask .stop)).after moves).starts = w.starts →
    ((w.step (.ask .stop)).after moves).begun = w.begun ∧
      w.lookups.queue <+: ((w.step (.ask .stop)).after moves).lookups.queue
  /-- After a start they are processed, unless it is stopped again, if whoever may be resumed is resumed at some time. -/
  served : ∀ now moves, w.lookups.component.isStarted = false → (∀ n, moves n ≠ .ask .stop) →
    (w.step (.start now)).Fair moves → ∃ n, Processed p w ((w.step (.start now)).along moves n)

namespace Watched

variable {p : Plan} {w : Watch}

theorem lawful (h : Watched p w) : Lawful p w := by
  have hfull : w.lookups.isFull = true ↔ (w.lookups.queue.length : Int) = p.capacity := h.capacity ▸ h.held.isFull_iff
  have hrefused : ∀ job, (w.lookups.enqueue job).1 = false ↔ w.lookups.isFull = true := fun job => by
    cases hf : w.lookups.isFull with
    | true => exact iff_of_true (enqueue_of_isFull hf job).1 rfl
    | false =>
      obtain ⟨line, tasks, acts, heq, -⟩ := enqueue_of_not_isFull hf job
      rw [heq]
      exact iff_of_false nofun nofun
  exact {
    bounded := h.capacity ▸ h.held.bounded
    refused := fun job => (hrefused job).trans hfull
    dropped := fun job hno => (enqueue_of_isFull ((hrefused job).1 hno) job).2.1
    order := h.order
    uncalled := fun hr => (h.discarded hr).1
    balance := fun hr => h.held.unfinished ▸ h.balance hr
    joined := h.joined }

theorem orderly (h : Watched p w) (htidy : w.lookups.Tidy) : Orderly p w where
  atOnce := h.workerCount ▸ htidy.running_le h.held.ordered
  kept := h.kept htidy
  served now _ hs hstop hfair := h.served htidy hs now hstop hfair

end Watched

/-- **No job is lost**, however jobs, starts, stops and the ends of calls come one after the other; and the workers are those
of the last start, all along and whatever follows up to the next start, if and only if no start has crossed a stop. -/
theorem jobs_conserved (p : Plan) (moves : List Move) : Lawful p (p.watch.after moves) ∧
    ((∀ before more, before <+: moves → (∀ now, .start now ∉ more) → Orderly p (p.watch.after (before ++ more))) ↔
      (p.watch.after moves).crossed = false) := by
  refine ⟨(p.watched.after moves).lawful, fun horderly => ?_, fun hcrossed before more hbefore hmore => ?_⟩
  · refine Bool.eq_false_iff.2 fun hcrossed => ?_
    obtain ⟨before, now, hprefix, hbefore, hs, hstopping⟩ := Watch.exists_crossing rfl hcrossed
    have hw := p.watched.after before
    obtain ⟨more, moves', hmore, hstarts, hunkept⟩ := hw.exists_unkept (p.watched.after_roused p.roused before)
      (p.watched.after_tidy (fun _ => p.tidy) before hbefore) hs hstopping now
    have hkept := (horderly (before ++ [.start now]) more hprefix hmore).kept moves'
    rw [Watch.after_append, Watch.after_append] at hkept
    exact hunkept (hkept hstarts).2
  · obtain ⟨after, rfl⟩ := hbefore
    rw [Watch.after_append] at hcrossed ⊢
    have hfree := Watch.crossed_after hmore (Watch.crossed_of_after hcrossed)
    refine ((p.watched.after before).after more).orderly ?_
    exact (p.watched.after before).after_tidy (fun _ => p.watched.after_tidy (fun _ => p.tidy) before
      (Watch.crossed_of_after hcrossed)) more hfree

/-- Two stops wait for the one worker; a start comes after the first has returned, and the second forgets the worker of that
start. It begins a job although the lookups have been stopped, and then, after another start, there are two at work. -/
theorem forgotten_worker_works :
    let p : Plan := ⟨1, 2, true, by decide, by decide⟩
    let w := p.watch.after [.start 0, .ask .stop, .ask .stop, .resume 0 0 .done, .resume 1 1 .done, .start 1,
      .resume 2 1 .done, .enqueue ⟨"A", "a"⟩]
    let stopped := (w.step (.ask .stop)).after [.resume 3 0 .done]
    let again := stopped.after [.start 2, .enqueue ⟨"B", "b"⟩, .resume 5 0 .done]
    (stopped.starts = w.starts ∧ w.begun = [] ∧ stopped.begun = [⟨"A", "a"⟩]) ∧
      p.workers < again.lookups.running := by
  decide +kernel

/-- No start crosses a stop in a run in which nobody asks to stop while a stop is under way. -/
theorem not_crossed (p : Plan) (moves : List Move) (hstops : ∀ before after, moves = before ++ .ask .stop :: after →
    (p.watch.after before).lookups.isStopping = false) : (p.watch.after moves).crossed = false :=
  p.watched.crossed_eq_false p.alone rfl moves hstops

/-- One worker, and room for one job: the first is cut short by a stop, the second waits through it, the third is refused. -/
example :
    let first : LookupJob := ⟨"A", "a"⟩
    let second : LookupJob := ⟨"B", "b"⟩
    let third : LookupJob := ⟨"C", "c"⟩
    let w := (Plan.watch ⟨1, 1, true, by decide, by decide⟩).after [.enqueue first, .start 0, .resume 0 0 .done,
      .enqueue second, .enqueue third, .ask .stop, .resume 0 1 .done, .resume 1 1 .done, .start 1, .resume 2 0 .done,
      .resume 2 1 .done]
    (w.begun, w.lookups.queue, w.lookups.completed, w.cut, w.lookups.dropped) = ([first, second], [], 1, 1, 1) := by
  decide +kernel

end PoolFeed.Lookups
