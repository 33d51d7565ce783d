import PoolFeed.Lookups.Basic

/-!
# Lookups: turns

| here | there |
| --- | --- |
| `start`, `Turn.hire` | `MetadataQueue.start` |
| `enqueue`, `Turn.callNext` | `MetadataQueue.enqueue`, and the wake-up in `put_nowait` |
| `Turn.stop`, `Turn.stopped` | `MetadataQueue.stop`, until its `gather` and after it |
| `Turn.join` | `MetadataQueue.join` |
| `Turn.next`, `Turn.takeJob` | `_worker`, from its `get` to the call of the resolver in `_process` |
| `Turn.jobOver` | `task_done` |
| `Turn.giveUp` | the cancellation of a worker at each place where it awaits |

A turn is the lookups together with the actions it has taken so far. A worker goes on with the next job
as soon as it is done with one. A worker that is cancelled after it was taken from the line passes the
call on to the next in the line.
-/

namespace PoolFeed.Lookups

/-- A turn under way. -/
structure Turn where
  lookups : Lookups
  actions : List Action := []

namespace Turn

def act (t : Turn) (a : Action) : Turn := { t with actions := t.actions ++ [a] }

def log (t : Turn) (e : Log.Entry) : Turn := t.act (.log e)

def change (t : Turn) (f : Lookups → Lookups) : Turn := { t with lookups := f t.lookups }

/-! ## Tasks -/

/-- Wakes a task that waits. -/
def wake (t : Turn) (id : Nat) : Turn := (t.lookups.tasks.find? id).elim t fun task => t.act (.wake id task.turn)

/-- Brings the task to its next stage. -/
def park (t : Turn) (me : Nat) (stage : Stage) : Turn := t.change fun l => { l with tasks := l.tasks.advance me stage }

/-- Whether a task is a stop that waits for a worker, and for no other that is still there. -/
def waitsFor (ts : Tasks Stage) (worker : Nat) (task : Task Stage) : Bool :=
  match task.stage with
  | .stopping workers => workers.contains worker && !workers.any ts.isLive
  | _ => false

/-- The task ends, and the stops that have waited for it go on. -/
def finish (t : Turn) (me : Nat) (e : Ending := .finished) : Turn :=
  let t := (t.change fun l => { l with tasks := l.tasks.erase me }).act (.ended me e)
  let stops := t.lookups.tasks.live.filter (waitsFor t.lookups.tasks me)
  stops.foldl (fun t s => t.wake s.id) t

/-- Tells a worker to give up; it leaves the line. -/
def cancelWorker (t : Turn) (id : Nat) : Turn :=
  (t.change fun l => { l with tasks := l.tasks.cancel id, line := l.line.filter (· != id) }).wake id

/-! ## Workers -/

/-- Takes the first worker from the line and wakes it. -/
def callNext (t : Turn) : Turn :=
  match t.lookups.line with
  | [] => t
  | id :: rest =>
    (t.change fun l => { l with line := rest, tasks := l.tasks.modify id fun task => { task with stage := .woken } }).wake id

/-- Whether a task waits until no job is left. -/
def isJoining (task : Task Stage) : Bool :=
  match task.stage with
  | .joining => true
  | _ => false

/-- A job is over, in whatever way; the last one releases all who wait for that. -/
def jobOver (t : Turn) : Turn :=
  let t := t.change fun l => { l with unfinished := l.unfinished - 1 }
  if t.lookups.unfinished = 0 then (t.lookups.tasks.live.filter isJoining).foldl (fun t task => t.wake task.id) t else t

/-- A worker takes the next job, among some that are there, or gets into the line. Without a resolver
jobs are discarded, one after the other. -/
def takeJob (t : Turn) (me : Nat) : List LookupJob → Turn
  | [] => (t.change fun l => { l with queue := [], line := l.line ++ [me] }).park me .waiting
  | job :: rest =>
    let t := t.change fun l => { l with queue := rest }
    if t.lookups.resolves then (t.park me (.resolving job)).act (.resolve me (t.lookups.tasks.nextTurn me) job)
    else
      ((t.log (Log.debug s!"Discarding metadata job for mint {job.mint}" [.pool job.pool])).jobOver).takeJob me rest

/-- A worker looks for a job. -/
def next (t : Turn) (me : Nat) : Turn := t.takeJob me t.lookups.queue

/-! ## Stopping and joining -/

def stopped (t : Turn) (me : Nat) : Turn :=
  let (c, log) := t.lookups.component.stop
  (log.foldl Turn.log (t.change fun l => { l with workers := [], component := c })).finish me

/-- Cancels the workers and waits for them. -/
def stop (t : Turn) (me : Nat) : Turn :=
  if t.lookups.component.isStarted then
    let workers := t.lookups.workers
    if workers.isEmpty then t.stopped me
    else
      let t := (workers.filter t.lookups.tasks.isLive).foldl cancelWorker t
      let t := t.park me (.stopping workers)
      if workers.any t.lookups.tasks.isLive then t else t.wake me
  else t.finish me

/-- Waits until no job is left. -/
def join (t : Turn) (me : Nat) : Turn := if t.lookups.unfinished = 0 then t.finish me else t.park me .joining

/-! ## Turns -/

/-- One task goes on from its stage. An outcome that the stage cannot have leaves it as it is. -/
def goOn (t : Turn) (me : Nat) : Stage → Outcome → Turn
  | .called .stop, _ => t.stop me
  | .called .join, _ => t.join me
  | .begun, _ => t.next me
  | .woken, _ => t.next me
  | .resolving _, .done => ((t.change fun l => { l with completed := l.completed + 1 }).jobOver).next me
  | .resolving job, .failed reason =>
    let t := t.change fun l => { l with failed := l.failed + 1 }
    ((t.log (Log.error s!"Metadata job failed for mint {job.mint}: {reason}" [.pool job.pool])).jobOver).next me
  | .stopping _, _ => t.stopped me
  | .joining, _ => t.finish me
  | .waiting, _ => t

/-- One task gives up at its stage: a job under way is over, and a call that cannot be taken is passed
on. -/
def giveUp (t : Turn) (me : Nat) : Stage → Turn
  | .resolving _ => t.jobOver.finish me .cancelled
  | .woken => (if t.lookups.queue.isEmpty then t else t.callNext).finish me .cancelled
  | _ => t.finish me .cancelled

end Turn

/-- Resumes a task at a turn with an outcome. A turn that is past is ignored; a task that was told to
give up does so. -/
def resume (l : Lookups) (id turn : Nat) (o : Outcome) : Turn :=
  match l.tasks.find? id with
  | none => ⟨l, []⟩
  | some task =>
    if task.turn ≠ turn then ⟨l, []⟩
    else if task.cancelled then Turn.giveUp ⟨l, []⟩ id task.stage
    else Turn.goOn ⟨l, []⟩ id task.stage o

/-- Creates a worker. -/
def Turn.hire (t : Turn) : Turn :=
  let id := t.lookups.tasks.next
  (t.change fun l => { l with tasks := l.tasks.spawn .begun, workers := l.workers ++ [id] }).wake id

/-- Starts the workers, unless that has been done. -/
def start (l : Lookups) (now : Nat) : Turn :=
  if l.component.isStarted then ⟨l, []⟩
  else
    let (c, log) := l.component.start now
    let t := log.foldl Turn.log ⟨{ l with component := c, workers := [] }, []⟩
    let t := if l.resolves then t else t.log (Log.warning "No metadata resolver configured; jobs will be discarded")
    (List.replicate l.workerCount ()).foldl (fun t _ => t.hire) t

/-- Adds a job; says whether there was room for it. -/
def enqueue (l : Lookups) (job : LookupJob) : Bool × Turn :=
  if l.isFull then
    (false, Turn.log ⟨{ l with dropped := l.dropped + 1 }, []⟩
      (Log.warning s!"Metadata queue full, dropping job for mint {job.mint}" [.pool job.pool]))
  else
    let l := { l with queue := l.queue ++ [job], unfinished := l.unfinished + 1, enqueued := l.enqueued + 1 }
    (true, Turn.callNext ⟨l, []⟩)

/-- A caller asks for something: a task is created for it, and begins at once. -/
def ask (l : Lookups) (c : Call) : Turn :=
  let me := l.tasks.next
  Turn.goOn ⟨{ l with tasks := l.tasks.spawn (.called c) }, []⟩ me (.called c) .done

/-- Someone who waits until no job is left gives up. -/
def giveUp (l : Lookups) (id : Nat) : Turn := Turn.finish ⟨l, []⟩ id .cancelled

end PoolFeed.Lookups
