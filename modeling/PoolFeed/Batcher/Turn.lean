import PoolFeed.Batcher.Basic

/-!
# The batcher: turns

| here | there |
| --- | --- |
| `start`, `Turn.stop` | `AlwaysOnComponent.start`, `stop` |
| `Turn.giveUp`, `Turn.loopGone` | what `stop` does after its timeout, and once the loop has ended |
| `Turn.beginLoop`, `Turn.rest`, `Turn.flushed` | `TradeBatcher._run_loop` |
| `Turn.flushAll`, `Turn.flush` | `TradeBatcher._flush` |
| `Turn.cancelTask`, `Turn.park` | `cancel` of a task, and an `await` |

A turn is a batcher together with the actions it has taken so far. Flushing takes one batch after the
other and waits for each emission, so that records which come meanwhile go into the next batch of their
key. When a loop ends, the stops that wait for it are woken.
-/

namespace PoolFeed.Batcher

/-- A turn under way. -/
structure Turn (ρ : Type) where
  batcher : Batcher ρ
  actions : List (Action ρ) := []

namespace Turn

variable {ρ : Type}

def act (t : Turn ρ) (a : Action ρ) : Turn ρ := { t with actions := t.actions ++ [a] }

def log (t : Turn ρ) (e : Log.Entry) : Turn ρ := t.act (.log e)

def change (t : Turn ρ) (f : Batcher ρ → Batcher ρ) : Turn ρ := { t with batcher := f t.batcher }

/-! ## Tasks -/

/-- Whether a task waits for a loop to end. -/
def waitsFor (loop : Nat) (task : Task Stage) : Bool :=
  match task.stage with
  | .stopping l | .expiring l | .dropping l => l == loop
  | _ => false

/-- The task ends, and the stops that wait for it go on. -/
def finish (t : Turn ρ) (me : Nat) (e : Ending := .finished) : Turn ρ :=
  let t := (t.change fun b => { b with tasks := b.tasks.erase me }).act (.ended me e)
  let stops := t.batcher.tasks.live.filter (waitsFor me)
  { t with actions := t.actions ++ stops.map fun s => .wake s.id s.turn (.exited e) }

/-- The task waits at a stage for what it requests. -/
def park (t : Turn ρ) (me : Nat) (stage : Stage) (r : Request ρ) : Turn ρ :=
  (t.change fun b => { b with tasks := b.tasks.advance me stage }).act (.await me (t.batcher.tasks.nextTurn me) r)

/-- Tells a task to give up, if it has not ended. -/
def cancelTask (t : Turn ρ) (id : Nat) : Turn ρ :=
  match t.batcher.tasks.find? id with
  | none => t
  | some task => (t.change fun b => { b with tasks := b.tasks.cancel id }).act (.wake id task.turn .done)

/-! ## The loop -/

/-- The loop rests until its deadline, or ends if the batcher has been stopped. -/
def rest (t : Turn ρ) (me now deadline : Nat) : Turn ρ :=
  if t.batcher.running then t.park me (.resting deadline) (.slept (deadline - now)) else t.finish me

/-- A flush is over. The loop's next one is due an interval after this one was, or at once if that has
passed. -/
def flushed (t : Turn ρ) (me now : Nat) : Flush → Turn ρ
  | .ofCaller => t.finish me
  | .ofLoop deadline => t.rest me now (max (deadline + t.batcher.interval) now)

/-- Emits the next batch among some keys. -/
def flush (t : Turn ρ) (me now : Nat) (keys : List String) (f : Flush) : Turn ρ :=
  match t.batcher.batches.take? keys with
  | none => t.flushed me now f
  | some (batch, rest, batches) =>
    (t.change fun b => { b with batches := batches }).park me (.emitting batch.key rest f) (.emitted batch)

/-- Flushes all keys known by now. -/
def flushAll (t : Turn ρ) (me now : Nat) (f : Flush) : Turn ρ := t.flush me now t.batcher.batches.buffers.keys f

def beginLoop (t : Turn ρ) (me now : Nat) : Turn ρ :=
  let t := t.log (Log.info s!"Starting trade batcher with {t.batcher.interval}ms interval")
  t.rest me now (now + t.batcher.interval)

/-! ## Stopping -/

/-- The loop is gone. -/
def stopped (t : Turn ρ) (me : Nat) : Turn ρ :=
  let (c, log) := t.batcher.component.stop
  (log.foldl Turn.log (t.change fun b => { b with component := c })).finish me

def loopGone (t : Turn ρ) (me : Nat) : Turn ρ := (t.change fun b => { b with loop := none }).stopped me

/-- Stops the loop and waits for it. -/
def stop (t : Turn ρ) (me : Nat) : Turn ρ :=
  if t.batcher.running then
    let t := t.change fun b => { b with running := false }
    match t.batcher.loop with
    | none => t.stopped me
    | some loop =>
      if t.batcher.tasks.isLive loop then t.park me (.stopping loop) (.exited (some t.batcher.patience)) else t.loopGone me
  else t.finish me

/-- Patience was at its end, and the loop that was waited for has ended. The present loop, which may be
another by now, is cancelled too. -/
def giveUp (t : Turn ρ) (me : Nat) : Turn ρ :=
  let b := t.batcher
  let t := t.log (Log.warning s!"{b.component.name} loop did not exit in {b.patienceText}s, cancelling")
  match t.batcher.loop with
  | none => t.finish me (.raised "no loop")
  | some loop =>
    if t.batcher.tasks.isLive loop then (t.cancelTask loop).park me (.dropping loop) (.exited none) else t.loopGone me

/-! ## Turns -/

/-- One task goes on from its stage. An outcome that the stage cannot have leaves it as it is. -/
def goOn (t : Turn ρ) (me now : Nat) : Stage → Outcome → Turn ρ
  | .called .flush, _ => t.flushAll me now .ofCaller
  | .called .stop, _ => t.stop me
  | .begun, _ => t.beginLoop me now
  | .resting deadline, _ => t.flushAll me now (.ofLoop deadline)
  | .emitting _ rest f, .done => (t.change fun b => { b with batches := b.batches.noteEmitted }).flush me now rest f
  | .emitting key rest f, .failed reason =>
    let (batches, log) := t.batcher.batches.noteFailed key reason
    (log.foldl Turn.log (t.change fun b => { b with batches := batches })).flush me now rest f
  | .stopping _, .exited .cancelled => t.finish me .cancelled
  | .stopping _, .exited _ => t.loopGone me
  | .stopping loop, .expired => (t.cancelTask loop).park me (.expiring loop) (.exited none)
  | .expiring _, .exited _ => t.giveUp me
  | .dropping _, .exited _ => t.loopGone me
  | _, _ => t

end Turn

variable {ρ : Type}

/-- Resumes a task at a turn with an outcome. A turn that is past is ignored; a task that was told to
give up does so. -/
def resume (b : Batcher ρ) (id turn now : Nat) (o : Outcome) : Turn ρ :=
  match b.tasks.find? id with
  | none => ⟨b, []⟩
  | some task =>
    if task.turn ≠ turn then ⟨b, []⟩
    else if task.cancelled then Turn.finish ⟨b, []⟩ id .cancelled
    else Turn.goOn ⟨b, []⟩ id now task.stage o

/-- Starts the loop, unless it is running. -/
def start (b : Batcher ρ) (now : Nat) : Turn ρ :=
  if b.running then Turn.log ⟨b, []⟩ (Log.warning s!"{b.component.name} loop is already running")
  else
    let (c, log) := b.component.start now
    let loop := b.tasks.next
    let b := { b with component := c, running := true, loop := some loop, tasks := b.tasks.spawn .begun }
    (log.foldl Turn.log ⟨b, []⟩).act (.wake loop 0 .done)

/-- A caller asks for something: a task is created for it, and begins at once. -/
def ask (b : Batcher ρ) (c : Call) (now : Nat) : Turn ρ :=
  let me := b.tasks.next
  Turn.goOn ⟨{ b with tasks := b.tasks.spawn (.called c) }, []⟩ me now (.called c) .done

end PoolFeed.Batcher
