import PoolFeed.Agenda
import PoolFeed.Lookups.Turn
import PoolFeed.Roster

/-!
# Rehearsing lookups

| here | there |
| --- | --- |
| `Resolver` | a `MetadataQueue` over a `MetadataResolver` that takes some time |
| `start`, `stop`, `enqueue`, `join` | the methods of `MetadataQueue`; a `join` may be given up after some time |

Lookups played against a scripted resolver on an agenda. The resolver takes some time for each mint, and
fails for some.
-/

namespace PoolFeed.Rehearsal

/-- When the resolver began or completed a job. -/
structure ResolverMark where
  time : Nat
  isDone : Bool
  job : LookupJob

/-- What has been observed since it was last looked at. -/
structure ResolverNotes where
  marks : List ResolverMark := []
  log : List Log.Entry := []

structure Resolver where
  lookups : Lookups
  /-- Mints for which it fails. -/
  fails : List String := []
  /-- Milliseconds that it takes for a mint. -/
  delays : Roster Nat := []
  endings : List (Nat × Ending) := []
  /-- Whether a wait for the end of all jobs has taken too long. -/
  expired : Bool := false
  notes : ResolverNotes := {}

inductive ResolverEvent where
  /-- A task is resumed. -/
  | resume (task turn : Nat)
  /-- A job has taken its time. -/
  | resolved (task turn : Nat) (job : LookupJob)
  /-- A wait for the end of all jobs takes too long. -/
  | expire (task : Nat)

namespace Resolver

abbrev Scene := Driven ResolverEvent Resolver

def note (d : Scene) (f : ResolverNotes → ResolverNotes) : Scene := { d with world := { d.world with notes := f d.world.notes } }

def mark (d : Scene) (isDone : Bool) (job : LookupJob) : Scene :=
  note d fun n => { n with marks := n.marks ++ [⟨d.agenda.now, isDone, job⟩] }

/-- The end of a job. -/
def finish (d : Scene) (job : LookupJob) : Lookups.Outcome × Scene :=
  if d.world.fails.contains job.mint then (.failed s!"no metadata for {job.mint}", d) else (.done, mark d true job)

/-- Carries out one action; a job that takes no time gives the outcome to go on with. -/
def perform (d : Scene) : Lookups.Action → Option (Nat × Nat × Lookups.Outcome) × Scene
  | .log e => (none, note d fun n => { n with log := n.log ++ [e] })
  | .wake task turn => (none, d.soon (.resume task turn))
  | .ended task e => (none, { d with world := { d.world with endings := d.world.endings ++ [(task, e)] } })
  | .resolve task turn job =>
    let d := mark d false job
    match (d.world.delays.get? job.mint).getD 0 with
    | 0 =>
      let (o, d) := finish d job
      (some (task, turn, o), d)
    | ms => (none, d.after ms (.resolved task turn job))

def install (d : Scene) (t : Lookups.Turn) : List Lookups.Action × Scene :=
  (t.actions, { d with world := { d.world with lookups := t.lookups } })

def goOn (o : Nat × Nat × Lookups.Outcome) (d : Scene) : List Lookups.Action × Scene :=
  install d (d.world.lookups.resume o.1 o.2.1 o.2.2)

def play (d : Scene) (t : Lookups.Turn) : Scene := Driven.play perform goOn Driven.patience (install d t)

def handle (e : ResolverEvent) (d : Scene) : Scene :=
  match e with
  | .resume task turn => play d (d.world.lookups.resume task turn .done)
  | .resolved task turn job =>
    if d.world.lookups.tasks.waitsAt task turn then
      let (o, d) := finish d job
      play d (d.world.lookups.resume task turn o)
    else d
  | .expire task =>
    if d.world.lookups.tasks.isLive task then
      play { d with world := { d.world with expired := true } } (d.world.lookups.giveUp task)
    else d

def settle (d : Scene) : Scene := d.settle handle Driven.patience

/-! ## What a rehearsal does -/

def start (d : Scene) : Scene := settle (play d (d.world.lookups.start d.agenda.now))

/-- Adds jobs before any task runs; says for which there was room. -/
def enqueue (d : Scene) (jobs : List LookupJob) : List Bool × Scene :=
  let (taken, d) := jobs.foldl (fun (taken, d) job =>
    let (b, t) := d.world.lookups.enqueue job
    (taken ++ [b], play d t)) (([] : List Bool), d)
  (taken, settle d)

/-- Waits until a task has ended. -/
def await (d : Scene) (task : Nat) : Scene :=
  settle (d.runUntil handle (fun w => w.endings.any (·.1 == task)) Driven.patience)

def stop (d : Scene) : Scene :=
  let me := d.world.lookups.tasks.next
  await (play d (d.world.lookups.ask .stop)) me

/-- Waits until no job is left, for some milliseconds at most; says whether that was enough. -/
def join (d : Scene) (ms : Nat) : Bool × Scene :=
  let me := d.world.lookups.tasks.next
  let d := play { d with world := { d.world with expired := false } } (d.world.lookups.ask .join)
  let d := await (d.after ms (.expire me)) me
  (!d.world.expired, d)

def advance (d : Scene) (ms : Nat) : Scene := settle (d.advance handle ms)

/-- What has been observed, and a rehearsal that has forgotten it. -/
def look (d : Scene) : ResolverNotes × Scene :=
  (d.world.notes, { d with world := { d.world with notes := {}, endings := [] } })

end Resolver

end PoolFeed.Rehearsal
