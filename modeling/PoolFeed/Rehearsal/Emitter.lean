import PoolFeed.Agenda
import PoolFeed.Batcher.Turn
import PoolFeed.Rooms

/-!
# Rehearsing the batcher

| here | there |
| --- | --- |
| `Emitter` | a `TradeBatcher` over an `emit_to_room` that takes some time |
| `start`, `ask`, `enqueue` | `AlwaysOnComponent.start`; `stop` and `_flush`; `TradeBatcher.enqueue` |

A batcher played against a scripted emitter on an agenda. The emitter takes its time, and then either
fails or notes what it was given and when.
-/

namespace PoolFeed.Rehearsal

/-- A batch as the emitter got it. -/
structure Emission where
  time : Nat
  batch : Batch Json

/-- What has been observed since it was last looked at. -/
structure EmitterNotes where
  emissions : List Emission := []
  log : List Log.Entry := []

structure Emitter where
  batcher : Batcher Json
  fails : Bool := false
  /-- Milliseconds that an emission takes. -/
  delay : Nat := 0
  endings : List (Nat × Ending) := []
  notes : EmitterNotes := {}

inductive EmitterEvent where
  /-- A task is resumed with an outcome. -/
  | resume (task turn : Nat) (o : Batcher.Outcome)
  /-- An emission that began at a time is over. -/
  | emitted (task turn : Nat) (e : Emission)

namespace Emitter

abbrev Scene := Driven EmitterEvent Emitter

def note (d : Scene) (f : EmitterNotes → EmitterNotes) : Scene := { d with world := { d.world with notes := f d.world.notes } }

/-- The end of an emission. -/
def finish (d : Scene) (e : Emission) : Batcher.Outcome × Scene :=
  if d.world.fails then (.failed "socket layer down", d)
  else (.done, note d fun n => { n with emissions := n.emissions ++ [e] })

/-- Carries out one action; a request that is answered at once gives the outcome to go on with. -/
def perform (d : Scene) : Batcher.Action Json → Option (Nat × Nat × Batcher.Outcome) × Scene
  | .log e => (none, note d fun n => { n with log := n.log ++ [e] })
  | .wake task turn o => (none, d.soon (.resume task turn o))
  | .ended task e => (none, { d with world := { d.world with endings := d.world.endings ++ [(task, e)] } })
  | .await task turn r => match r with
    | .slept 0 => (none, d.soon (.resume task turn .done))
    | .slept ms => (none, d.after ms (.resume task turn .done))
    | .exited none => (none, d)
    | .exited (some ms) => (none, d.after ms (.resume task turn .expired))
    | .emitted batch =>
      let e : Emission := ⟨d.agenda.now, batch⟩
      if d.world.delay = 0 then
        let (o, d) := finish d e
        (some (task, turn, o), d)
      else (none, d.after d.world.delay (.emitted task turn e))

def install (d : Scene) (t : Batcher.Turn Json) : List (Batcher.Action Json) × Scene :=
  (t.actions, { d with world := { d.world with batcher := t.batcher } })

def goOn (o : Nat × Nat × Batcher.Outcome) (d : Scene) : List (Batcher.Action Json) × Scene :=
  install d (d.world.batcher.resume o.1 o.2.1 d.agenda.now o.2.2)

def play (d : Scene) (t : Batcher.Turn Json) : Scene := Driven.play perform goOn Driven.patience (install d t)

def resume (d : Scene) (task turn : Nat) (o : Batcher.Outcome) : Scene :=
  play d (d.world.batcher.resume task turn d.agenda.now o)

def handle (e : EmitterEvent) (d : Scene) : Scene :=
  match e with
  | .resume task turn o => resume d task turn o
  | .emitted task turn e =>
    if d.world.batcher.tasks.waitsAt task turn then
      let (o, d) := finish d e
      resume d task turn o
    else d

def settle (d : Scene) : Scene := d.settle handle Driven.patience

/-! ## What a rehearsal does -/

def start (d : Scene) : Scene := settle (play d (d.world.batcher.start d.agenda.now))

/-- Asks something of the batcher and waits until it is done. -/
def ask (d : Scene) (c : Batcher.Call) : Ending × Scene :=
  let me := d.world.batcher.tasks.next
  let d := play d (d.world.batcher.ask c d.agenda.now)
  let d := d.runUntil handle (fun w => w.endings.any (·.1 == me)) Driven.patience
  (((d.world.endings.find? (·.1 == me)).map (·.2)).getD .finished, settle d)

def enqueue (d : Scene) (key : String) (records : List Json) : Scene :=
  let (b, log) := d.world.batcher.enqueue key records
  note { d with world := { d.world with batcher := b } } fun n => { n with log := n.log ++ log }

def advance (d : Scene) (ms : Nat) : Scene := settle (d.advance handle ms)

/-- What has been observed, and a rehearsal that has forgotten it. -/
def look (d : Scene) : EmitterNotes × Scene :=
  (d.world.notes, { d with world := { d.world with notes := {}, endings := [] } })

end Emitter

end PoolFeed.Rehearsal
