/-!
# Agendas

| here | there |
| --- | --- |
| `Agenda` | the loop that runs the tasks of `StreamApplication`: callbacks that are ready, and timers |
| `soon`, `after` | what becomes ready at once, such as a `create_task`, and what a `sleep` waits for |
| `settle`, `runUntil`, `advance` | how far the loop is run |

A clock in whole milliseconds, a queue of events that are ready and a list of events that are due
later. Ready events are taken in order; time passes only when none is left, and then it passes to the
earliest later event. `settle`, `runUntil` and `advance` drive whatever handles the events; they are
bounded by a number of steps.
-/

namespace PoolFeed

/-- An event that is due at a time. -/
structure Due (ε : Type) where
  time : Nat
  event : ε

structure Agenda (ε : Type) where
  now : Nat := 0
  ready : List ε := []
  /-- Ordered by time, and by entry among equal times. -/
  later : List (Due ε) := []

namespace Agenda

variable {ε : Type}

/-- Puts an event at the end of the ready queue. -/
def soon (a : Agenda ε) (e : ε) : Agenda ε := { a with ready := a.ready ++ [e] }

/-- Puts an event after all that are due no later than it. -/
def insert (d : Due ε) : List (Due ε) → List (Due ε)
  | [] => [d]
  | x :: rest => if x.time ≤ d.time then x :: insert d rest else d :: x :: rest

/-- Puts an event on the list for some milliseconds from now. -/
def after (a : Agenda ε) (ms : Nat) (e : ε) : Agenda ε := { a with later := insert ⟨a.now + ms, e⟩ a.later }

/-- Moves the clock on to a target and makes what is due by then ready. -/
def moveTo (a : Agenda ε) (target : Nat) : Agenda ε where
  now := max a.now target
  ready := a.ready ++ (a.later.takeWhile (·.time ≤ target)).map (·.event)
  later := a.later.dropWhile (·.time ≤ target)

/-- The next ready event. -/
def pop? (a : Agenda ε) : Option (ε × Agenda ε) :=
  match a.ready with
  | [] => none
  | e :: rest => some (e, { a with ready := rest })

/-- When the next later event is due. -/
def nextTime? (a : Agenda ε) : Option Nat := a.later.head?.map (·.time)

end Agenda

/-- A world that is driven by an agenda. -/
structure Driven (ε σ : Type) where
  agenda : Agenda ε := {}
  world : σ

namespace Driven

variable {ε σ : Type}

def soon (d : Driven ε σ) (e : ε) : Driven ε σ := { d with agenda := d.agenda.soon e }

def after (d : Driven ε σ) (ms : Nat) (e : ε) : Driven ε σ := { d with agenda := d.agenda.after ms e }

/-- Carries out the actions of a turn, in order, and goes on with the last outcome that comes at once,
for a number of turns at most. -/
def play {α κ : Type} (perform : Driven ε σ → α → Option κ × Driven ε σ) (goOn : κ → Driven ε σ → List α × Driven ε σ) :
    Nat → List α × Driven ε σ → Driven ε σ
  | 0, (_, d) => d
  | fuel + 1, (actions, d) =>
    let (next, d) := actions.foldl (fun (next, d) a =>
      let (more, d) := perform d a
      (more.or next, d)) ((none : Option κ), d)
    match next with
    | none => d
    | some outcome => play perform goOn fuel (goOn outcome d)

/-- The most steps of one run. -/
def patience : Nat := 1000000

/-- Handles what is ready, without moving the clock. -/
def settle (handle : ε → Driven ε σ → Driven ε σ) : Nat → Driven ε σ → Driven ε σ
  | 0, d => d
  | fuel + 1, d => match d.agenda.pop? with
    | none => d
    | some (e, agenda) => settle handle fuel (handle e { d with agenda := agenda })

/-- Handles events, moving the clock where nothing is ready, until a condition holds. -/
def runUntil (handle : ε → Driven ε σ → Driven ε σ) (finished : σ → Bool) : Nat → Driven ε σ → Driven ε σ
  | 0, d => d
  | fuel + 1, d =>
    if finished d.world then d
    else match d.agenda.pop? with
      | some (e, agenda) => runUntil handle finished fuel (handle e { d with agenda := agenda })
      | none => match d.agenda.nextTime? with
        | none => d
        | some time => runUntil handle finished fuel { d with agenda := d.agenda.moveTo time }

/-- Handles events until the clock shows a time, and everything ready by then. -/
def runTo (handle : ε → Driven ε σ → Driven ε σ) (target : Nat) : Nat → Driven ε σ → Driven ε σ
  | 0, d => d
  | fuel + 1, d => match d.agenda.pop? with
    | some (e, agenda) => runTo handle target fuel (handle e { d with agenda := agenda })
    | none => match d.agenda.nextTime? with
      | none => { d with agenda := d.agenda.moveTo target }
      | some time =>
        if time ≤ target then runTo handle target fuel { d with agenda := d.agenda.moveTo time }
        else { d with agenda := d.agenda.moveTo target }

/-- Lets some milliseconds pass. -/
def advance (handle : ε → Driven ε σ → Driven ε σ) (ms : Nat) (d : Driven ε σ) : Driven ε σ :=
  runTo handle (d.agenda.now + ms) patience d

end Driven

end PoolFeed
