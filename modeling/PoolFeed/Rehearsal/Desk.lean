import PoolFeed.Intake
import PoolFeed.Rehearsal.Emitter
import PoolFeed.SharedStore

/-!
# Rehearsing the intake

| here | there |
| --- | --- |
| `Desk` | a `TransactionProcessor` with a store and a broadcaster that answer as they are told |
| `take` | `TransactionProcessor.process` of one envelope |

An intake played against a scripted ledger and emitter: transactions are taken one after the other,
with every write and announcement answered at once. What was to be stored, announced and looked up is
noted.
-/

namespace PoolFeed.Rehearsal

/-- What the ledger was told to store. -/
inductive Saved where
  | pool (row : PoolRow)
  | trade (pool : String) (line : TradeLine)

/-- What has been observed since it was last looked at. -/
structure DeskNotes where
  saved : List Saved := []
  /-- Announcements and their times. -/
  announced : List (Nat × Json) := []
  emissions : List Emission := []
  jobs : List LookupJob := []
  log : List Log.Entry := []

structure Desk where
  intake : Intake
  book : PoolBook
  emitter : Emitter.Scene
  ledgerFails : Bool := false
  clock : Binary64
  notes : DeskNotes := {}

namespace Desk

def note (d : Desk) (f : DeskNotes → DeskNotes) : Desk := { d with notes := f d.notes }

def log (d : Desk) (l : List Log.Entry) : Desk := d.note fun n => { n with log := n.log ++ l }

/-- Lets the emitter's side do something, and takes over what it notes. -/
def withEmitter (d : Desk) (f : Emitter.Scene → Emitter.Scene) : Desk :=
  let (notes, emitter) := Emitter.look (f d.emitter)
  ({ d with emitter := emitter }.log notes.log).note fun n => { n with emissions := n.emissions ++ notes.emissions }

def perform (d : Desk) : Intake.Action → Desk
  | .log e => d.log [e]
  | .lookUp job => d.note fun n => { n with jobs := n.jobs ++ [job] }
  | .batch pool line => d.withEmitter fun e => Emitter.enqueue e pool [line.payload]

/-- Writes to the ledger. -/
def save (d : Desk) (s : Saved) : Option String × Desk :=
  if d.ledgerFails then (some "database unavailable", d) else (none, d.note fun n => { n with saved := n.saved ++ [s] })

/-- Meets a wait. -/
def answer (d : Desk) : Intake.Wait → Option String × Desk
  | .savingPool row _ => d.save (.pool row)
  | .savingTrade pool line => d.save (.trade pool line)
  | .announcing m =>
    if d.emitter.world.fails then (some "socket layer down", d)
    else (none, d.note fun n => { n with announced := n.announced ++ [(d.emitter.agenda.now, Intake.announcement m)] })

/-- Carries out a turn and the turns that follow from its waits, for a number of turns at most. -/
def play : Nat → Desk → Intake.Turn → Option Intake.Fault × Desk
  | 0, d, _ => (none, d)
  | fuel + 1, d, t =>
    let d := t.actions.foldl perform { d with intake := t.intake, book := { d.book with registry := t.registry } }
    match t.progress with
    | .finished => (none, d)
    | .failed f => (some f, d)
    | .waits w =>
      let (failure, d) := d.answer w
      play fuel d (d.intake.resume d.book.registry w failure)

/-- Lets what is ready happen. -/
def settle (d : Desk) : Desk :=
  let (book, log) := d.book.settle
  { d with book := book }.log log

/-- Takes a transaction; no transaction waits more than twice. -/
def take (d : Desk) (t : Transaction) : Except Intake.Fault (Option Event) × Desk :=
  let (event, turn) := d.intake.begin d.book.registry (millisOf d.clock) t
  match play 3 d turn with
  | (none, d) => (.ok event, d)
  | (some f, d) => (.error f, d)

/-- Puts another book in place, with what was logged about it. -/
def withBook (d : Desk) (book : PoolBook) (l : List Log.Entry) : Desk := { d with book := book }.log l

/-- What has been observed, and a desk that has forgotten it. -/
def look (d : Desk) : DeskNotes × Desk := (d.notes, { d with notes := {} })

end Desk

end PoolFeed.Rehearsal
