import PoolFeed.Agenda
import PoolFeed.Link.Turn
import PoolFeed.Roster

/-!
# Rehearsing the link

| here | there |
| --- | --- |
| `Upstream` | a `StreamConnectionManager` whose `client_factory` gives clients that fail as they are told |
| `call`, `callAside`, `askRetry` | its `start`, `stop`, `connect`, `handle_disconnect`, awaited or as a task, and `reconnect` |
| `drain` | `StreamConnectionManager.drain` |

A link played against scripted clients on an agenda. Each client has a script: the stage at which it
fails, if any. Subscriptions deliver the records that are fed to them; a record takes its time to be
processed and may be bad.
-/

namespace PoolFeed.Rehearsal

/-- The stage at which a scripted client fails. -/
inductive Fault where
  | none
  | create
  | connect
  | version
  | subscribe
  | close
  | cancel
  deriving DecidableEq

/-- A record: it is processed for some milliseconds, and then either noted or found bad. -/
structure FedRecord where
  id : String
  delay : Nat := 0
  bad : Bool := false

/-- What a subscription delivers. -/
inductive Feed where
  | record (r : FedRecord)
  | fault (reason : String)
  | stop

/-- An open subscription: what it holds, and the task that waits for more. -/
structure OpenStream where
  sub : Nat
  feed : List Feed := []
  waiting : Option (Nat × Nat) := none

/-- A call of a scripted client. -/
inductive ClientCall where
  | create
  | connect
  | version
  | subscribe
  | ping
  | cancel
  | close
  | closed
  deriving DecidableEq

/-- A change of state as a listener has heard it. -/
structure Heard where
  deferred : Bool
  old : LinkState
  new : LinkState

/-- What has been observed since it was last looked at. -/
structure UpstreamNotes where
  calls : List (Nat × ClientCall) := []
  heard : List Heard := []
  processed : List String := []
  log : List Log.Entry := []

structure Upstream where
  link : Link FedRecord
  /-- Scripts of the next clients, and that of all after them. -/
  script : List Fault := []
  always : Fault := .none
  closeDelay : Nat := 0
  /-- Subscribing waits while this holds. -/
  held : Bool := false
  /-- Tasks that wait to subscribe, with their clients. -/
  barred : List (Nat × Nat × Nat) := []
  streams : List OpenStream := []
  pingsFail : Bool := false
  endings : List (Nat × Ending) := []
  notes : UpstreamNotes := {}

inductive UpstreamEvent where
  /-- A task is resumed with an outcome. -/
  | resume (task turn : Nat) (o : Link.Outcome FedRecord)
  /-- A pause is over; the task is resumed a moment later. -/
  | rested (task turn : Nat) (o : Link.Outcome FedRecord)
  /-- A slow close is over. -/
  | closed (task turn client : Nat)
  /-- A record has been processed. -/
  | worked (task turn : Nat) (r : FedRecord)
  /-- A task may find something on a subscription. -/
  | look (task turn sub : Nat)
  /-- A task may subscribe. -/
  | letIn (task turn client : Nat)
  /-- A deferred listener hears of a change. -/
  | hear (old new : LinkState)

namespace Upstream

/-- The script of a client. -/
def faultOf (u : Upstream) (client : Nat) : Fault := (u.script[client - 1]?).getD u.always

def failing (u : Upstream) (client : Nat) (f : Fault) (reason : String) : Option String :=
  if u.faultOf client = f then some reason else none

/-- How clients and subscriptions of this script turn out. -/
def luck (u : Upstream) : Link.Luck where
  create n := u.failing n .create "factory failed"
  cancel n := u.failing n .cancel "cancel failed"

def note (u : Upstream) (f : UpstreamNotes → UpstreamNotes) : Upstream := { u with notes := f u.notes }

def noteCall (u : Upstream) (client : Nat) (c : ClientCall) : Upstream :=
  u.note fun n => { n with calls := n.calls ++ [(client, c)] }

def withStream (u : Upstream) (sub : Nat) (f : OpenStream → OpenStream) : Upstream :=
  { u with streams := u.streams.map fun s => if s.sub = sub then f s else s }

def outcomeOf (reason : Option String) : Link.Outcome FedRecord :=
  match reason with
  | none => .done
  | some reason => .failed reason

/-- Opens the subscription of a client, if its script lets it. -/
def openStream (u : Upstream) (client : Nat) : Link.Outcome FedRecord × Upstream :=
  match u.failing client .subscribe "subscribe failed" with
  | some reason => (.failed reason, u)
  | none => (.done, { u with streams := u.streams ++ [{ sub := client }] })

/-- The end of the processing of a record. -/
def finishRecord (u : Upstream) (r : FedRecord) : Link.Outcome FedRecord × Upstream :=
  if r.bad then (.failed s!"undecodable {r.id}", u)
  else (.done, u.note fun n => { n with processed := n.processed ++ [r.id] })

/-- Takes the next thing from a subscription. -/
def take? (u : Upstream) (sub : Nat) : Option (Link.Outcome FedRecord × Upstream) :=
  match u.streams.find? (·.sub == sub) with
  | none => none
  | some s => match s.feed with
    | [] => none
    | x :: rest =>
      let o := match x with
        | .record r => .record ⟨r, none⟩
        | .fault reason => .failed reason
        | .stop => .ended
      some (o, u.withStream sub fun s => { s with feed := rest })

/-- Answers a request: at once with an outcome, or later. -/
def answer (d : Driven UpstreamEvent Upstream) (task turn : Nat) (r : Link.Request FedRecord) :
    Option (Link.Outcome FedRecord) × Driven UpstreamEvent Upstream :=
  let u := d.world
  match r with
  | .opened n =>
    (some (outcomeOf (u.failing n .connect "connect failed")), { d with world := u.noteCall n .connect })
  | .version n =>
    let o := match u.failing n .version "version failed" with
      | some reason => .failed reason
      | none => .version s!"fake-{n}"
    (some o, { d with world := u.noteCall n .version })
  | .subscribed n =>
    let u := u.noteCall n .subscribe
    if u.held then (none, { d with world := { u with barred := u.barred ++ [(task, turn, n)] } })
    else
      let (o, u) := u.openStream n
      (some o, { d with world := u })
  | .closed n =>
    let d := { d with world := u.noteCall n .close }
    if u.closeDelay = 0 then (some (outcomeOf (u.failing n .close "close failed")), d)
    else (none, d.after u.closeDelay (.closed task turn n))
  | .next sub => match u.take? sub with
    | some (o, u) => (some o, { d with world := u })
    | none => (none, { d with world := u.withStream sub fun s => { s with waiting := some (task, turn) } })
  | .pinged sub =>
    let o := if u.pingsFail then .failed "half-closed" else .done
    (some o, { d with world := u.noteCall sub .ping })
  | .slept 0 => (none, d.soon (.resume task turn .done))
  | .slept ms => (none, d.after ms (.rested task turn .done))
  | .processed r =>
    if r.body.delay = 0 then
      let (o, u) := u.finishRecord r.body
      (some o, { d with world := u })
    else (none, d.after r.body.delay (.worked task turn r.body))

/-- Carries out one action; a request that is answered at once gives the outcome to go on with. -/
def perform (d : Driven UpstreamEvent Upstream) (a : Link.Action FedRecord) :
    Option (Nat × Nat × Link.Outcome FedRecord) × Driven UpstreamEvent Upstream :=
  let u := d.world
  match a with
  | .log e => (none, { d with world := u.note fun n => { n with log := n.log ++ [e] } })
  | .create n => (none, { d with world := u.noteCall n .create })
  | .cancel n => (none, { d with world := u.noteCall n .cancel })
  | .tell .deferred old new => (none, d.soon (.hear old new))
  | .tell _ old new => (none, { d with world := u.note fun n => { n with heard := n.heard ++ [⟨false, old, new⟩] } })
  | .wake task turn => (none, d.soon (.resume task turn .done))
  | .ended task e => (none, { d with world := { u with endings := u.endings ++ [(task, e)] } })
  | .await task turn r =>
    let (o, d) := answer d task turn r
    (o.map fun o => (task, turn, o), d)

def install (d : Driven UpstreamEvent Upstream) (t : Link.Turn FedRecord) :
    List (Link.Action FedRecord) × Driven UpstreamEvent Upstream :=
  (t.actions, { d with world := { d.world with link := t.link } })

def goOn (o : Nat × Nat × Link.Outcome FedRecord) (d : Driven UpstreamEvent Upstream) :
    List (Link.Action FedRecord) × Driven UpstreamEvent Upstream :=
  install d (d.world.link.resume o.1 o.2.1 d.agenda.now d.world.luck o.2.2)

/-- Carries out the actions of a turn, and goes on with the outcomes that come at once. -/
def play (d : Driven UpstreamEvent Upstream) (t : Link.Turn FedRecord) : Driven UpstreamEvent Upstream :=
  Driven.play perform goOn Driven.patience (install d t)

def resume (d : Driven UpstreamEvent Upstream) (task turn : Nat) (o : Link.Outcome FedRecord) :
    Driven UpstreamEvent Upstream :=
  play d (d.world.link.resume task turn d.agenda.now d.world.luck o)

def handle (e : UpstreamEvent) (d : Driven UpstreamEvent Upstream) : Driven UpstreamEvent Upstream :=
  let u := d.world
  match e with
  | .resume task turn o => resume d task turn o
  | .rested task turn o => d.soon (.resume task turn o)
  | .closed task turn n =>
    if u.link.tasks.waitsAt task turn then
      resume { d with world := u.noteCall n .closed } task turn (outcomeOf (u.failing n .close "close failed"))
    else d
  | .worked task turn r =>
    let (o, u) := u.finishRecord r
    resume { d with world := u } task turn o
  | .look task turn sub =>
    if u.link.tasks.waitsAt task turn then
      match u.take? sub with
      | some (o, u) => resume { d with world := u } task turn o
      | none => { d with world := u.withStream sub fun s => { s with waiting := some (task, turn) } }
    else resume d task turn .done
  | .letIn task turn n =>
    if u.link.tasks.waitsAt task turn then
      let (o, u) := u.openStream n
      resume { d with world := u } task turn o
    else resume d task turn .done
  | .hear old new => { d with world := u.note fun n => { n with heard := n.heard ++ [⟨true, old, new⟩] } }

def settle (d : Driven UpstreamEvent Upstream) : Driven UpstreamEvent Upstream := d.settle handle Driven.patience

/-! ## What a rehearsal does -/

/-- Calls the link and does not wait for the end of the call. -/
def callAside (d : Driven UpstreamEvent Upstream) (c : Link.Call) : Driven UpstreamEvent Upstream :=
  settle (play d (d.world.link.ask c))

/-- Calls the link and waits for the end of the call. -/
def call (d : Driven UpstreamEvent Upstream) (c : Link.Call) : Ending × Driven UpstreamEvent Upstream :=
  let id := d.world.link.tasks.next
  let d := play d (d.world.link.ask c)
  let d := d.runUntil handle (fun u => u.endings.any (·.1 == id)) Driven.patience
  let e := ((d.world.endings.find? (·.1 == id)).map (·.2)).getD .finished
  (e, settle d)

def askRetry (d : Driven UpstreamEvent Upstream) : Driven UpstreamEvent Upstream :=
  settle (play d d.world.link.askRetry)

/-- Waits for the records that are under way. -/
def drain (d : Driven UpstreamEvent Upstream) : Driven UpstreamEvent Upstream :=
  let ids := (d.world.link.tasks.live.filter (·.stage.isRecord)).map (·.id)
  settle (d.runUntil handle (fun u => ids.all fun id => !u.link.tasks.isLive id) Driven.patience)

/-- Feeds the subscription that was opened last; says whether there is one. -/
def feed (d : Driven UpstreamEvent Upstream) (items : List Feed) : Bool × Driven UpstreamEvent Upstream :=
  match d.world.streams.getLast? with
  | none => (false, d)
  | some s =>
    let u := d.world.withStream s.sub fun s => { s with feed := s.feed ++ items, waiting := none }
    let d := { d with world := u }
    let d := match s.waiting with
      | some (task, turn) => if items.isEmpty then { d with world := d.world.withStream s.sub fun x =>
          { x with waiting := s.waiting } } else d.soon (.look task turn s.sub)
      | none => d
    (true, settle d)

/-- Holds subscribing back, or lets all go on that wait for it. -/
def gate (d : Driven UpstreamEvent Upstream) (hold : Bool) : Driven UpstreamEvent Upstream :=
  if hold then { d with world := { d.world with held := true } }
  else
    let waiting := d.world.barred
    let d := { d with world := { d.world with held := false, barred := [] } }
    settle (waiting.foldl (fun d (task, turn, n) => d.soon (.letIn task turn n)) d)

def advance (d : Driven UpstreamEvent Upstream) (ms : Nat) : Driven UpstreamEvent Upstream := settle (d.advance handle ms)

/-- What has been observed, and a rehearsal that has forgotten it. -/
def look (d : Driven UpstreamEvent Upstream) : UpstreamNotes × Driven UpstreamEvent Upstream :=
  (d.world.notes, { d with world := { d.world with notes := {}, endings := [] } })

end Upstream

end PoolFeed.Rehearsal
