import PoolFeed.Agenda
import PoolFeed.Gateway.Subscription
import PoolFeed.Rehearsal.Dialogue
import PoolFeed.Service

/-!
# Rehearsing the service

| here | there |
| --- | --- |
| `Stage` | `StreamApplication` over channels that answer as they are told |
| `start`, `stop` | `StreamApplication.start`, `stop` |
| `playLink`, `playBatcher`, `playLookups`, `playIntake` | the tasks of its parts |
| `send` | `RoomBroadcaster.emit_to_room`, `emit_global`, for the batcher and the processor |

The whole service on one agenda, against a scripted upstream: every channel answers as its script says,
and the items that are fed come out of the subscription that was opened last. The link, the batcher and
the lookups take their turns; a turn may set off others. The ledger and the upstream answer at once,
clients of the rooms a moment later.
-/

namespace PoolFeed.Rehearsal

/-- What a channel answers. -/
structure Answers where
  version : Reply
  /-- Why the first write into a subscription fails, if it does. -/
  subscribing : Option CallFault := none

/-- A client's channel, with the subscription that was opened on it. -/
structure Channel where
  client : Nat
  gateway : Gateway
  /-- Whether a subscription was asked for. -/
  hasCall : Bool := false
  subscription : Subscription := {}
  feed : List StreamItem := []
  /-- The task that waits for an item. -/
  waiting : Option (Nat × Nat) := none

/-- The parts that have tasks. -/
inductive Part where
  | link
  | batcher
  | lookups
  deriving DecidableEq

/-- What has been observed since it was last looked at. -/
structure StageNotes where
  wire : List WireCall := []
  calls : List HandlerCall := []
  log : List Log.Entry := []

structure Stage where
  service : Service
  /-- What the channels of the first clients answer, and those of all after them. -/
  script : List Answers := []
  always : Answers := { version := versionReply "1.0" }
  /-- The wall clock. -/
  clock : Binary64
  channels : List Channel := []
  endings : List (Part × Nat) := []
  notes : StageNotes := {}

inductive StageEvent where
  /-- A task of a part is resumed. -/
  | link (task turn : Nat) (o : Link.Outcome Transaction)
  | batcher (task turn : Nat) (o : Batcher.Outcome)
  | lookups (task turn : Nat)
  /-- A task may find an item on the subscription of a client. -/
  | look (task turn client : Nat)
  /-- A write to the shared store goes on. -/
  | write (ticket : Nat)
  /-- An event reaches some clients of the rooms; after that comes something else. -/
  | deliver (clients : List String) (event : String) (payload : Json) (next : StageEvent)
  /-- A pool has been announced, by a task of the link. -/
  | announced (task turn : Nat) (m : Migration)
  /-- An event follows a moment later. -/
  | pause (next : StageEvent)

namespace Stage

abbrev Scene := Driven StageEvent Stage

def note (d : Scene) (f : StageNotes → StageNotes) : Scene := { d with world := { d.world with notes := f d.world.notes } }

def log (d : Scene) (l : List Log.Entry) : Scene := note d fun n => { n with log := n.log ++ l }

def withService (d : Scene) (f : Service → Service) : Scene := { d with world := { d.world with service := f d.world.service } }

def ended (d : Scene) (p : Part) (task : Nat) : Scene :=
  { d with world := { d.world with endings := d.world.endings ++ [(p, task)] } }

/-- An event comes after a rest of some milliseconds. -/
def rest (d : Scene) (e : StageEvent) : Nat → Scene
  | 0 => d.soon e
  | ms => d.after ms (.pause e)

/-! ## Channels -/

def channel (d : Scene) (client : Nat) : Channel :=
  (d.world.channels.find? (·.client == client)).getD { client := client, gateway := d.world.service.gateway }

def withChannel (d : Scene) (c : Channel) : Scene :=
  { d with world := { d.world with channels := d.world.channels.map fun x => if x.client = c.client then c else x } }

/-- What the channel of a client answers. -/
def answers (d : Scene) (client : Nat) : Answers := (d.world.script[client - 1]?).getD d.world.always

/-- Notes what came of a call, and gives the outcome. -/
def exchange {α : Type} (d : Scene) (e : Exchange α) (onOk : α → Link.Outcome Transaction) : Link.Outcome Transaction × Scene :=
  let d := note d fun n => { n with wire := n.wire ++ e.wire, log := n.log ++ e.log }
  (match e.result with
    | .ok a => onOk a
    | .error fault => .failed fault.message, d)

/-- Cancels the subscription of a client. -/
def cancelCall (d : Scene) (client : Nat) : Scene :=
  let c := channel d client
  let (s, wire) := c.subscription.cancel
  note (withChannel d { c with subscription := s }) fun n => { n with wire := n.wire ++ wire }

/-- Reads the items of a channel up to the first that means something to the link. -/
def readItems (c : Channel) : List StreamItem → Option (Link.Outcome Transaction) × Channel × List Log.Entry
  | [] => (none, { c with feed := [] }, [])
  | item :: items =>
    let (r, s, log) := c.subscription.read item
    let c := { c with subscription := s, feed := items }
    match r with
    | .transaction t => (some (.record ⟨t, some t.slot⟩), c, log)
    | .ended => (some .ended, c, log)
    | .failed e => (some (.failed e.message), c, log)
    | .nothing =>
      let (o, c, more) := readItems c items
      (o, c, log ++ more)

/-- A task of the link takes the next record, or waits for it. -/
def readNext (d : Scene) (task turn client : Nat) : Option (Link.Outcome Transaction) × Scene :=
  let c := channel d client
  let (o, c, entries) := readItems c c.feed
  let c := if o.isNone then { c with waiting := some (task, turn) } else c
  (o, log (withChannel d c) entries)

/-! ## Lookups and batches -/

def performLookups (d : Scene) : Lookups.Action → Scene
  | .log e => log d [e]
  | .wake task turn | .resolve task turn _ => d.soon (.lookups task turn)
  | .ended task _ => ended d .lookups task

def playLookups (d : Scene) (t : Lookups.Turn) : Scene :=
  t.actions.foldl performLookups (withService d fun s => { s with lookups := t.lookups })

/-- Sends an event to some clients, before something else; says whether there are any. -/
def send (d : Scene) (whom : Rooms × List String) (event : String) (payload : Json) (next : StageEvent) : Bool × Scene :=
  let d := withService d fun s => { s with rooms := whom.1 }
  if whom.2.isEmpty then (false, d) else (true, d.soon (.deliver whom.2 event payload next))

def performBatcher (d : Scene) : Batcher.Action Json → Option (Nat × Nat × Batcher.Outcome) × Scene
  | .log e => (none, log d [e])
  | .wake task turn o => (none, d.soon (.batcher task turn o))
  | .ended task _ => (none, ended d .batcher task)
  | .await task turn r => match r with
    | .slept ms => (none, rest d (.batcher task turn .done) ms)
    | .exited none => (none, d)
    | .exited (some ms) => (none, d.after ms (.batcher task turn .expired))
    | .emitted batch =>
      let whom := d.world.service.rooms.addressRoom d.agenda.now (poolRoom batch.key)
      let (sent, d) := send d whom "trade:batch" (.arr batch.records) (.batcher task turn .done)
      (if sent then none else some (task, turn, .done), d)

def installBatcher (d : Scene) (t : Batcher.Turn Json) : List (Batcher.Action Json) × Scene :=
  (t.actions, withService d fun s => { s with batcher := t.batcher })

def playBatcher (d : Scene) (t : Batcher.Turn Json) : Scene :=
  Driven.play performBatcher
    (fun (task, turn, o) d => installBatcher d (d.world.service.batcher.resume task turn d.agenda.now o))
    Driven.patience (installBatcher d t)

/-! ## Transactions -/

def performIntake (d : Scene) : Intake.Action → Scene
  | .log e => log d [e]
  | .lookUp job => playLookups d (d.world.service.lookups.enqueue job).2
  | .batch pool line =>
    let (b, entries) := d.world.service.batcher.enqueue pool [line.payload]
    log (withService d fun s => { s with batcher := b }) entries

/-- Carries out the actions of a turn; the writes that it began go on a moment later. -/
def installIntake (d : Scene) (t : Intake.Turn) : Scene :=
  let first := d.world.service.book.registry.nextTicket
  let d := withService d fun s => { s with intake := t.intake, book := { s.book with registry := t.registry } }
  let begun := t.registry.writes.filter fun w => first ≤ w.ticket
  t.actions.foldl performIntake (begun.foldl (fun d w => d.soon (.write w.ticket)) d)

/-- Writes to the ledger; gives the reason if that fails. -/
def save (d : Scene) (write : Ledger → Except LedgerError Unit × Ledger) : Option String × Scene :=
  let (r, ledger) := write d.world.service.ledger
  let d := withService d fun s => { s with ledger := ledger }
  match r with
  | .ok () => (none, d)
  | .error e => (some e.message, d)

/-- A trade line of a pool as it is handed to the ledger. -/
def entryOf (pool : String) (l : TradeLine) : TradeEntry :=
  ⟨some l.txHash, some l.time, some pool, some l.side.name, some l.price, some l.baseAmount, some l.quoteAmount⟩

/-- Carries out a turn of a transaction, which a task of the link waits for, and the turns that follow at
once, for a number of turns at most. -/
def playIntake (task turn : Nat) : Nat → Scene → Intake.Turn → Option (Link.Outcome Transaction) × Scene
  | 0, d, _ => (none, d)
  | fuel + 1, d, t =>
    let d := installIntake d t
    let resume (w : Intake.Wait) (r : Option String × Scene) : Option (Link.Outcome Transaction) × Scene :=
      let s := r.2.world.service
      playIntake task turn fuel r.2 (s.intake.resume s.book.registry w r.1)
    match t.progress with
    | .finished => (some .done, d)
    | .failed f => (some (.failed f.message), d)
    | .waits (.savingPool row m) => resume (.savingPool row m) (save d fun l => l.savePool row.entry)
    | .waits (.savingTrade pool line) => resume (.savingTrade pool line) (save d fun l => l.saveTrade (entryOf pool line))
    | .waits (.announcing m) =>
      let whom := d.world.service.rooms.addressAll d.agenda.now
      let (sent, d) := send d whom "pool:new" (Intake.announcement m) (.announced task turn m)
      if sent then (none, d) else resume (.announcing m) (none, d)

/-- A task of the link hands over a transaction, which waits twice at most. -/
def process (d : Scene) (task turn : Nat) (t : Transaction) : Option (Link.Outcome Transaction) × Scene :=
  let s := d.world.service
  playIntake task turn 3 d (s.intake.begin s.book.registry (millisOf d.world.clock) t).2

/-! ## The link -/

/-- What the link asks of the upstream. -/
def asked (s : Service) : Gateway.Ask := { accounts := s.link.options.programs, commitment := s.link.options.commitment }

/-- Answers a request of the link: at once with an outcome, or later. -/
def answer (d : Scene) (task turn : Nat) : Link.Request Transaction → Option (Link.Outcome Transaction) × Scene
  | .opened n =>
    let (g, e) := d.world.service.gateway.connect
    let (o, d) := exchange d e fun _ => .done
    (some o, { d with world := { d.world with channels := d.world.channels ++ [{ client := n, gateway := g }] } })
  | .version n =>
    let (o, d) := exchange d ((channel d n).gateway.version (answers d n).version) .version
    (some o, d)
  | .subscribed n =>
    let c := channel d n
    let (o, d) := exchange d (c.gateway.subscribe (asked d.world.service) (answers d n).subscribing) fun _ => .done
    (some o, withChannel d { c with hasCall := true })
  | .closed n =>
    let c := channel d n
    let (g, e) := c.gateway.close
    let (o, d) := exchange d e fun _ => .done
    (some o, withChannel d { c with gateway := g })
  | .next n => readNext d task turn n
  | .pinged n =>
    let c := channel d n
    let (s, e) := c.subscription.ping 1 none
    let (o, d) := exchange d e fun _ => .done
    (some o, withChannel d { c with subscription := s })
  | .slept ms => (none, rest d (.link task turn .done) ms)
  | .processed r => process d task turn r.body

def performLink (d : Scene) : Link.Action Transaction → Option (Nat × Nat × Link.Outcome Transaction) × Scene
  | .log e => (none, log d [e])
  | .create _ | .tell _ _ _ => (none, d)
  | .cancel n => (none, cancelCall d n)
  | .wake task turn => (none, d.soon (.link task turn .done))
  | .ended task _ => (none, ended d .link task)
  | .await task turn r =>
    let (o, d) := answer d task turn r
    (o.map fun o => (task, turn, o), d)

def installLink (d : Scene) (t : Link.Turn Transaction) : List (Link.Action Transaction) × Scene :=
  (t.actions, withService d fun s => { s with link := t.link })

def playLink (d : Scene) (t : Link.Turn Transaction) : Scene :=
  Driven.play performLink
    (fun (task, turn, o) d => installLink d (d.world.service.link.resume task turn d.agenda.now {} o))
    Driven.patience (installLink d t)

def resumeLink (d : Scene) (task turn : Nat) (o : Link.Outcome Transaction) : Scene :=
  playLink d (d.world.service.link.resume task turn d.agenda.now {} o)

/-! ## Events -/

def handle (e : StageEvent) (d : Scene) : Scene :=
  let s := d.world.service
  match e with
  | .link task turn o => resumeLink d task turn o
  | .batcher task turn o => playBatcher d (s.batcher.resume task turn d.agenda.now o)
  | .lookups task turn => playLookups d (s.lookups.resume task turn .done)
  | .look task turn client =>
    if s.link.tasks.waitsAt task turn then
      match readNext d task turn client with
      | (some o, d) => resumeLink d task turn o
      | (none, d) => d
    else resumeLink d task turn .done
  | .write ticket =>
    let (book, entries) := s.book.write ticket
    log (withService d fun s => { s with book := book }) entries
  | .deliver clients event payload next =>
    let (rooms, calls, entries) := s.rooms.deliverAll event payload clients
    let d := withService d fun s => { s with rooms := rooms }
    (note d fun n => { n with calls := n.calls ++ calls, log := n.log ++ entries }).soon (.pause next)
  | .announced task turn m =>
    match playIntake task turn 1 d (s.intake.resume s.book.registry (.announcing m) none) with
    | (some o, d) => resumeLink d task turn o
    | (none, d) => d
  | .pause next => d.soon next

def settle (d : Scene) : Scene := d.settle handle Driven.patience

/-- Waits until a condition holds. -/
def await (d : Scene) (finished : Stage → Bool) : Scene := d.runUntil handle finished Driven.patience

/-- Waits until a task has ended. -/
def awaitEnd (d : Scene) (p : Part) (task : Nat) : Scene := await d fun w => w.endings.contains (p, task)

/-! ## What a rehearsal does -/

/-- Asks something of the link, and waits for it. -/
def callLink (d : Scene) (c : Link.Call) : Scene :=
  let link := d.world.service.link
  awaitEnd (playLink d (link.askAtOnce c d.agenda.now {})) .link link.tasks.next

/-- Starts all parts: the registry is filled before the link opens. -/
def start (d : Scene) : Scene :=
  let rule := Log.info ("".pushn '=' 70)
  let d := log d [rule, Log.info s!"Starting {serviceName} v{serviceVersion}", rule]
  let s := d.world.service
  let (loaded, book, entries) := s.book.load
  let d := log (withService d fun s => { s with book := book }) ((s.book.store.ping s.storeAddress).2 ++ entries)
  let d := log d [Log.info s!"Monitoring {loaded} pools"]
  let d := playBatcher d (d.world.service.batcher.start d.agenda.now)
  let d := playLookups d (d.world.service.lookups.start d.agenda.now)
  settle (log (callLink d .start) [Log.info "All components running"])

/-- Stops all parts, in the opposite order, and lets go of both stores. -/
def stop (d : Scene) : Scene :=
  let d := callLink (log d [Log.info "Stopping all components..."]) .stop
  let b := d.world.service.batcher
  let d := awaitEnd (playBatcher d (b.ask .stop d.agenda.now)) .batcher b.tasks.next
  let l := d.world.service.lookups
  let d := awaitEnd (playLookups d (l.ask .stop)) .lookups l.tasks.next
  let d := await d fun w => w.service.book.registry.writes.isEmpty
  let (ledger, entries) := d.world.service.ledger.close
  let d := withService d fun s => { s with ledger := ledger, book := { s.book with store := s.book.store.close } }
  settle (log d (entries ++ [Log.info "All components stopped gracefully"]))

/-- Feeds the subscription that was asked for last; says whether there is one. -/
def feed (d : Scene) (items : List StreamItem) : Bool × Scene :=
  match (d.world.channels.filter (·.hasCall)).getLast? with
  | none => (false, d)
  | some c =>
    let d := withChannel d { c with feed := c.feed ++ items, waiting := none }
    (true, settle (c.waiting.elim d fun (task, turn) => d.soon (.look task turn c.client)))

/-- Puts another shared store in place; writes that it does not hold back go on. -/
def withStore (d : Scene) (store : SharedStore) : Scene :=
  let d := withService d fun s => { s with book := { s.book with store := store } }
  settle (d.world.service.book.registry.writes.foldl (fun d w => d.soon (.write w.ticket)) d)

/-- Puts other rooms in place, with the calls that were made on the way. -/
def withRooms (d : Scene) (rooms : Rooms) (calls : List HandlerCall) (l : List Log.Entry) : Scene :=
  note (withService d fun s => { s with rooms := rooms }) fun n => { n with calls := n.calls ++ calls, log := n.log ++ l }

def setClock (d : Scene) (clock : Binary64) : Scene := { d with world := { d.world with clock := clock } }

def advance (d : Scene) (ms : Nat) : Scene := settle (d.advance handle ms)

/-- What has been observed, and a rehearsal that has forgotten it. -/
def look (d : Scene) : StageNotes × Scene :=
  (d.world.notes, { d with world := { d.world with notes := {}, endings := [] } })

end Stage

end PoolFeed.Rehearsal
