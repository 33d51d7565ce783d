import PoolFeed.Link.Basic

/-!
# The upstream link: turns

| here | there |
| --- | --- |
| `enter`, `tell` | `StreamConnectionManager._set_state` |
| `start`, `stop` | `StreamConnectionManager.start`, `stop` |
| `connect`, `connectFailed`, `subscribed` | `connect`: until the client is opened, its `except`, and once `subscribe_transactions` has answered |
| `tearDown`, `afterClose` | `handle_disconnect`, until `_close_client` and after it |
| `reconnect` | `reconnect`; the task that it creates runs `_delayed_connect` (`toRetry`, `pausing`) |
| `stopKeeper`, `dropSubscription`, `closeClient`, `cancelTask` | `_stop_keepalive`, `_close_subscription`, `_close_client`, `_cancel_task` |
| `recordRead`, `readingEnded` | `_read_loop` with `_schedule` |
| `goOn`, of a record | `_process_record` |
| `keep` | `_keepalive_loop` |

A turn is a link together with the actions it has taken so far. The steps of a turn are functions on
turns; the last one parks the task at its next stage or finishes it.
-/

namespace PoolFeed.Link

/-- A turn under way. -/
structure Turn (ρ : Type) where
  link : Link ρ
  actions : List (Action ρ) := []

namespace Turn

variable {ρ : Type}

def act (t : Turn ρ) (a : Action ρ) : Turn ρ := { t with actions := t.actions ++ [a] }

def log (t : Turn ρ) (e : Log.Entry) : Turn ρ := t.act (.log e)

def change (t : Turn ρ) (f : Link ρ → Link ρ) : Turn ρ := { t with link := f t.link }

/-! ## Tasks -/

/-- The task ends. -/
def finish (t : Turn ρ) (me : Nat) (e : Ending := .finished) : Turn ρ :=
  (t.change fun l => { l with tasks := l.tasks.erase me }).act (.ended me e)

/-- The task waits at a stage for what it requests. -/
def park (t : Turn ρ) (me : Nat) (stage : Stage ρ) (r : Request ρ) : Turn ρ :=
  (t.change fun l => { l with tasks := l.tasks.advance me stage }).act (.await me (t.link.tasks.nextTurn me) r)

/-- Creates a task. -/
def spawn (t : Turn ρ) (stage : Stage ρ) : Turn ρ :=
  (t.change fun l => { l with tasks := l.tasks.spawn stage }).act (.wake t.link.tasks.next 0)

/-- Tells a task to give up, if it has not ended. -/
def cancelTask (t : Turn ρ) (id : Option Nat) : Turn ρ :=
  match id.bind t.link.tasks.find? with
  | none => t
  | some task => (t.change fun l => { l with tasks := l.tasks.cancel task.id }).act (.wake task.id task.turn)

/-! ## State -/

/-- Tells one listener of a change; one that fails is noted. -/
def tell (old new : LinkState) (t : Turn ρ) (l : Listener) : Turn ρ :=
  match l with
  | .direct | .deferred => t.act (.tell l old new)
  | .broken reason => t.log (Log.error s!"State change callback error: {reason}")

/-- Enters a state and tells the listeners; entering the present state does nothing. -/
def enter (t : Turn ρ) (new : LinkState) : Turn ρ :=
  let old := t.link.state
  if old = new then t
  else
    let t := t.change fun l => { l with state := new }
    let t := t.log (Log.info s!"Stream state {old.name} -> {new.name}" [.state new.name])
    t.link.listeners.foldl (tell old new) t

/-! ## Closing -/

/-- Stops the keepalive. -/
def stopKeeper (t : Turn ρ) : Turn ρ := (t.cancelTask t.link.keeper).change fun l => { l with keeper := none }

/-- Stops the reader, unless it is the task whose turn it is. -/
def stopReader (t : Turn ρ) (me : Nat) : Turn ρ :=
  (if t.link.reader = some me then t else t.cancelTask t.link.reader).change fun l => { l with reader := none }

/-- Stops a retry that waits or connects. -/
def stopRetry (t : Turn ρ) : Turn ρ := (t.cancelTask t.link.retry).change fun l => { l with retry := none }

/-- Cancels the current subscription; a failure is noted. -/
def dropSubscription (t : Turn ρ) (luck : Luck) : Turn ρ :=
  match t.link.subscription with
  | none => t
  | some sub =>
    let t := t.act (.cancel sub)
    let t := match luck.cancel sub with
      | some reason => t.log (Log.debug s!"Error cancelling subscription: {reason}")
      | none => t
    t.change fun l => { l with subscription := none }

/-! ## Retrying -/

/-- Seconds to one place. -/
def seconds (ms : Nat) : String := (Binary64.ofIntRatio ms 1000).fixed 1

/-- Arranges a retry, or gives up at the ceiling. The turn may belong to a task. -/
def reconnect (t : Turn ρ) (me : Option Nat) : Turn ρ :=
  let l := t.link
  if l.options.maxRetries ≤ l.retries then
    (t.log (Log.critical s!"Giving up on stream after {l.retries} reconnect attempts" [.attempt l.retries])).enter
      .disconnected
  else
    let n := l.retries + 1
    let t := t.change fun l => { l with retries := n }
    let t := if l.retry.isSome && l.retry = me then t else t.cancelTask l.retry
    let delay := seconds l.options.retryDelay
    let t := t.log (Log.warning s!"Reconnecting in {delay}s (attempt {n}/{l.options.maxRetries})" [.attempt n])
    (t.spawn .toRetry).change fun l => { l with retry := some t.link.tasks.next }

/-- What follows the closing of a client. -/
def afterClose (t : Turn ρ) (me : Nat) : AfterClose → Turn ρ
  | .abandoned => t.finish me
  | .teardown => if t.link.stopping then (t.enter .disconnected).finish me else (t.reconnect (some me)).finish me
  | .stop =>
    let t := t.enter .disconnected
    if t.link.isStarted then
      let (c, log) := t.link.component.stop
      (log.foldl Turn.log (t.change fun l => { l with component := c })).finish me
    else t.finish me

/-- Closes the current client, if there is one. -/
def closeClient (t : Turn ρ) (me : Nat) (next : AfterClose) : Turn ρ :=
  match t.link.client with
  | none => t.afterClose me next
  | some n => (t.change fun l => { l with client := none }).park me (.closing n next) (.closed n)

/-- Takes the present connection down, unless that has been done. -/
def tearDown (t : Turn ρ) (me : Nat) (luck : Luck) : Turn ρ :=
  match t.link.state with
  | .reconnecting | .disconnected => t.finish me
  | .connecting | .connected =>
    let t := (t.enter .reconnecting).change fun l => { l with disconnects := l.disconnects + 1 }
    ((t.stopKeeper.dropSubscription luck).stopReader me).closeClient me .teardown

/-! ## Connecting -/

/-- A step of a connection has failed. -/
def connectFailed (t : Turn ρ) (me : Nat) (luck : Luck) (reason : String) : Turn ρ :=
  (t.log (Log.error s!"Stream connect failed: {reason}" [.attempt t.link.retries])).tearDown me luck

/-- Begins a connection, unless there is one or one is under way. -/
def connect (t : Turn ρ) (me : Nat) (luck : Luck) : Turn ρ :=
  match t.link.state with
  | .connecting | .connected => t.finish me
  | .disconnected | .reconnecting =>
    let t := (t.change fun l => { l with stopping := false }).enter .connecting
    let n := t.link.clients + 1
    let t := (t.change fun l => { l with clients := n }).act (.create n)
    match luck.create n with
    | some reason => t.connectFailed me luck reason
    | none => (t.change fun l => { l with client := some n }).park me (.opening n) (.opened n)

/-- A subscription has been opened. -/
def subscribed (t : Turn ρ) (me : Nat) (luck : Luck) (sub : Nat) : Turn ρ :=
  if t.link.stopping then
    let t := t.act (.cancel sub)
    match luck.cancel sub with
    | some reason => t.finish me (.raised reason)
    | none => t.closeClient me .abandoned
  else
    let t := (t.change fun l => { l with subscription := some sub }).enter .connected
    let t := t.change fun l => { l with retries := 0, connections := l.connections + 1 }
    let t := (t.spawn (.toKeep sub)).change fun l => { l with keeper := some t.link.tasks.next }
    let t := (t.spawn (.toRead sub)).change fun l => { l with reader := some t.link.tasks.next }
    (t.log (Log.info s!"Listening for transactions on {t.link.options.programs.length} programs")).finish me

/-! ## Calls -/

def start (t : Turn ρ) (me now : Nat) (luck : Luck) : Turn ρ :=
  if t.link.isStarted then
    if t.link.state = .disconnected then t.connect me luck else t.finish me
  else
    let (c, log) := t.link.component.start now
    let t := log.foldl Turn.log (t.change fun l => { l with component := c })
    (t.change fun l => { l with stopping := false }).connect me luck

/-- Stops timers and the stream; records under way are left alone. -/
def stop (t : Turn ρ) (me : Nat) (luck : Luck) : Turn ρ :=
  let t := (t.change fun l => { l with stopping := true }).stopRetry
  let t := (t.stopKeeper.dropSubscription luck).stopReader me
  t.closeClient me .stop

def call (t : Turn ρ) (me now : Nat) (luck : Luck) : Call → Turn ρ
  | .start => t.start me now luck
  | .stop => t.stop me luck
  | .connect => t.connect me luck
  | .handleDisconnect => t.tearDown me luck

/-! ## Reading and processing -/

/-- The subscription has no more records. -/
def readingEnded (t : Turn ρ) (me : Nat) (luck : Luck) (e : Log.Entry) : Turn ρ :=
  let t := t.log e
  if t.link.stopping then t.finish me else t.tearDown me luck

/-- A record has arrived: it gets a task of its own. -/
def recordRead (t : Turn ρ) (me sub : Nat) (r : Incoming ρ) : Turn ρ :=
  ((t.change fun l => { l with received := l.received + 1 }).spawn (.toProcess r)).park me (.reading sub) (.next sub)

/-- Waits for the time of the next ping. -/
def keep (t : Turn ρ) (me sub : Nat) : Turn ρ := t.park me (.keeping sub) (.slept t.link.options.pingInterval)

/-- One task goes on from its stage. An outcome that the stage cannot have leaves it as it is. -/
def goOn (t : Turn ρ) (me now : Nat) (luck : Luck) : Stage ρ → Outcome ρ → Turn ρ
  | .called c, _ => t.call me now luck c
  | .opening n, .done => t.park me (.greeting n) (.version n)
  | .opening _, .failed reason => t.connectFailed me luck reason
  | .greeting n, .version v =>
    (t.change fun l => { l with version := some v }).park me (.subscribing n) (.subscribed n)
  | .greeting _, .failed reason => t.connectFailed me luck reason
  | .subscribing n, .done => t.subscribed me luck n
  | .subscribing _, .failed reason => t.connectFailed me luck reason
  | .closing _ next, .done => t.afterClose me next
  | .closing _ next, .failed reason => (t.log (Log.debug s!"Error closing client: {reason}")).afterClose me next
  | .toRetry, _ => t.park me .pausing (.slept t.link.options.retryDelay)
  | .pausing, _ => (t.enter .disconnected).connect me luck
  | .toRead sub, _ => t.park me (.reading sub) (.next sub)
  | .reading sub, .record r => t.recordRead me sub r
  | .reading _, .ended => t.readingEnded me luck (Log.warning "Stream ended")
  | .reading _, .failed reason => t.readingEnded me luck (Log.error s!"Stream error: {reason}")
  | .toKeep sub, _ => t.keep me sub
  | .keeping sub, _ => t.park me (.pinging sub) (.pinged sub)
  | .pinging sub, .done => t.keep me sub
  | .pinging sub, .failed reason =>
    let t := t.change fun l => { l with pingFailures := l.pingFailures + 1 }
    (t.log (Log.warning s!"Keepalive ping failed: {reason}")).keep me sub
  | .toProcess r, _ => t.park me (.processing r) (.processed r)
  | .processing _, .done => (t.change fun l => { l with processed := l.processed + 1 }).finish me
  | .processing r, .failed reason =>
    let t := t.change fun l => { l with processingErrors := l.processingErrors + 1 }
    (t.log (Log.error s!"Error processing transaction: {reason}" [.slot r.slot])).finish me
  | _, _ => t

end Turn

variable {ρ : Type}

/-- Resumes a task at a turn with an outcome. A turn that is past is ignored; a task that was told to
give up does so. -/
def resume (l : Link ρ) (id turn now : Nat) (luck : Luck) (o : Outcome ρ) : Turn ρ :=
  match l.tasks.find? id with
  | none => ⟨l, []⟩
  | some task =>
    if task.turn ≠ turn then ⟨l, []⟩
    else if task.cancelled then Turn.finish ⟨l, []⟩ id .cancelled
    else Turn.goOn ⟨l, []⟩ id now luck task.stage o

/-- A caller asks for something: a task is created for it. -/
def ask (l : Link ρ) (c : Call) : Turn ρ := Turn.spawn ⟨l, []⟩ (.called c)

/-- A caller asks for something, and the task created for it begins at once. -/
def askAtOnce (l : Link ρ) (c : Call) (now : Nat) (luck : Luck) : Turn ρ :=
  let me := l.tasks.next
  Turn.goOn ⟨{ l with tasks := l.tasks.spawn (.called c) }, []⟩ me now luck (.called c) .done

/-- A caller arranges a retry by hand. -/
def askRetry (l : Link ρ) : Turn ρ := Turn.reconnect ⟨l, []⟩ none

end PoolFeed.Link
