import PoolFeed.Gateway.Basic

/-!
# Subscriptions

| here | there |
| --- | --- |
| `Subscription` | `GeyserSubscription` with its counters |
| `read`, `collect` | one pass of `GeyserSubscription.__aiter__`, and the whole iteration |
| `ping`, `cancel` | `GeyserSubscription.ping`, `cancel` |

An open subscription is read item by item: transactions are handed on, the service's own pings and pongs
are noted, and all else is passed over. It ends when the service closes it, and quietly too when a call
that was cancelled here says so. Any other fault is an error.
-/

namespace PoolFeed

/-- What is read from a subscription. -/
inductive StreamItem where
  | update (u : Wire.StreamUpdate)
  | unreadable
  | fault (f : CallFault)
  | ended

/-- What an item comes to. -/
inductive Reading where
  | transaction (t : Transaction)
  | nothing
  | ended
  | failed (e : GatewayError)

structure Subscription where
  cancelled : Bool := false
  updates : Nat := 0
  transactions : Nat := 0
  pings : Nat := 0
  deriving DecidableEq

namespace Subscription

/-- Writes a ping into the subscription, which may fail. -/
def ping (s : Subscription) (id : Int) (failure : Option CallFault) : Subscription × Exchange Unit :=
  if Gateway.isInt32 id then
    let wire := [WireCall.write (Wire.Message.encode (Wire.pingRequest id))]
    match failure with
    | none => ({ s with pings := s.pings + 1 }, ⟨.ok (), wire, []⟩)
    | some f => (s, ⟨.error (.pingWriteFailed f), wire, []⟩)
  else (s, ⟨.error .outOfRange, [], []⟩)

/-- Cancels the call, once. -/
def cancel (s : Subscription) : Subscription × List WireCall :=
  if s.cancelled then (s, []) else ({ s with cancelled := true }, [.cancelCall])

/-- The end that a fault brings. -/
def broken (s : Subscription) : CallFault → Reading
  | .status code details =>
    if s.cancelled && code == "CANCELLED" then .ended else .failed (.streamFailed (.status code details))
  | .usage text => .failed (.misused text)

/-- Takes one item. -/
def read (s : Subscription) : StreamItem → Reading × Subscription × List Log.Entry
  | .ended => (.ended, s, [Log.info "Yellowstone stream ended by server"])
  | .fault f => (s.broken f, s, [])
  | .unreadable => (.failed .unreadable, s, [])
  | .update u =>
    let s := { s with updates := s.updates + 1 }
    match u with
    | .transaction u => (.transaction u.toTransaction, { s with transactions := s.transactions + 1 }, [])
    | .ping => (.nothing, s, [Log.debug "Received server ping"])
    | .pong id => (.nothing, s, [Log.debug s!"Received pong id={id}"])
    | .other => (.nothing, s, [])

/-- What has been collected from a subscription. -/
structure Harvest where
  transactions : List Transaction := []
  error : Option GatewayError := none
  log : List Log.Entry := []

/-- Takes items until the subscription ends; after the last of them it is closed by the service. -/
def collect (s : Subscription) : List StreamItem → Harvest × Subscription
  | [] =>
    let (_, s, log) := s.read .ended
    ({ log := log }, s)
  | item :: rest =>
    let (r, s, log) := s.read item
    match r with
    | .ended => ({ log := log }, s)
    | .failed e => ({ error := some e, log := log }, s)
    | .nothing =>
      let (h, s) := s.collect rest
      ({ h with log := log ++ h.log }, s)
    | .transaction t =>
      let (h, s) := s.collect rest
      ({ h with transactions := t :: h.transactions, log := log ++ h.log }, s)

end Subscription

end PoolFeed
