import PoolFeed.Gateway.Subscription

/-!
# Rehearsing the gateway

| here | there |
| --- | --- |
| `Dialogue` | a `YellowstoneClient` over a channel that answers as it is told |
| `connect`, `askVersion`, `ping`, `subscribe`, `close` | its methods |
| `pingWithin`, `cancel`, `collect` | those of the `GeyserSubscription` that was opened last |

A gateway played against a scripted service: the answers to its calls are set beforehand, and every write
into a subscription may be made to fail. What went over the wire is noted.
-/

namespace PoolFeed.Rehearsal

structure Dialogue where
  gateway : Gateway
  /-- The last subscription that was opened. -/
  subscription : Option Subscription := none
  version : Reply
  pong : Reply := .answer []
  /-- Why writes into a subscription fail, if they do. -/
  writeFault : Option CallFault := none
  /-- What went over the wire since it was last looked at. -/
  wire : List WireCall := []
  log : List Log.Entry := []

/-- An answer with a version. -/
def versionReply (version : String) : Reply := .answer (Wire.Message.encode [(1, .data (Wire.textBytes version))])

namespace Dialogue

/-- Notes what came of a call. -/
def noted {α : Type} (d : Dialogue) (e : Exchange α) : Except GatewayError α × Dialogue :=
  (e.result, { d with wire := d.wire ++ e.wire, log := d.log ++ e.log })

def connect (d : Dialogue) : Except GatewayError Unit × Dialogue :=
  let (gateway, e) := d.gateway.connect
  { d with gateway := gateway }.noted e

def close (d : Dialogue) : Except GatewayError Unit × Dialogue :=
  let (gateway, e) := d.gateway.close
  { d with gateway := gateway }.noted e

def askVersion (d : Dialogue) : Except GatewayError String × Dialogue := d.noted (d.gateway.version d.version)

def ping (d : Dialogue) (count : Int) : Except GatewayError Int × Dialogue := d.noted (d.gateway.ping count d.pong)

/-- Opens a subscription, which becomes the last one if that succeeds. -/
def subscribe (d : Dialogue) (a : Gateway.Ask) : Except GatewayError Unit × Dialogue :=
  let (r, d) := d.noted (d.gateway.subscribe a d.writeFault)
  (r, if r matches .ok _ then { d with subscription := some {} } else d)

/-- Pings within the last subscription. -/
def pingWithin (d : Dialogue) (s : Subscription) (id : Int) : Except GatewayError Unit × Dialogue :=
  let (s, e) := s.ping id d.writeFault
  { d with subscription := some s }.noted e

def cancel (d : Dialogue) (s : Subscription) : Dialogue :=
  let (s, wire) := s.cancel
  { d with subscription := some s, wire := d.wire ++ wire }

/-- Reads the last subscription to its end. -/
def collect (d : Dialogue) (s : Subscription) (items : List StreamItem) : Subscription.Harvest × Dialogue :=
  let (h, s) := s.collect items
  (h, { d with subscription := some s, log := d.log ++ h.log })

/-- What has been observed, and a rehearsal that has forgotten it. -/
def look (d : Dialogue) : List WireCall × List Log.Entry × Dialogue := (d.wire, d.log, { d with wire := [], log := [] })

end Dialogue

end PoolFeed.Rehearsal
