import PoolFeed.Rehearsal.Desk
import PoolFeed.Rehearsal.Dialogue
import PoolFeed.Rehearsal.Resolver
import PoolFeed.Rehearsal.Stage
import PoolFeed.Rehearsal.Upstream
import PoolFeed.Report

/-!
# Reports of rehearsals

What a rehearsal has observed, as JSON values.
-/

namespace PoolFeed.Rehearsal

def ClientCall.name : ClientCall → String
  | .create => "create"
  | .connect => "connect"
  | .version => "version"
  | .subscribe => "subscribe"
  | .ping => "ping"
  | .cancel => "cancel"
  | .close => "close"
  | .closed => "closed"

/-- A call of a client; one that subscribes is told with what it asked for. -/
def ClientCall.report (o : Link.Options) (client : Nat) (c : ClientCall) : Json :=
  let asked := Json.obj [("account_include", .texts o.programs), ("commitment", .str o.commitment),
    ("vote", .bool false), ("failed", .bool false)]
  .arr ([.int client, .str c.name] ++ if c = .subscribe then [asked] else [])

def Heard.report (h : Heard) : Json := .texts ((if h.deferred then ["async"] else []) ++ [h.old.name, h.new.name])

/-- A link and what has been observed of it. -/
def UpstreamNotes.report (n : UpstreamNotes) (d : Driven UpstreamEvent Upstream) : List (String × Json) :=
  let link := d.world.link
  [("now", .int d.agenda.now), ("calls", .arr (n.calls.map fun (client, c) => c.report link.options client)),
    ("transitions", .arr (n.heard.map Heard.report)), ("processed", .texts n.processed), ("stats", link.stats)]

def Emission.report (e : Emission) : Json :=
  .arr [.int e.time, .str (poolRoom e.batch.key), .str "trade:batch", .arr e.batch.records]

def EmitterNotes.report (n : EmitterNotes) (d : Emitter.Scene) : List (String × Json) :=
  [("now", .int d.agenda.now), ("emits", .arr (n.emissions.map Emission.report)), ("stats", d.world.batcher.stats)]

def ResolverMark.report (m : ResolverMark) : Json :=
  .arr [.int m.time, .str (if m.isDone then "done" else "start"), .str m.job.pool, .str m.job.mint]

def ResolverNotes.report (n : ResolverNotes) (d : Resolver.Scene) : List (String × Json) :=
  [("now", .int d.agenda.now), ("resolver", .arr (n.marks.map ResolverMark.report)), ("stats", d.world.lookups.stats)]

def Saved.report : Saved → Json
  | .pool r => .arr [.str "upsert_pool", .str r.address, .str r.baseMint, .str r.quoteMint, .int r.baseDecimals,
      .int r.quoteDecimals]
  | .trade address l => .arr [.str "insert_trade", .str l.txHash, .int l.time, .str address, .str l.side.name, .float l.price,
      .float l.baseAmount, .float l.quoteAmount]

def DeskNotes.report (n : DeskNotes) (d : Desk) : List (String × Json) := [
  ("store", .arr (n.saved.map Saved.report)),
  ("emits", .arr (n.announced.map (fun (time, payload) => .arr [.int time, .null, .str "pool:new", payload])
    ++ n.emissions.map Emission.report)),
  ("jobs", .arr (n.jobs.map fun job => .texts [job.pool, job.mint])),
  ("pools", .obj (d.book.registry.pools.map fun (address, scale) => (address, scale.report))),
  ("stats", d.intake.stats), ("batcher", d.emitter.world.batcher.stats)]

/-- The data sent along with a call. -/
def metadataReport (token : Option String) : Json := .arr (token.toList.map fun t => .texts ["x-token", t])

def WireCall.report : WireCall → Json
  | .channel secure target limit =>
    let options := ["receive", "send"].map fun way => Json.arr [.str s!"grpc.max_{way}_message_length", .int limit]
    .arr [.str "channel", .str (if secure then "secure" else "insecure"), .str target, .arr options]
  | .unary method request token timeout =>
    .arr [.str "unary", .str method, .str request.toHex, metadataReport token,
      timeout.elim .null fun seconds => .float (Binary64.ofInt seconds)]
  | .stream method token => .arr [.str "stream", .str method, metadataReport token]
  | .write request => .texts ["write", request.toHex]
  | .cancelCall => .texts ["call_cancel"]
  | .closeChannel => .texts ["channel_close"]

def Subscription.report (s : Subscription) : Json := .obj [
  ("updates", .int s.updates), ("transactions", .int s.transactions), ("pings", .int s.pings), ("cancelled", .bool s.cancelled)]

/-- The last subscription of a dialogue and what went over the wire. -/
def Dialogue.report (d : Dialogue) (wire : List WireCall) : List (String × Json) :=
  [("sub", d.subscription.elim .null Subscription.report), ("wire", .arr (wire.map WireCall.report))]

def StageNotes.report (n : StageNotes) (d : Stage.Scene) : List (String × Json) := [
  ("now", .int d.agenda.now), ("state", .str d.world.service.link.state.name),
  ("received", HandlerCall.reports n.calls), ("wire", .arr (n.wire.map WireCall.report))]

end PoolFeed.Rehearsal
