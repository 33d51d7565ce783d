import PoolFeed.Log
import PoolFeed.Text.Quoted
import PoolFeed.Wire.Stream

/-!
# The gateway

| here | there |
| --- | --- |
| `Gateway` | `YellowstoneClient` |
| `connect`, `close` | `YellowstoneClient.connect`, `close` |
| `version`, `ping` | `get_version`, `ping`, with `_require_stub` |
| `subscribe` | `subscribe_transactions`; `Ask` is its arguments |
| `GatewayError` | `GeyserConnectionError`, `GeyserSubscriptionError` and what passes through |
| `Reply`, `WireCall` | what the channel answers, and what is done on it |

The gateway speaks to the upstream service: it opens a channel, asks for the version as a handshake,
opens subscriptions and closes the channel. How the service answers is handed in; what goes over the
wire is handed out.
-/

namespace PoolFeed

/-- How a call ends that has no answer. -/
inductive CallFault where
  | status (code : String) (details : Option String)
  | usage (text : String)
  deriving DecidableEq

namespace CallFault

def detailsText (details : Option String) : String := details.getD "None"

/-- The fault in short. -/
def brief : CallFault → String
  | .status code details => s!"StatusCode.{code} - {detailsText details}"
  | .usage text => text

/-- The fault in full. -/
def full : CallFault → String
  | .status code details =>
    let lines := [s!"\tstatus = StatusCode.{code}", s!"\tdetails = \"{detailsText details}\"", "\tdebug_error_string = \"None\""]
    "<AioRpcError of RPC that terminated with:\n" ++ "\n".intercalate lines ++ "\n>"
  | .usage text => text

end CallFault

/-- The answer to a call. -/
inductive Reply where
  | answer (b : Bytes)
  | fault (f : CallFault)

inductive GatewayError where
  | notConnected
  | versionFailed (f : CallFault)
  | pingFailed (f : CallFault)
  | subscribeFailed (f : CallFault)
  | pingWriteFailed (f : CallFault)
  | streamFailed (f : CallFault)
  /-- A call was used wrongly. -/
  | misused (text : String)
  /-- An answer is no message. -/
  | unreadable
  /-- A number does not fit. -/
  | outOfRange
  deriving DecidableEq

def GatewayError.message : GatewayError → String
  | .notConnected => "Not connected. Call connect() first."
  | .versionFailed f => s!"GetVersion failed: {f.brief}"
  | .pingFailed f => s!"Ping failed: {f.brief}"
  | .subscribeFailed f => s!"Failed to write subscribe request: {f.full}"
  | .pingWriteFailed f => s!"Ping write failed: {f.full}"
  | .streamFailed f => s!"gRPC stream error: {f.brief}"
  | .misused text => text
  | .unreadable => "Error parsing message"
  | .outOfRange => "Value out of range"

/-- What goes over the wire. -/
inductive WireCall where
  /-- A channel is opened, with a limit for the size of messages. -/
  | channel (secure : Bool) (target : String) (limit : Int)
  /-- A call with one answer, which may be waited for so many seconds. -/
  | unary (method : String) (request : Bytes) (token : Option String) (timeout : Option Nat)
  | stream (method : String) (token : Option String)
  | write (request : Bytes)
  | cancelCall
  | closeChannel
  deriving DecidableEq

/-- What came of a call: the result, what went over the wire, and the log. -/
structure Exchange (α : Type) where
  result : Except GatewayError α
  wire : List WireCall := []
  log : List Log.Entry := []

structure Gateway where
  endpoint : String := "solana-yellowstone-grpc.publicnode.com:443"
  /-- The token sent with every call; an empty one is none. -/
  token : Option String := none
  useTls : Bool := true
  maxMessageSize : Int := 67108864
  connected : Bool := false

namespace Gateway

/-- The token to send, if there is one. -/
def sentToken (g : Gateway) : Option String := g.token.filter (!·.isEmpty)

/-- The full name of a method. -/
def method (name : String) : String := s!"/geyser.Geyser/{name}"

def connect (g : Gateway) : Gateway × Exchange Unit :=
  ({ g with connected := true },
    ⟨.ok (), [.channel g.useTls g.endpoint g.maxMessageSize], [Log.info s!"Connecting to Yellowstone gRPC: {g.endpoint}"]⟩)

/-- The error of a call with one answer. -/
def unaryError (onStatus : CallFault → GatewayError) : CallFault → GatewayError
  | .status code details => onStatus (.status code details)
  | .usage text => .misused text

/-- Asks for the version, as a handshake. -/
def version (g : Gateway) (r : Reply) : Exchange String :=
  if g.connected then
    let wire := [WireCall.unary (method "GetVersion") [] g.sentToken (some 10)]
    match r with
    | .fault f => ⟨.error (unaryError .versionFailed f), wire, []⟩
    | .answer b => match Wire.versionOf? b with
      | none => ⟨.error .unreadable, wire, []⟩
      | some v => ⟨.ok v, wire, [Log.info s!"Yellowstone gRPC connection successful, version: {v}"]⟩
  else ⟨.error .notConnected, [], []⟩

/-- Whether a number is a 32-bit integer. -/
def isInt32 (i : Int) : Bool := decide (-0x80000000 ≤ i) && decide (i < 0x80000000)

/-- Pings with a count, which is answered. -/
def ping (g : Gateway) (count : Int) (r : Reply) : Exchange Int :=
  if !g.connected then ⟨.error .notConnected, [], []⟩
  else if !isInt32 count then ⟨.error .outOfRange, [], []⟩
  else
    let wire := [WireCall.unary (method "Ping") (Wire.Message.encode (Wire.ofInteger count)) g.sentToken none]
    match r with
    | .fault f => ⟨.error (unaryError .pingFailed f), wire, []⟩
    | .answer b => match Wire.countOf? b with
      | none => ⟨.error .unreadable, wire, []⟩
      | some n => ⟨.ok n, wire, []⟩

/-- A request for a subscription: the filter is told in the words of the settings. -/
structure Ask where
  accounts : List String
  commitment : String := "processed"
  vote : Option Bool := some false
  failed : Option Bool := some false

def Ask.toFilter (a : Ask) : Wire.TransactionFilter :=
  ⟨a.accounts, Wire.CommitmentLevel.ofName a.commitment, a.vote, a.failed⟩

/-- Opens a subscription; the first write may fail, and the call is cancelled then. -/
def subscribe (g : Gateway) (a : Ask) (failure : Option CallFault) : Exchange Unit :=
  if g.connected then
    let wire := [.stream (method "Subscribe") g.sentToken, WireCall.write a.toFilter.toMessage.encode]
    let log := [Log.info s!"Subscribing to transactions for {Text.quotedList a.accounts} ({a.commitment})"]
    match failure with
    | none => ⟨.ok (), wire, log⟩
    | some f => ⟨.error (.subscribeFailed f), wire ++ [.cancelCall], log⟩
  else ⟨.error .notConnected, [], []⟩

/-- Closes the channel, if there is one. -/
def close (g : Gateway) : Gateway × Exchange Unit :=
  if g.connected then
    ({ g with connected := false }, ⟨.ok (), [.closeChannel], [Log.info "Closed Yellowstone gRPC connection"]⟩)
  else (g, ⟨.ok (), [], []⟩)

end Gateway

end PoolFeed
