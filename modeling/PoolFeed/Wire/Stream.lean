import PoolFeed.Wire.Update

/-!
# The messages of a subscription

| here | there |
| --- | --- |
| `TransactionFilter.toMessage` | the `SubscribeRequest` of `YellowstoneClient.subscribe_transactions` |
| `CommitmentLevel.ofName` | `YellowstoneClient._get_commitment_level` |
| `pingRequest` | the `SubscribeRequest` of `GeyserSubscription.ping` |
| `versionOf?`, `countOf?` | the answers to `get_version` and `ping` |
| `StreamUpdate.ofBytes?` | the `SubscribeUpdate` that `GeyserSubscription.__aiter__` reads |

What is written into a subscription, a request for transactions or a ping, and what comes out of it.
A request writes its optional fields even where they have their default values. Of the kinds of update
a message may hold, the last one counts; occurrences of it that follow each other are joined.
-/

namespace PoolFeed.Wire

/-! ## Requests -/

inductive CommitmentLevel where
  | processed
  | confirmed
  | finalized
  deriving DecidableEq

/-- The level of a name, whatever its case; an unknown one stands for the first. -/
def CommitmentLevel.ofName (name : String) : CommitmentLevel :=
  match name.map Char.toLower with
  | "confirmed" => .confirmed
  | "finalized" => .finalized
  | _ => .processed

def CommitmentLevel.number : CommitmentLevel → Nat
  | .processed => 0
  | .confirmed => 1
  | .finalized => 2

/-- What a subscription is asked for. -/
structure TransactionFilter where
  accounts : List String
  level : CommitmentLevel := .processed
  vote : Option Bool := some false
  failed : Option Bool := some false

/-- A truth value, if there is one. -/
def flag (number : Nat) (b : Option Bool) : Message := b.toList.map fun b => (number, .number b.toNat)

/-- The name of the only filter of a request. -/
def filterName : String := "pumpswap"

def TransactionFilter.toMessage (f : TransactionFilter) : Message :=
  let filter := flag 1 f.vote ++ flag 2 f.failed ++ f.accounts.map fun a => (3, .data (textBytes a))
  [(3, .message [(1, .data (textBytes filterName)), (2, .message filter)]), (6, .number f.level.number)]

/-- A message with one 32-bit integer, which is left out when it is zero. -/
def ofInteger (i : Int) : Message := field 1 (.number (ofInt32 i)) (i == 0)

/-- A ping, as written into a subscription. -/
def pingRequest (id : Int) : Message := [(9, .message (ofInteger id))]

/-! ## Answers -/

/-- The version in an answer. -/
def versionOf? (b : Bytes) : Option String := (Schema.read? [(1, .text)] b).map fun m => textOf (m.data 1)

/-- The count in an answer to a ping. -/
def countOf? (b : Bytes) : Option Int := (Schema.read? [(1, .number)] b).map (·.int32 1)

/-! ## Updates -/

inductive StreamUpdate where
  | transaction (u : Update)
  | ping
  | pong (id : Int)
  | other

def streamSchema : Schema := [(1, .text), (4, .message updateSchema), (6, .message []), (9, .message [(1, .number)])]

/-- The kind of update that a message holds last, with what belongs to it. -/
def lastKind (m : Message) : Option (Nat × Message) :=
  match (m.filter (·.1 != 1)).reverse with
  | [] => none
  | (kind, v) :: rest =>
    let run := (kind, v) :: rest.takeWhile (·.1 == kind)
    some (kind, run.reverse.flatMap fun (_, v) => Message.asMessage v)

def StreamUpdate.ofMessage (m : Message) : StreamUpdate :=
  match lastKind m with
  | some (4, m) => .transaction (Update.ofMessage m)
  | some (6, _) => .ping
  | some (9, m) => .pong (m.int32 1)
  | _ => .other

def StreamUpdate.ofBytes? (b : Bytes) : Option StreamUpdate := (streamSchema.read? b).map StreamUpdate.ofMessage

end PoolFeed.Wire
