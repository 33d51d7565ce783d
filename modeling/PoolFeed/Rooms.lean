import PoolFeed.Json
import PoolFeed.Log
import PoolFeed.Roster

/-!
# Rooms

| here | there |
| --- | --- |
| `Rooms`, `Rooms.Tally` | `RoomBroadcaster` with `_clients`, `_rooms`; `BroadcastStats` |
| `connect`, `disconnect` | `RoomBroadcaster.connect`, `disconnect` |
| `join?`, `leave`, `members` | `join`, `leave`, `room_members` |
| `emitTo`, `emitGlobal` | `emit_to_room`, `emit_global` |
| `deliverAll`, `deliver`, `settle` | `_deliver`, `_execute_handler`, and how that ends |
| `Handler.threaded` | whether `_execute_handler` runs the handler with `run_in_executor` |
| `poolRoom` | `pool_room` |

Clients connect with a handler, join and leave rooms, and are handed the events sent to a room of
theirs or to everyone. A handler that fails is noted and disturbs nobody else. A client whose turn
comes after it has been disconnected is passed over.
-/

namespace PoolFeed

/-- The room of a pool's trades. -/
def poolRoom (address : String) : String := s!"room:{address}"

/-- What a handler does when it is called: it may disconnect clients, and it may fail. -/
structure Handler where
  /-- Whether it runs in a thread of its own, beside everything else. -/
  threaded : Bool := false
  drops : List String := []
  failure : Option String := none
  deriving DecidableEq

/-- One call of a client's handler. -/
structure HandlerCall where
  client : String
  event : String
  payload : Json
  failure : Option String

/-- What is counted. -/
structure Rooms.Tally where
  roomEmits : Nat := 0
  globalEmits : Nat := 0
  deliveries : Nat := 0
  handlerErrors : Nat := 0
  lastEmit : Option Nat := none

structure Rooms extends Rooms.Tally where
  clients : Roster Handler := []
  /-- The members of each room, none of them empty. -/
  rooms : Roster (List String) := []

namespace Rooms

/-! ## Clients -/

/-- Connects a client; a known client gets a new handler and keeps its place and its rooms. -/
def connect (r : Rooms) (client : String) (h : Handler) : Rooms × List Log.Entry :=
  ({ r with clients := r.clients.put client h }, [Log.info s!"Client connected: {client}"])

/-- Takes a client out of a room; a room without members is forgotten. -/
def without (client : String) (room : String × List String) : Option (String × List String) :=
  match room.2.filter (· != client) with
  | [] => none
  | members => some (room.1, members)

/-- Disconnects a client, which leaves all its rooms. -/
def disconnect (r : Rooms) (client : String) : Rooms × List Log.Entry :=
  if r.clients.has client then
    ({ r with clients := r.clients.erase client, rooms := r.rooms.filterMap (without client) },
      [Log.info s!"Client disconnected: {client}"])
  else (r, [])

/-- Joins a room; only a connected client can. -/
def join? (r : Rooms) (client room : String) : Option (Rooms × List Log.Entry) :=
  if r.clients.has client then
    let members := (r.rooms.get? room).getD []
    let members := if members.contains client then members else members ++ [client]
    some ({ r with rooms := r.rooms.put room members }, [Log.debug s!"Client {client} joined room: {room}" [.room room]])
  else none

/-- What is said to a client that nobody knows. -/
def unknownClient (client : String) : String := s!"Unknown client: {client}"

def leave (r : Rooms) (client room : String) : Rooms × List Log.Entry :=
  let rooms := r.rooms.filterMap fun entry => if entry.1 = room then without client entry else some entry
  ({ r with rooms := rooms }, [Log.debug s!"Client {client} left room: {room}" [.room room]])

/-- The members of a room as they joined it. -/
def targets (r : Rooms) (room : String) : List String := (r.rooms.get? room).getD []

/-- The members of a room in order of their characters. -/
def members (r : Rooms) (room : String) : List String := (r.targets room).mergeSort fun a b => decide (a ≤ b)

/-! ## Sending -/

/-- Disconnects some clients, one after the other. -/
def disconnectAll (r : Rooms) : List String → Rooms × List Log.Entry
  | [] => (r, [])
  | client :: rest =>
    let (r, log) := r.disconnect client
    let (r, more) := r.disconnectAll rest
    (r, log ++ more)

/-- Counts the call of a client's handler for an event when it has ended. -/
def settle (r : Rooms) (client event : String) : Option String → Rooms × List Log.Entry
  | none => ({ r with deliveries := r.deliveries + 1 }, [])
  | some reason => ({ r with handlerErrors := r.handlerErrors + 1 },
      [Log.error s!"Error in handler for client {client} on event {event}: {reason}"])

/-- Calls the handler of one client, if it is still connected. -/
def deliver (r : Rooms) (client event : String) (payload : Json) : Rooms × List HandlerCall × List Log.Entry :=
  match r.clients.get? client with
  | none => (r, [], [])
  | some h =>
    let (r, log) := r.disconnectAll h.drops
    let (r, more) := r.settle client event h.failure
    (r, [⟨client, event, payload, h.failure⟩], log ++ more)

/-- Calls the handlers of some clients in turn. -/
def deliverAll (r : Rooms) (event : String) (payload : Json) : List String → Rooms × List HandlerCall × List Log.Entry
  | [] => (r, [], [])
  | client :: rest =>
    let (r, calls, log) := r.deliver client event payload
    let (r, moreCalls, moreLog) := r.deliverAll event payload rest
    (r, calls ++ moreCalls, log ++ moreLog)

/-- The calls that were completed. -/
def completed (calls : List HandlerCall) : List HandlerCall := calls.filter (·.failure.isNone)

/-- Begins to send to a room at a time: whom the event is for. -/
def addressRoom (r : Rooms) (now : Nat) (room : String) : Rooms × List String :=
  ({ r with roomEmits := r.roomEmits + 1, lastEmit := some now }, r.targets room)

/-- Begins to send to every client, in order of connection. -/
def addressAll (r : Rooms) (now : Nat) : Rooms × List String :=
  ({ r with globalEmits := r.globalEmits + 1, lastEmit := some now }, r.clients.keys)

/-- Sends an event to a room at a time. -/
def emitTo (r : Rooms) (now : Nat) (room event : String) (payload : Json) : Rooms × List HandlerCall × List Log.Entry :=
  let (r, targets) := r.addressRoom now room
  r.deliverAll event payload targets

/-- Sends an event to every client. -/
def emitGlobal (r : Rooms) (now : Nat) (event : String) (payload : Json) : Rooms × List HandlerCall × List Log.Entry :=
  let (r, targets) := r.addressAll now
  r.deliverAll event payload targets

def shown (r : Rooms) : String := s!"RoomBroadcaster(clients={r.clients.length}, rooms={r.rooms.length})"

end Rooms

end PoolFeed
