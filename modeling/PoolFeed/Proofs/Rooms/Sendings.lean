import Mathlib.Algebra.Ring.Nat
import PoolFeed.Proofs.Rooms.Steps

/-!
# Events on their way

| here | there |
| --- | --- |
| `Sending`     | a call of `RoomBroadcaster._deliver` |
| `Move.call`   | `RoomBroadcaster._execute_handler` looks the client up and calls its handler |
| `Move.finish` | the handler has returned or raised, and `_execute_handler` counts it |
| `Move.ask`    | `RoomBroadcaster.disconnect`, `join`, `leave`, `emit_to_room` or `emit_global` is called in the main thread |
| `Move.drop`   | a handler that is no coroutine calls `RoomBroadcaster.disconnect` in the thread of the executor that it runs in |
| `Move.goOn`   | a thread takes the next step of the operation that it is in |

An event is sent to those who are in a room, or connected, at that moment; the deliveries to them begin and end in any
order, and between any two of them clients come and go, as handlers please. The main thread does one thing after the other,
and handlers that run in threads of their own come between any two steps of it. A run is a list of such moves (`meet`), and
a hall tells what has become of every sending: each of its targets is due, being called or has been answered (`Shared`).
-/

namespace PoolFeed.Rooms

/-- How the delivery to a client has ended: there was nobody to call, or a handler was called and completed or failed. -/
inductive Answer where
  | absent
  | completed
  | failed (reason : String)

namespace Answer

/-- The answer of a handler that has ended. -/
def ofFailure : Option String → Answer
  | none => completed
  | some reason => failed reason

def isCompleted : Answer → Bool
  | completed => true
  | absent | failed _ => false

def isFailed : Answer → Bool
  | failed _ => true
  | absent | completed => false

end Answer

/-- An event that is sent. -/
structure Sending where
  event : String
  payload : Json
  /-- Whom it is for. -/
  targets : List String
  /-- Clients to whom the delivery has not begun. -/
  due : List String
  /-- Clients whose handler has been called and has not ended. -/
  calling : List String := []
  answers : List (String × Answer) := []

namespace Sending

/-- A sending that begins. -/
def fresh (event : String) (payload : Json) (targets : List String) : Sending :=
  { event, payload, targets, due := targets }

def completed (s : Sending) : Nat := s.answers.countP (·.2.isCompleted)

def failed (s : Sending) : Nat := s.answers.countP (·.2.isFailed)

/-- What a sending comes to when every delivery has ended: the number of handlers that have completed. -/
def result? (s : Sending) : Option Nat := if s.due = [] ∧ s.calling = [] then some s.completed else none

/-- The delivery to a client begins, with a handler to be called or without. -/
def begin (s : Sending) (client : String) : Option Handler → Sending
  | none => { s with due := s.due.erase client, answers := s.answers ++ [(client, .absent)] }
  | some _ => { s with due := s.due.erase client, calling := s.calling ++ [client] }

/-- The handler of a client has ended. -/
def finish (s : Sending) (client : String) (failure : Option String) : Sending :=
  { s with calling := s.calling.erase client, answers := s.answers ++ [(client, .ofFailure failure)] }

end Sending

/-- A handler that has been called. -/
structure Call where
  sending : Nat
  client : String
  handler : Handler
  event : String
  payload : Json

/-- What is noted of a call when its handler does all it does at once. -/
def Call.made (c : Call) : HandlerCall := ⟨c.client, c.event, c.payload, c.handler.failure⟩

/-- Who does something: everything else, or a handler in a thread of its own, by the sending that it was called for and its
client. -/
abbrev Thread := Option (Nat × String)

/-- What is stored, where the operations of the threads stand, all that was ever sent and every call of a handler. -/
structure Hall where
  memory : Memory := {}
  ops : Thread → Option Op := fun _ => none
  sendings : List Sending := []
  calls : List Call := []

/-- What can be asked for. -/
inductive Request where
  | disconnect (client : String)
  | join (client room : String)
  | leave (client room : String)
  /-- An event is to be sent to a room, or to everyone. -/
  | send (now : Nat) (room : Option String) (event : String) (payload : Json)

/-- Where what is asked for begins. -/
def Request.op : Request → Op
  | disconnect client => .pop client
  | join client room => .check client room
  | leave client room => .seek client room
  | send now room event payload => .aim now room event payload

/-- What can happen next. What a handler does while it runs in the main thread are moves like any other. -/
inductive Move where
  | connect (client : String) (h : Handler)
  | ask (r : Request)
  /-- A handler that runs in a thread of its own, called for a sending, begins to disconnect another client. -/
  | drop (sending : Nat) (client other : String)
  /-- A thread goes on with its operation. -/
  | goOn (thread : Thread)
  /-- The delivery of a sending to a client begins. -/
  | call (sending : Nat) (client : String)
  /-- The handler that a client was called with ends. -/
  | finish (sending : Nat) (client : String) (failure : Option String)

/-- Sends to a room, or to everyone, with every handler running to its end at once. -/
def send (r : Rooms) (now : Nat) (room : Option String) (event : String) (payload : Json) :
    Rooms × List HandlerCall × List Log.Entry :=
  match room with
  | some room => r.emitTo now room event payload
  | none => r.emitGlobal now event payload

/-- The sending that a step has begun. -/
def Progress.sending? : Progress → Option Sending
  | sends event payload targets => some (.fresh event payload targets)
  | goesOn _ | finished | refused | missing _ => none

namespace Hall

/-- Whether a thread is in no operation. -/
def idle (w : Hall) (thread : Thread) : Bool := (w.ops thread).isNone

/-- No thread is in an operation. -/
def Quiet (w : Hall) : Prop := ∀ thread, w.ops thread = none

/-- A thread comes to an operation, or has come to the end of one. -/
def put (w : Hall) (thread : Thread) (op : Option Op) : Hall :=
  { w with ops := fun other => if other = thread then op else w.ops other }

/-- A thread takes the next step. -/
def goOn (w : Hall) (thread : Thread) : Hall :=
  (w.ops thread).elim w fun op => { w.put thread (w.memory.step op).2.op? with
    memory := (w.memory.step op).1, sendings := w.sendings ++ (w.memory.step op).2.sending?.toList }

/-- Whether a handler that has been called for a sending, and has not ended, may begin to disconnect another client in a
thread of its own. -/
def mayDrop (w : Hall) (k : Nat) (client other : String) : Bool :=
  w.idle (some (k, client)) && (w.sendings[k]?).any (fun s => s.calling.contains client) &&
    w.calls.any fun c => decide (c.sending = k) && decide (c.client = client) && c.handler.threaded &&
      c.handler.drops.contains other

/-- The call that the delivery of a sending to a client makes at this moment: that of its handler, if it is connected. -/
def callOf (w : Hall) (k : Nat) (client event : String) (payload : Json) : List Call :=
  (w.memory.clients.get? client).toList.map fun h => ⟨k, client, h, event, payload⟩

/-- The delivery of a sending to a client begins. -/
def call (w : Hall) (k : Nat) (client : String) (s : Sending) : Hall where
  memory := w.memory
  ops := w.ops
  sendings := w.sendings.set k (s.begin client (w.memory.clients.get? client))
  calls := w.calls ++ w.callOf k client s.event s.payload

def finish (w : Hall) (k : Nat) (client : String) (failure : Option String) (s : Sending) : Hall where
  memory := { w.memory with toTally := (w.memory.view.settle client s.event failure).1.toTally }
  ops := w.ops
  sendings := w.sendings.set k (s.finish client failure)
  calls := w.calls

/-- A move that cannot take place changes nothing. -/
def step (w : Hall) : Move → Hall
  | .connect client h =>
    if w.idle none then { w with memory := { w.memory with clients := w.memory.clients.put client h } } else w
  | .ask r => if w.idle none then w.put none (some r.op) else w
  | .drop k client other => if w.mayDrop k client other then w.put (some (k, client)) (some (.pop other)) else w
  | .goOn thread => w.goOn thread
  | .call k client => (w.sendings[k]?).elim w fun s => if w.idle none ∧ client ∈ s.due then w.call k client s else w
  | .finish k client failure => (w.sendings[k]?).elim w fun s =>
    if w.idle none ∧ w.idle (some (k, client)) ∧ client ∈ s.calling then w.finish k client failure s else w

def after (w : Hall) (moves : List Move) : Hall := moves.foldl step w

/-- Some moves lead to a quiet hall with some rooms, sendings and calls. -/
structure Reaches (w : Hall) (moves : List Move) (r : Rooms) (sendings : List Sending) (calls : List Call) : Prop where
  quiet : (w.after moves).Quiet
  wellFormed : (w.after moves).memory.WellFormed
  view : (w.after moves).memory.view = r
  sendings : (w.after moves).sendings = sendings
  calls : (w.after moves).calls = calls

/-- The calls of a client for a sending. -/
def callsTo (w : Hall) (k : Nat) (client : String) : List Call :=
  w.calls.filter fun c => c.sending = k ∧ c.client = client

end Hall

/-- A run from the beginning. -/
def meet (moves : List Move) : Hall := ({} : Hall).after moves

theorem meet_concat (moves : List Move) (m : Move) : meet (moves ++ [m]) = (meet moves).step m := by
  simp only [meet, Hall.after, List.foldl_append, List.foldl_cons, List.foldl_nil]

/-! ## Sendings one by one -/

namespace Sending

variable {s : Sending} {client : String}

/-- Every target is due, being called or has been answered. -/
structure Shared (s : Sending) : Prop where
  nodup : s.targets.Nodup
  shares : (s.due ++ s.calling ++ s.answers.map (·.1)).Perm s.targets

theorem Shared.due_nodup (h : s.Shared) : s.due.Nodup := by
  have hall := h.shares.nodup_iff.2 h.nodup
  rw [List.append_assoc] at hall
  exact (List.nodup_append.1 hall).1

theorem Shared.mem_targets (h : s.Shared) (hc : client ∈ s.due) : client ∈ s.targets :=
  h.shares.subset (List.mem_append_left _ (List.mem_append_left _ hc))

/-- A client that goes from one list to the end of another. -/
theorem perm_erase_append {xs : List String} (hc : client ∈ xs) (ys : List String) :
    (xs.erase client ++ (ys ++ [client])).Perm (xs ++ ys) := by
  have hfront : (xs.erase client ++ (ys ++ [client])).Perm (client :: xs.erase client ++ ys) :=
    (List.perm_append_comm.append_left _).trans List.perm_middle
  exact hfront.trans ((List.perm_cons_erase hc).symm.append_right ys)

theorem Shared.begin (h : s.Shared) (hc : client ∈ s.due) : ∀ handler, (s.begin client handler).Shared
  | none => by
    refine ⟨h.nodup, List.Perm.trans ?_ h.shares⟩
    simp only [Sending.begin, List.map_append, List.map_cons, List.map_nil, List.append_assoc]
    rw [← List.append_assoc s.calling]
    exact perm_erase_append hc _
  | some handler => ⟨h.nodup, ((perm_erase_append hc s.calling).append_right _).trans h.shares⟩

theorem Shared.finish (h : s.Shared) (hc : client ∈ s.calling) (failure : Option String) :
    (s.finish client failure).Shared := by
  refine ⟨h.nodup, List.Perm.trans ?_ h.shares⟩
  simp only [Sending.finish, List.map_append, List.map_cons, List.map_nil, List.append_assoc]
  exact (perm_erase_append hc _).append_left _

/-- Handlers of a sending that have been called. -/
def calls (s : Sending) : Nat := s.calling.length + s.completed + s.failed

theorem begin_due (s : Sending) (client : String) (handler : Option Handler) :
    (s.begin client handler).due = s.due.erase client := by
  cases handler <;> rfl

theorem begin_targets (s : Sending) (client : String) (handler : Option Handler) :
    (s.begin client handler).targets = s.targets := by
  cases handler <;> rfl

theorem begin_event (s : Sending) (client : String) (handler : Option Handler) :
    (s.begin client handler).event = s.event := by
  cases handler <;> rfl

theorem begin_payload (s : Sending) (client : String) (handler : Option Handler) :
    (s.begin client handler).payload = s.payload := by
  cases handler <;> rfl

theorem begin_counts (s : Sending) (client : String) (handler : Option Handler) :
    (s.begin client handler).completed = s.completed ∧ (s.begin client handler).failed = s.failed ∧
    (s.begin client handler).calls = s.calls + handler.toList.length := by
  cases handler with
  | none => simp [begin, calls, completed, failed, Answer.isCompleted, Answer.isFailed]
  | some handler =>
    refine ⟨rfl, rfl, ?_⟩
    simp only [begin, calls, completed, failed, List.length_append, List.length_singleton, Option.toList_some]
    omega

theorem finish_counts (hc : client ∈ s.calling) (failure : Option String) :
    (s.finish client failure).completed = s.completed + failure.isNone.toNat ∧
    (s.finish client failure).failed = s.failed + failure.isSome.toNat ∧
    (s.finish client failure).calls = s.calls := by
  have hlength := List.length_erase_of_mem hc
  have hpos := List.length_pos_of_mem hc
  cases failure with
  | none =>
    simp only [finish, calls, completed, failed, List.countP_append]
    simp [Answer.ofFailure, Answer.isCompleted, Answer.isFailed]
    omega
  | some reason =>
    simp only [finish, calls, completed, failed, List.countP_append]
    simp [Answer.ofFailure, Answer.isCompleted, Answer.isFailed]
    omega

end Sending

/-! ## Threads -/

namespace Hall

variable {w : Hall} {t : Thread} {op : Option Op}

theorem put_self (w : Hall) (t : Thread) (op : Option Op) : (w.put t op).ops t = op := if_pos rfl

theorem put_aside (w : Hall) (t : Nat × String) (op : Option Op) : (w.put none op).ops (some t) = w.ops (some t) := rfl

theorem put_put (w : Hall) (t : Thread) (op op' : Option Op) : (w.put t op).put t op' = w.put t op' := by
  refine congrArg (fun ops => ({ w with ops := ops } : Hall)) (funext fun other => ?_)
  show (if other = t then op' else if other = t then op else w.ops other) = if other = t then op' else w.ops other
  split <;> rfl

theorem put_none (h : w.ops t = none) : w.put t none = w := by
  refine congrArg (fun ops => ({ w with ops := ops } : Hall)) (funext fun other => ?_)
  show (if other = t then none else w.ops other) = w.ops other
  split
  · rw [‹other = t›, h]
  · rfl

/-- What a thread has come to changes nothing of what is stored. -/
theorem put_memory (w : Hall) (m : Memory) (t : Thread) (op : Option Op) :
    ({ w with memory := m } : Hall).put t op = { w.put t op with memory := m } := rfl

theorem goOn_goesOn {m : Memory} {o o' : Op} (hop : w.ops t = some o) (hstep : w.memory.step o = (m, .goesOn o')) :
    w.goOn t = { w.put t (some o') with memory := m } := by
  rw [goOn, hop, Option.elim_some, hstep]
  exact congrArg (fun ss => ({ w.put t (some o') with memory := m, sendings := ss } : Hall)) (List.append_nil _)

theorem goOn_ends {m : Memory} {o : Op} {p : Progress} (hop : w.ops t = some o) (hstep : w.memory.step o = (m, p))
    (hp : p.op? = none) : w.goOn t = { w.put t none with memory := m, sendings := w.sendings ++ p.sending?.toList } := by
  rw [goOn, hop, Option.elim_some, hstep, hp]

/-- What is true of the operations in threads of their own when a thread has come to another. -/
theorem put_forall {P : Op → Prop} (h : ∀ t op, w.ops (some t) = some op → P op)
    (hop : t ≠ none → ∀ o, op = some o → P o) : ∀ t' o, (w.put t op).ops (some t') = some o → P o := by
  intro t' o ho
  by_cases ht : some t' = t
  · subst ht
    rw [put_self] at ho
    exact hop (fun h => by cases h) o ho
  · have hsame : (w.put t op).ops (some t') = w.ops (some t') := if_neg ht
    exact h t' o (hsame ▸ ho)

end Hall

/-! ## Calls -/

namespace Hall

variable {w : Hall} {k j : Nat} {s s' : Sending} {client : String}

/-- A sending is the one that has gone on, or what it was. -/
theorem of_set {x : Sending} (h : (w.sendings.set k s')[j]? = some x) :
    (j = k ∧ x = s') ∨ (j ≠ k ∧ w.sendings[j]? = some x) := by
  rw [List.getElem?_set] at h
  split at h
  · split at h
    · exact .inl ⟨‹k = j›.symm, (Option.some.inj h).symm⟩
    · cases h
  · exact .inr ⟨fun e => ‹¬k = j› e.symm, h⟩

/-- A sending is the one that has begun, or one that was there before. -/
theorem of_concat {x : Sending} (h : (w.sendings ++ [s'])[j]? = some x) :
    w.sendings[j]? = some x ∨ (j = w.sendings.length ∧ x = s') := by
  rcases Nat.lt_or_ge j w.sendings.length with hlt | hge
  · exact .inl ((List.getElem?_append_left hlt).symm.trans h)
  · rw [List.getElem?_append_right hge, List.getElem?_singleton] at h
    split at h
    · exact .inr ⟨by omega, (Option.some.inj h).symm⟩
    · cases h

/-- No sending is lost when one goes on. -/
theorem exists_set {x : Sending} (h : w.sendings[j]? = some x) (k : Nat) (s' : Sending) :
    ∃ y, (w.sendings.set k s')[j]? = some y := by
  obtain ⟨hlt, -⟩ := List.getElem?_eq_some_iff.1 h
  rw [← List.length_set (i := k) (a := s')] at hlt
  exact ⟨_, List.getElem?_eq_getElem hlt⟩

theorem mem_callOf {x : Call} {event : String} {payload : Json} (h : x ∈ w.callOf k client event payload) :
    x.sending = k ∧ x.client = client := by
  obtain ⟨handler, -, rfl⟩ := List.mem_map.1 h
  exact ⟨rfl, rfl⟩

/-- Only the client itself is called. -/
theorem callsTo_call_of_ne {c : String} (h : ¬(j = k ∧ c = client)) :
    (w.call k client s).callsTo j c = w.callsTo j c := by
  have hnone : (w.callOf k client s.event s.payload).filter (fun x => x.sending = j ∧ x.client = c) = [] := by
    refine List.filter_eq_nil_iff.2 fun x hx hxe => h ?_
    obtain ⟨hk, hc⟩ := mem_callOf hx
    have hj := of_decide_eq_true hxe
    exact ⟨hj.1.symm.trans hk, hj.2.symm.trans hc⟩
  simp only [callsTo, call, List.filter_append, hnone, List.append_nil]

theorem callsTo_call (h : w.callsTo k client = []) :
    (w.call k client s).callsTo k client = w.callOf k client s.event s.payload := by
  rw [callsTo] at h
  rw [callsTo, call, List.filter_append, h, List.nil_append]
  exact List.filter_eq_self.2 fun x hx => decide_eq_true (mem_callOf hx)

theorem countP_call (j : Nat) : (w.call k client s).calls.countP (·.sending = j) =
    w.calls.countP (·.sending = j) + if j = k then (w.memory.clients.get? client).toList.length else 0 := by
  rw [call, List.countP_append, Nat.add_left_cancel_iff]
  split
  · rename_i hj
    have hall : ∀ x ∈ w.callOf k client s.event s.payload, decide (x.sending = j) = true :=
      fun x hx => decide_eq_true ((mem_callOf hx).1.trans hj.symm)
    rw [List.countP_eq_length.2 hall, callOf, List.length_map]
  · rename_i hj
    exact List.countP_eq_zero.2 fun x hx hxe => hj ((of_decide_eq_true hxe).symm.trans (mem_callOf hx).1)

/-- A sum over the sendings when one of them has gone on. -/
theorem sum_set (f : Sending → Nat) : ∀ {l : List Sending} {k : Nat}, l[k]? = some s → (s' : Sending) →
    ((l.set k s').map f).sum + f s = (l.map f).sum + f s'
  | x :: l, 0, h, s' => by
    cases h
    simp only [List.set_cons_zero, List.map_cons, List.sum_cons]
    omega
  | x :: l, k + 1, h, s' => by
    have ih := sum_set f (l := l) (k := k) h s'
    simp only [List.set_cons_succ, List.map_cons, List.sum_cons]
    omega

end Hall

end PoolFeed.Rooms
