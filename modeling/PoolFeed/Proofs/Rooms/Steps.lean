import Mathlib.Data.List.Nodup
import PoolFeed.Proofs.Rooms.Membership

/-!
# Operations on rooms, step by step

| here | there |
| --- | --- |
| `Memory`         | `RoomBroadcaster._clients`, `_rooms` and `_stats`; the sets of members are objects of their own, which `_rooms` names |
| `Op`             | where a call of `RoomBroadcaster.disconnect`, `join`, `leave`, `emit_to_room` or `emit_global` stands |
| `Memory.step`    | one look-up or change of a dictionary or a set; a room that is looked up by `disconnect` or `join` is created if it is missing |
| `Runs`           | a call that nothing comes between |
| `Memory.view`    | what `room_members` and `get_stats` show |

Handlers that are no coroutines run in threads of their own, so that an operation of theirs may come between any two steps
of another. An operation that nothing comes between does what `Rooms` says it does (`runs_disconnect`, `runs_join`,
`runs_leave`, `runs_send`).
-/

namespace PoolFeed.Rooms

/-- Begins to send to a room, or to everyone. -/
def address (r : Rooms) (now : Nat) : Option String → Rooms × List String
  | some room => r.addressRoom now room
  | none => r.addressAll now

/-- What is stored. A room names a set of members by its number; a set that no room names any more is still there for whoever
has looked it up before. -/
structure Memory extends Tally where
  clients : Roster Handler := []
  table : Roster Nat := []
  sets : List (List String) := []

/-- Where an operation stands. -/
inductive Op where
  /-- A client is to be disconnected. -/
  | pop (client : String)
  | list (client : String)
  /-- The client is to leave some rooms. -/
  | sweep (client : String) (rooms : List String)
  /-- It is to leave a set that a room has named, and then some more rooms. -/
  | discard (client room : String) (set : Nat) (rooms : List String)
  | test (client room : String) (set : Nat) (rooms : List String)
  /-- The room has been found empty. -/
  | delete (client room : String) (rooms : List String)
  /-- A client is to join a room. -/
  | check (client room : String)
  | enter (client room : String)
  | add (client : String) (set : Nat)
  /-- A client is to leave a room. -/
  | seek (client room : String)
  /-- An event is to be sent to a room, or to everyone. -/
  | aim (now : Nat) (room : Option String) (event : String) (payload : Json)
  | read (set : Nat) (event : String) (payload : Json)

/-- What a step of an operation comes to. -/
inductive Progress where
  | goesOn (op : Op)
  | finished
  /-- Only a connected client can join. -/
  | refused
  /-- A room is to be deleted that is gone. -/
  | missing (room : String)
  | sends (event : String) (payload : Json) (targets : List String)

def Progress.op? : Progress → Option Op
  | goesOn op => some op
  | finished | refused | missing _ | sends _ _ _ => none

/-- Whether an event is to be sent. -/
def Op.isSending : Op → Bool
  | aim _ _ _ _ | read _ _ _ => true
  | pop _ | list _ | sweep _ _ | discard _ _ _ _ | test _ _ _ _ | delete _ _ _ | check _ _ | enter _ _ | add _ _ | seek _ _ =>
    false

namespace Memory

def members (m : Memory) (set : Nat) : List String := m.sets.getD set []

/-- The rooms as they are stored. -/
def view (m : Memory) : Rooms where
  toTally := m.toTally
  clients := m.clients
  rooms := m.table.map fun entry => (entry.1, m.members entry.2)

/-- The set that a room names, which is created with the room if there is none. -/
def named (m : Memory) (room : String) : Memory × Nat :=
  match m.table.get? room with
  | some set => (m, set)
  | none => ({ m with table := m.table.put room m.sets.length, sets := m.sets ++ [[]] }, m.sets.length)

def change (m : Memory) (set : Nat) (f : List String → List String) : Memory := { m with sets := m.sets.modify set f }

/-- Adds a client to a set. -/
def insert (client : String) (members : List String) : List String :=
  if members.contains client then members else members ++ [client]

def step (m : Memory) : Op → Memory × Progress
  | .pop client =>
    if m.clients.has client then ({ m with clients := m.clients.erase client }, .goesOn (.list client)) else (m, .finished)
  | .list client => (m, .goesOn (.sweep client m.table.keys))
  | .sweep _ [] => (m, .finished)
  | .sweep client (room :: rooms) =>
    let (m, set) := m.named room
    (m, .goesOn (.discard client room set rooms))
  | .discard client room set rooms =>
    (m.change set fun members => members.filter (· != client), .goesOn (.test client room set rooms))
  | .test client room set rooms =>
    (m, .goesOn (if (m.members set).isEmpty then .delete client room rooms else .sweep client rooms))
  | .delete client room rooms =>
    if m.table.has room then ({ m with table := m.table.erase room }, .goesOn (.sweep client rooms)) else (m, .missing room)
  | .check client room => (m, if m.clients.has client then .goesOn (.enter client room) else .refused)
  | .enter client room =>
    let (m, set) := m.named room
    (m, .goesOn (.add client set))
  | .add client set => (m.change set (insert client), .finished)
  | .seek client room => (m, (m.table.get? room).elim .finished fun set => .goesOn (.discard client room set []))
  | .aim now none event payload =>
    ({ m with toTally := (m.view.addressAll now).1.toTally }, .sends event payload m.clients.keys)
  | .aim now (some room) event payload =>
    ({ m with toTally := (m.view.addressRoom now room).1.toTally },
      (m.table.get? room).elim (.sends event payload []) fun set => .goesOn (.read set event payload))
  | .read set event payload => (m, .sends event payload (m.members set))

end Memory

/-- An operation that nothing comes between, from where it stands to its end. -/
inductive Runs : Memory → Op → Memory → Progress → Prop
  | ends {m m' : Memory} {op : Op} {p : Progress} : m.step op = (m', p) → p.op? = none → Runs m op m' p
  | goesOn {m m₁ m' : Memory} {op op₁ : Op} {p : Progress} : m.step op = (m₁, .goesOn op₁) → Runs m₁ op₁ m' p →
    Runs m op m' p

/-- There is one way to go on. -/
theorem Runs.unique {m m₁ m₂ : Memory} {op : Op} {p₁ p₂ : Progress} (h₁ : Runs m op m₁ p₁) (h₂ : Runs m op m₂ p₂) :
    m₁ = m₂ ∧ p₁ = p₂ := by
  induction h₁ with
  | ends hstep hp =>
    cases h₂ with
    | ends hstep' => exact Prod.mk.inj (hstep.symm.trans hstep')
    | goesOn hstep' =>
      cases (Prod.mk.inj (hstep.symm.trans hstep')).2
      cases hp
  | goesOn hstep _ ih =>
    cases h₂ with
    | ends hstep' hp' =>
      cases (Prod.mk.inj (hstep.symm.trans hstep')).2
      cases hp'
    | goesOn hstep' hrest =>
      obtain ⟨rfl, hop⟩ := Prod.mk.inj (hstep.symm.trans hstep')
      cases hop
      exact ih hrest

/-! ## Sets are sets -/

/-- No set has a member twice, no client or room comes twice, and every room names a set of its own. -/
structure Memory.WellFormed (m : Memory) : Prop where
  clients : m.clients.keys.Nodup
  rooms : m.table.keys.Nodup
  named : (m.table.map (·.2)).Nodup
  known : ∀ entry ∈ m.table, entry.2 < m.sets.length
  sets : ∀ set ∈ m.sets, set.Nodup

namespace Memory.WellFormed

variable {m : Memory}

theorem empty : WellFormed {} := ⟨List.nodup_nil, List.nodup_nil, List.nodup_nil, nofun, nofun⟩

theorem members_nodup (h : m.WellFormed) (set : Nat) : (m.members set).Nodup := by
  rw [Memory.members, List.getD_eq_getElem?_getD]
  cases hset : m.sets[set]? with
  | none => exact List.nodup_nil
  | some members => exact h.sets members (List.mem_of_getElem? hset)

/-- Counting leaves clients, rooms and sets alone. -/
theorem recount (h : m.WellFormed) (tally : Tally) : WellFormed { m with toTally := tally } :=
  ⟨h.clients, h.rooms, h.named, h.known, h.sets⟩

theorem connect (h : m.WellFormed) (client : String) (handler : Handler) :
    WellFormed { m with clients := m.clients.put client handler } :=
  ⟨Roster.nodup_keys_put h.clients, h.rooms, h.named, h.known, h.sets⟩

theorem erase (h : m.WellFormed) (room : String) : WellFormed { m with table := m.table.erase room } where
  clients := h.clients
  rooms := Roster.nodup_keys_erase h.rooms
  named := h.named.sublist (List.filter_sublist.map _)
  known entry he := h.known entry (List.mem_filter.1 he).1
  sets := h.sets

theorem change (h : m.WellFormed) (set : Nat) {f : List String → List String}
    (hf : ∀ members : List String, members.Nodup → (f members).Nodup) : (m.change set f).WellFormed where
  clients := h.clients
  rooms := h.rooms
  named := h.named
  known entry he := by
    show entry.2 < (m.sets.modify set f).length
    rw [List.length_modify]
    exact h.known entry he
  sets members hmem := by
    obtain ⟨i, hi⟩ := List.mem_iff_getElem?.1 hmem
    rw [Memory.change, List.getElem?_modify] at hi
    obtain ⟨old, hold, rfl⟩ := Option.map_eq_some_iff.1 hi
    have hnodup := h.sets old (List.mem_of_getElem? hold)
    split
    · exact hf old hnodup
    · exact hnodup

theorem insert_nodup (client : String) {members : List String} (h : members.Nodup) :
    (Memory.insert client members).Nodup := by
  rw [Memory.insert]
  split
  · exact h
  · rename_i hnew
    exact List.nodup_append.2 ⟨h, by simp, fun c hc d hd heq =>
      hnew (List.contains_iff_mem.2 (List.mem_singleton.1 hd ▸ heq ▸ hc))⟩

theorem named_fst (h : m.WellFormed) (room : String) : (m.named room).1.WellFormed := by
  rw [Memory.named]
  cases hget : m.table.get? room with
  | some set => exact h
  | none =>
    have hput : m.table.put room m.sets.length = m.table ++ [(room, m.sets.length)] := Roster.put_of_get?_none hget
    refine ⟨h.clients, Roster.nodup_keys_put h.rooms, ?_, fun entry he => ?_, fun set hset => ?_⟩
    · show ((m.table.put room m.sets.length).map (·.2)).Nodup
      rw [hput, List.map_append]
      refine List.nodup_append.2 ⟨h.named, by simp, fun i hi j hj => ?_⟩
      obtain ⟨entry, he, rfl⟩ := List.mem_map.1 hi
      rw [List.mem_singleton.1 hj]
      exact Nat.ne_of_lt (h.known entry he)
    · show entry.2 < (m.sets ++ [[]]).length
      rw [List.length_append, List.length_singleton]
      rcases Roster.mem_put he with rfl | hold
      · exact Nat.lt_succ_self _
      · exact Nat.lt_succ_of_lt (h.known entry hold)
    · rcases List.mem_append.1 hset with hold | hnew
      · exact h.sets set hold
      · rw [List.mem_singleton.1 hnew]
        exact List.nodup_nil

/-- **Every step keeps sets sets**, whatever else goes on. -/
theorem step (h : m.WellFormed) (op : Op) : (m.step op).1.WellFormed := by
  cases op with
  | pop client =>
    rw [Memory.step]
    split
    · exact ⟨Roster.nodup_keys_erase h.clients, h.rooms, h.named, h.known, h.sets⟩
    · exact h
  | list | test | check | seek | read => exact h
  | sweep client rooms =>
    cases rooms with
    | nil => exact h
    | cons room rooms => exact h.named_fst room
  | discard client room set rooms => exact h.change set fun members hm => hm.filter _
  | delete client room rooms =>
    rw [Memory.step]
    split
    · exact h.erase room
    · exact h
  | enter client room => exact h.named_fst room
  | add client set => exact h.change set fun members hm => insert_nodup client hm
  | aim now room event payload => cases room <;> exact h.recount _

end Memory.WellFormed

/-- What a step comes to: an event is sent to those who are connected, or in the set that its room names; or no event is
sent. -/
theorem Memory.step_cases (m : Memory) (op : Op) :
    (op.isSending = false ∧ (∀ event payload targets, (m.step op).2 ≠ .sends event payload targets) ∧
      ∀ op', (m.step op).2.op? = some op' → op'.isSending = false) ∨
    (∃ now event payload, op = .aim now none event payload ∧ (m.step op).2 = .sends event payload m.clients.keys) ∨
    (∃ now room event payload, op = .aim now (some room) event payload ∧
      ((m.table.get? room = none ∧ (m.step op).2 = .sends event payload []) ∨
        ∃ set, m.table.get? room = some set ∧ (m.step op).2 = .goesOn (.read set event payload))) ∨
    ∃ set event payload, op = .read set event payload ∧ (m.step op).2 = .sends event payload (m.members set) := by
  cases op with
  | pop | delete =>
    rw [Memory.step]
    split
    · exact .inl ⟨rfl, nofun, fun op' hop => by cases hop; rfl⟩
    · exact .inl ⟨rfl, nofun, nofun⟩
  | sweep client rooms =>
    cases rooms with
    | nil => exact .inl ⟨rfl, nofun, nofun⟩
    | cons => exact .inl ⟨rfl, nofun, fun op' hop => by cases hop; rfl⟩
  | list | discard | enter => exact .inl ⟨rfl, nofun, fun op' hop => by cases hop; rfl⟩
  | test client room set rooms =>
    refine .inl ⟨rfl, nofun, fun op' hop => ?_⟩
    cases hop
    split <;> rfl
  | add => exact .inl ⟨rfl, nofun, nofun⟩
  | check client room =>
    rw [Memory.step]
    split
    · exact .inl ⟨rfl, nofun, fun op' hop => by cases hop; rfl⟩
    · exact .inl ⟨rfl, nofun, nofun⟩
  | seek client room =>
    rw [Memory.step]
    cases hget : m.table.get? room with
    | none => exact .inl ⟨rfl, nofun, nofun⟩
    | some set => exact .inl ⟨rfl, nofun, fun op' hop => by cases hop; rfl⟩
  | aim now room event payload =>
    cases room with
    | none => exact .inr (.inl ⟨now, event, payload, rfl, rfl⟩)
    | some room =>
      refine .inr (.inr (.inl ⟨now, room, event, payload, rfl, ?_⟩))
      rw [Memory.step]
      cases hget : m.table.get? room with
      | none => exact .inl ⟨rfl, rfl⟩
      | some set => exact .inr ⟨set, rfl, rfl⟩
  | read set event payload => exact .inr (.inr (.inr ⟨set, event, payload, rfl, rfl⟩))

/-- Steps of operations count no deliveries. -/
theorem Memory.step_counts (m : Memory) (op : Op) :
    (m.step op).1.deliveries = m.deliveries ∧ (m.step op).1.handlerErrors = m.handlerErrors := by
  have hnamed : ∀ room, (m.named room).1.deliveries = m.deliveries ∧ (m.named room).1.handlerErrors = m.handlerErrors :=
    fun room => by
      rw [Memory.named]
      split <;> exact ⟨rfl, rfl⟩
  cases op with
  | pop | delete =>
    rw [Memory.step]
    split <;> exact ⟨rfl, rfl⟩
  | list | discard | test | check | add | seek | read => exact ⟨rfl, rfl⟩
  | sweep client rooms =>
    cases rooms with
    | nil => exact ⟨rfl, rfl⟩
    | cons room rooms => exact hnamed room
  | enter client room => exact hnamed room
  | aim now room event payload => cases room <;> exact ⟨rfl, rfl⟩

/-! ## Operations that nothing comes between -/

namespace Memory

variable {m : Memory} {client room : String} {set : Nat}

theorem view_get? (m : Memory) (room : String) : m.view.rooms.get? room = (m.table.get? room).map m.members :=
  Roster.get?_map m.members m.table

theorem view_keys (m : Memory) : m.view.rooms.keys = m.table.keys := List.map_map

theorem named_of_get? (hget : m.table.get? room = some set) : m.named room = (m, set) := by rw [named, hget]

theorem members_change (hset : set < m.sets.length) (f : List String → List String) (i : Nat) :
    (m.change set f).members i = if i = set then f (m.members i) else m.members i := by
  simp only [members, change, List.getD_eq_getElem?_getD, List.getElem?_modify]
  by_cases hi : i = set
  · simp [hi, hset]
  · simp [hi, Ne.symm hi]

namespace WellFormed

/-- A room is told from others by its set. -/
theorem set_eq_iff (h : m.WellFormed) (hget : m.table.get? room = some set) {entry : String × Nat}
    (he : entry ∈ m.table) : entry.2 = set ↔ entry.1 = room := by
  refine ⟨fun hset => ?_, fun hroom => ?_⟩
  · have hentry := List.inj_on_of_nodup_map h.named he (Roster.mem_of_get? hget) hset
    rw [hentry]
  · have hfound : m.table.get? entry.1 = some entry.2 := Roster.get?_of_mem h.rooms he
    rw [hroom, hget] at hfound
    exact (Option.some.inj hfound).symm

theorem set_lt (h : m.WellFormed) (hget : m.table.get? room = some set) : set < m.sets.length :=
  h.known _ (Roster.mem_of_get? hget)

end WellFormed

/-- A client has left the set of a room, and the room is deleted if it is empty. -/
def quit (m : Memory) (client room : String) (set : Nat) : Memory :=
  let m := m.change set fun members => members.filter (· != client)
  if (m.members set).isEmpty then { m with table := m.table.erase room } else m

theorem WellFormed.quit (h : m.WellFormed) (client room : String) (set : Nat) : (m.quit client room set).WellFormed := by
  have hchange := h.change set fun members hm => hm.filter fun member => member != client
  unfold Memory.quit
  dsimp only
  split
  · exact hchange.erase room
  · exact hchange

/-- Two memories show the same rooms if the same operation on each of their rooms shows the same. -/
theorem view_ext {m m' : Memory} {rooms : Roster (List String)} (htally : m'.toTally = m.toTally)
    (hclients : m'.clients = m.clients) (hrooms : m'.view.rooms = rooms) : m'.view = { m.view with rooms := rooms } := by
  simp only [view, Rooms.mk.injEq]
  exact ⟨htally, hclients, hrooms⟩

/-- A client has joined the set that a room names. -/
theorem view_joined (h : m.WellFormed) (client room : String) :
    ((m.named room).1.change (m.named room).2 (insert client)).view =
      { m.view with rooms := m.view.rooms.put room (insert client (m.view.targets room)) } := by
  have htargets : m.view.targets room = ((m.table.get? room).map m.members).getD [] := by rw [targets, m.view_get?]
  rw [htargets]
  cases hget : m.table.get? room with
  | some set =>
    have hhas : m.view.rooms.has room = true := by rw [Roster.has, m.view_get?, hget]; rfl
    rw [named_of_get? hget, Roster.put_of_has (m.view_keys ▸ h.rooms) hhas]
    refine view_ext rfl rfl ?_
    show (m.table.map fun entry => (entry.1, (m.change set _).members entry.2)) = (m.table.map _).map _
    rw [List.map_map]
    refine List.map_congr_left fun entry he => ?_
    rw [Function.comp_apply, members_change (h.set_lt hget)]
    by_cases hroom : entry.1 = room
    · rw [if_pos ((h.set_eq_iff hget he).2 hroom), if_pos hroom, (h.set_eq_iff hget he).2 hroom, hroom]
      rfl
    · rw [if_neg (mt (h.set_eq_iff hget he).1 hroom), if_neg hroom]
  | none =>
    have hput : m.view.rooms.put room (insert client []) = m.view.rooms ++ [(room, insert client [])] :=
      Roster.put_of_get?_none (by rw [m.view_get?, hget]; rfl)
    rw [named, hget, Option.map_none, Option.getD_none, hput]
    refine view_ext rfl rfl ?_
    dsimp only [view, change]
    rw [Roster.put_of_get?_none hget, List.map_append]
    congr 1
    · refine List.map_congr_left fun entry he => ?_
      have hlt := h.known entry he
      simp [members, List.getElem?_append_left hlt, Nat.ne_of_gt hlt]
    · simp [members]

/-- The client is out of the room, and nothing else is changed. -/
theorem view_quit (h : m.WellFormed) (hget : m.table.get? room = some set) (client : String) :
    (m.quit client room set).view = (m.view.leave client room).1 := by
  have hmembers := members_change (h.set_lt hget) fun members => members.filter (· != client)
  have hleave : m.view.rooms.filterMap (fun entry => if entry.1 = room then without client entry else some entry) =
      m.table.filterMap fun entry => if entry.1 = room then without client (entry.1, m.members entry.2)
        else some (entry.1, m.members entry.2) := List.filterMap_map
  have hset : ∀ entry ∈ m.table, entry.1 = room → entry.2 = set := fun entry he => (h.set_eq_iff hget he).2
  have hother : ∀ entry ∈ m.table, entry.1 ≠ room → entry.2 ≠ set := fun entry he => mt (h.set_eq_iff hget he).1
  have hempty : ((m.change set fun members => members.filter (· != client)).members set).isEmpty =
      ((m.members set).filter (· != client)).isEmpty := by rw [hmembers, if_pos rfl]
  unfold leave quit
  dsimp only
  rw [hempty, hleave]
  split
  · rename_i hnil
    refine view_ext rfl rfl ?_
    show ((m.table.erase room).map fun entry => (entry.1, (m.change set _).members entry.2)) = _
    rw [← List.filterMap_eq_map, Roster.erase, List.filterMap_filter]
    refine List.filterMap_congr fun entry he => ?_
    by_cases hroom : entry.1 = room
    · rw [if_neg (by simp [hroom]), if_pos hroom, without, hset entry he hroom, List.isEmpty_iff.1 hnil]
    · rw [if_pos (by simp [hroom]), if_neg hroom, Function.comp_apply, hmembers, if_neg (hother entry he hroom)]
  · rename_i hmore
    refine view_ext rfl rfl ?_
    show (m.table.map fun entry => (entry.1, (m.change set _).members entry.2)) = _
    rw [← List.filterMap_eq_map]
    refine List.filterMap_congr fun entry he => ?_
    rw [Function.comp_apply, hmembers]
    by_cases hroom : entry.1 = room
    · rw [if_pos (hset entry he hroom), if_pos hroom, without, hset entry he hroom]
      split
      · exact absurd (List.isEmpty_iff.2 ‹_›) hmore
      · rfl
    · rw [if_neg (hother entry he hroom), if_neg hroom]

end Memory

section Runs
variable {m m' : Memory} {client room : String} {set : Nat} {rooms : List String} {p : Progress}

/-- A client leaves the set of a room, and what else is to be done is done after that. -/
theorem runs_discard (hroom : m.table.has room = true) (h : Runs (m.quit client room set) (.sweep client rooms) m' p) :
    Runs m (.discard client room set rooms) m' p := by
  let left := m.change set fun members => members.filter (· != client)
  have hdiscard : m.step (.discard client room set rooms) = (left, .goesOn (.test client room set rooms)) := rfl
  refine .goesOn hdiscard ?_
  unfold Memory.quit at h
  cases hempty : (left.members set).isEmpty with
  | true =>
    rw [if_pos hempty] at h
    have htest : left.step (.test client room set rooms) = (left, .goesOn (.delete client room rooms)) := by
      rw [Memory.step, if_pos hempty]
    exact .goesOn htest (.goesOn (if_pos hroom) h)
  | false =>
    rw [if_neg (Bool.eq_false_iff.1 hempty)] at h
    have htest : left.step (.test client room set rooms) = (left, .goesOn (.sweep client rooms)) := by
      rw [Memory.step, if_neg (Bool.eq_false_iff.1 hempty)]
    exact .goesOn htest h

/-- A client leaves some rooms. -/
theorem runs_sweep (client : String) (rooms : List String) : ∀ {m : Memory}, m.WellFormed → rooms.Nodup →
    (∀ room ∈ rooms, m.table.has room = true) → ∃ m', Runs m (.sweep client rooms) m' .finished ∧ m'.WellFormed ∧
      m'.view = { m.view with rooms := m.view.rooms.filterMap fun entry =>
        if entry.1 ∈ rooms then without client entry else some entry } := by
  induction rooms with
  | nil =>
    intro m h _ _
    exact ⟨m, .ends rfl rfl, h, by simp⟩
  | cons room rooms ih =>
    intro m h hnodup hhas
    obtain ⟨hnew, hnodup⟩ := List.nodup_cons.1 hnodup
    obtain ⟨set, hget⟩ := Option.isSome_iff_exists.1 (hhas room List.mem_cons_self)
    have hrest : ∀ other ∈ rooms, (m.quit client room set).table.has other = true := fun other hother => by
      have hold := hhas other (List.mem_cons_of_mem _ hother)
      unfold Memory.quit
      dsimp only
      split
      · show (m.table.erase room).has other = true
        have hne : other ≠ room := fun heq => hnew (heq ▸ hother)
        rw [Roster.has_erase, hold, Bool.and_true, bne_iff_ne]
        exact hne
      · exact hold
    obtain ⟨m', hruns, h', hview⟩ := ih (h.quit client room set) hnodup hrest
    have hstep : m.step (.sweep client (room :: rooms)) = (m, .goesOn (.discard client room set rooms)) := by
      simp only [Memory.step, Memory.named_of_get? hget]
    refine ⟨m', .goesOn hstep (runs_discard (hhas room List.mem_cons_self) hruns), h', ?_⟩
    · rw [hview, Memory.view_quit h hget]
      unfold leave
      simp only [List.filterMap_filterMap, Rooms.mk.injEq, true_and]
      refine List.filterMap_congr fun entry _ => ?_
      by_cases hroom : entry.1 = room
      · have hleft : ∀ entry', without client entry = some entry' → entry'.1 ∉ rooms := fun entry' heq => by
          rw [without] at heq
          split at heq <;> cases heq
          exact hroom ▸ hnew
        simp only [hroom, if_true, List.mem_cons_self]
        cases hwithout : without client entry with
        | none => rfl
        | some entry' => exact if_neg (hleft entry' hwithout)
      · simp only [hroom, if_false, Option.bind_some, List.mem_cons, false_or]

/-- **A client that is disconnected at once** is out of all its rooms. -/
theorem runs_disconnect (h : m.WellFormed) (client : String) : ∃ m', Runs m (.pop client) m' .finished ∧ m'.WellFormed ∧
    m'.view = (m.view.disconnect client).1 := by
  cases hclient : m.clients.has client with
  | false =>
    have hdisconnect : m.view.disconnect client = (m.view, []) := if_neg (Bool.eq_false_iff.1 hclient)
    refine ⟨m, .ends (if_neg (Bool.eq_false_iff.1 hclient)) rfl, h, ?_⟩
    rw [hdisconnect]
  | true =>
    let popped : Memory := { m with clients := m.clients.erase client }
    have hstep : m.step (.pop client) = (popped, .goesOn (.list client)) := if_pos hclient
    have hpopped : popped.WellFormed := by
      have hwell := h.step (.pop client)
      rwa [hstep] at hwell
    obtain ⟨m', hruns, h', hview⟩ := runs_sweep client m.table.keys hpopped h.rooms fun _ => Roster.has_iff_mem_keys.2
    refine ⟨m', .goesOn hstep (.goesOn rfl hruns), h', hview.trans ?_⟩
    have hrooms : m.view.rooms.filterMap (fun entry => if entry.1 ∈ m.table.keys then without client entry else some entry) =
        m.view.rooms.filterMap (without client) := by
      refine List.filterMap_congr fun entry he => if_pos ?_
      rw [← m.view_keys]
      exact List.mem_map_of_mem he
    have hdisconnect : (m.view.disconnect client).1 =
        { m.view with clients := m.clients.erase client, rooms := m.view.rooms.filterMap (without client) } :=
      congrArg Prod.fst (if_pos hclient)
    rw [hdisconnect, ← hrooms]
    rfl

theorem runs_refused (hjoin : m.view.join? client room = none) : Runs m (.check client room) m .refused := by
  have hclient : m.clients.has client ≠ true := fun hclient => by
    rw [join?, if_pos (show m.view.clients.has client = true from hclient)] at hjoin
    cases hjoin
  refine .ends ?_ rfl
  rw [Memory.step, if_neg hclient]

/-- A client that has been found connected is added to a room. -/
theorem runs_enter (h : m.WellFormed) (client room : String) : ∃ m', Runs m (.enter client room) m' .finished ∧ m'.WellFormed ∧
    m'.view = { m.view with rooms := m.view.rooms.put room (Memory.insert client (m.view.targets room)) } := by
  refine ⟨(m.named room).1.change (m.named room).2 (Memory.insert client), .goesOn rfl (.ends rfl rfl), ?_,
    m.view_joined h client room⟩
  exact (h.named_fst room).change _ fun members hm => Memory.WellFormed.insert_nodup client hm

/-- **A client that joins a room at once** is in it. -/
theorem runs_join (h : m.WellFormed) {joined : Rooms × List Log.Entry} (hjoin : m.view.join? client room = some joined) :
    ∃ m', Runs m (.check client room) m' .finished ∧ m'.WellFormed ∧ m'.view = joined.1 := by
  have hclient : m.clients.has client = true := by
    unfold join? at hjoin
    split at hjoin
    · assumption
    · cases hjoin
  rw [join?, if_pos (show m.view.clients.has client = true from hclient)] at hjoin
  cases hjoin
  obtain ⟨m', hruns, h', hview⟩ := runs_enter h client room
  have hcheck : m.step (.check client room) = (m, .goesOn (.enter client room)) := by rw [Memory.step, if_pos hclient]
  exact ⟨m', .goesOn hcheck hruns, h', hview⟩

/-- **A client that leaves a room at once** is out of it. -/
theorem runs_leave (h : m.WellFormed) (client room : String) : ∃ m', Runs m (.seek client room) m' .finished ∧ m'.WellFormed ∧
    m'.view = (m.view.leave client room).1 := by
  cases hget : m.table.get? room with
  | none =>
    refine ⟨m, .ends ?_ rfl, h, ?_⟩
    · rw [Memory.step, hget, Option.elim_none]
    · refine Memory.view_ext rfl rfl ?_
      refine ((List.filterMap_congr fun entry he => if_neg fun hroom => ?_).trans List.filterMap_some).symm
      have hmem : room ∈ m.table.keys := by
        rw [← m.view_keys, ← hroom]
        exact List.mem_map_of_mem he
      have hhas := Roster.has_iff_mem_keys.2 hmem
      rw [Roster.has, hget] at hhas
      cases hhas
  | some set =>
    have hhas : m.table.has room = true := by rw [Roster.has, hget]; rfl
    have hseek : m.step (.seek client room) = (m, .goesOn (.discard client room set [])) := by
      rw [Memory.step, hget, Option.elim_some]
    exact ⟨m.quit client room set, .goesOn hseek (runs_discard hhas (.ends rfl rfl)), h.quit client room set,
      Memory.view_quit h hget client⟩

/-- **An event that is sent at once** is for those who are in the room, or connected. -/
theorem runs_send (h : m.WellFormed) (now : Nat) (room : Option String) (event : String) (payload : Json) :
    ∃ m', Runs m (.aim now room event payload) m' (.sends event payload (m.view.address now room).2) ∧ m'.WellFormed ∧
      m'.view = (m.view.address now room).1 := by
  have hwell := h.step (.aim now room event payload)
  cases room with
  | none => exact ⟨_, .ends rfl rfl, hwell, rfl⟩
  | some room =>
    have htargets : m.view.targets room = ((m.table.get? room).map m.members).getD [] := by rw [targets, m.view_get?]
    cases hget : m.table.get? room with
    | none =>
      refine ⟨_, .ends ?_ rfl, hwell, rfl⟩
      rw [Memory.step, hget, Option.elim_none, address, addressRoom, htargets, hget]
      rfl
    | some set =>
      let aimed := (m.step (.aim now (some room) event payload)).1
      have haim : m.step (.aim now (some room) event payload) = (aimed, .goesOn (.read set event payload)) := by
        simp only [aimed, Memory.step, hget, Option.elim_some]
      refine ⟨aimed, .goesOn haim (.ends ?_ rfl), hwell, rfl⟩
      rw [address, addressRoom, htargets, hget]
      rfl

end Runs

end PoolFeed.Rooms
