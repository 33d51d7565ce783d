import PoolFeed.Proofs.Rooms.Delivery

/-!
# Who is left in a room

| here | there |
| --- | --- |
| `Stored`           | "Remove a client and all of its room memberships" (`RoomBroadcaster.disconnect`), "Add a connected client to a room" (`join`) |
| `Handler.threaded` | a handler that `RoomBroadcaster._execute_handler` runs in the executor |
| `Hall.exists_race` | `join` has found a client connected, and `disconnect` takes it out of all rooms before `join` adds it to one |

When no thread is in an operation, every room has members and they are connected, as long as nobody comes between the steps
of an operation; and nobody does if handlers that run in threads of their own disconnect nobody (`meet_undisturbed`). One
that does can leave a client in a room that is not connected, and that no `disconnect` takes out again (`meet_lawful`).
-/

namespace PoolFeed.Rooms

/-- Every room has members, and they are connected. -/
def Stored (r : Rooms) : Prop :=
  ∀ entry ∈ r.rooms, entry.2 ≠ [] ∧ entry.2.Nodup ∧ ∀ client ∈ entry.2, r.clients.has client = true

theorem Kept.stored {r : Rooms} (h : r.Kept) : r.Stored :=
  fun entry he => ⟨h.nonempty entry he, h.nodup entry he, h.connected entry he⟩

theorem Stored.targets {r : Rooms} (h : r.Stored) (room : String) :
    ∀ client ∈ r.targets room, r.clients.has client = true := by
  unfold Rooms.targets
  cases hget : r.rooms.get? room with
  | none => exact nofun
  | some members => exact (h _ (Roster.mem_of_get? hget)).2.2

/-- Only some handlers are connected in a run. -/
def Admits (fits : Handler → Prop) (moves : List Move) : Prop := ∀ client h, .connect client h ∈ moves → fits h

/-! ## Nobody comes between -/

/-- When an operation is over, rooms have members and they are connected. -/
def Memory.Settles (m : Memory) : Option Op → Prop
  | none => m.view.Kept
  | some op => ∀ m' p, Runs m op m' p → m'.view.Kept

namespace Memory

variable {m : Memory}

theorem Settles.step {op : Op} (h : m.Settles (some op)) : (m.step op).1.Settles (m.step op).2.op? := by
  have hends : (m.step op).2.op? = none → (m.step op).1.view.Kept := fun hp => h _ _ (.ends rfl hp)
  cases hp : (m.step op).2 with
  | goesOn op' =>
    have hstep : m.step op = ((m.step op).1, .goesOn op') := by rw [← hp]
    exact fun m' p hruns => h m' p (.goesOn hstep hruns)
  | finished | refused | missing | sends => exact hends (by rw [hp]; rfl)

/-- What is asked for, at once, keeps rooms as they should be. -/
theorem Settles.ask (hwell : m.WellFormed) (h : m.view.Kept) (r : Request) : m.Settles (some r.op) := by
  have hone : ∀ {op : Op} {m₁ : Memory} {p₁ : Progress}, Runs m op m₁ p₁ → m₁.view.Kept → m.Settles (some op) :=
    fun hruns hkept m' p hruns' => (hruns.unique hruns').1 ▸ hkept
  cases r with
  | disconnect client =>
    obtain ⟨m', hruns, -, hview⟩ := runs_disconnect hwell client
    exact hone hruns (hview ▸ h.disconnect client)
  | join client room =>
    cases hjoin : m.view.join? client room with
    | none => exact hone (runs_refused hjoin) h
    | some joined =>
      obtain ⟨m', hruns, -, hview⟩ := runs_join hwell hjoin
      exact hone hruns (hview ▸ h.join? hjoin)
  | leave client room =>
    obtain ⟨m', hruns, -, hview⟩ := runs_leave hwell client room
    exact hone hruns (hview ▸ h.leave client room)
  | send now room event payload =>
    obtain ⟨m', hruns, -, hview⟩ := runs_send hwell now room event payload
    refine hone hruns (hview ▸ ?_)
    cases room <;> exact h.recount _

/-- Operations connect nobody. -/
theorem clients_step (m : Memory) (op : Op) : (m.step op).1.clients.Sublist m.clients := by
  have hnamed : ∀ room, (m.named room).1.clients = m.clients := fun room => by
    rw [Memory.named]
    split <;> rfl
  cases op with
  | pop client =>
    rw [Memory.step]
    split
    · exact List.filter_sublist
    · exact List.Sublist.refl _
  | delete client room rooms =>
    rw [Memory.step]
    split <;> exact List.Sublist.refl _
  | list | discard | test | check | add | seek | read => exact List.Sublist.refl _
  | sweep client rooms =>
    cases rooms with
    | nil => exact List.Sublist.refl _
    | cons room rooms => exact (hnamed room).symm ▸ List.Sublist.refl _
  | enter client room => exact (hnamed room).symm ▸ List.Sublist.refl _
  | aim now room event payload => cases room <;> exact List.Sublist.refl _

end Memory

/-- Whoever is called fits, and only the main thread is in an operation, after which rooms are as they should be. -/
structure Undisturbed (fits : Handler → Prop) (w : Hall) : Prop where
  clients : ∀ entry ∈ w.memory.clients, fits entry.2
  calls : ∀ c ∈ w.calls, fits c.handler
  wellFormed : w.memory.WellFormed
  aside : ∀ t, w.ops (some t) = none
  settles : w.memory.Settles (w.ops none)

namespace Undisturbed

variable {fits : Handler → Prop} {w : Hall}

theorem start (fits : Handler → Prop) : Undisturbed fits {} := ⟨nofun, nofun, .empty, fun _ => rfl, kept_empty⟩

theorem kept (h : Undisturbed fits w) (hidle : w.idle none = true) : w.memory.view.Kept := by
  have hsettles := h.settles
  rwa [Option.isNone_iff_eq_none.1 hidle] at hsettles

/-- The main thread leaves its operations aside to connect a client, or to count how a handler has ended. -/
theorem idle (h : Undisturbed fits w) (hidle : w.idle none = true) {m : Memory}
    (hclients : ∀ entry ∈ m.clients, fits entry.2) (hwell : m.WellFormed) (hkept : m.view.Kept) (sendings : List Sending) :
    Undisturbed fits { w with memory := m, sendings := sendings } := by
  refine ⟨hclients, h.calls, hwell, h.aside, ?_⟩
  show m.Settles (w.ops none)
  rw [Option.isNone_iff_eq_none.1 hidle]
  exact hkept

/-- No handler may disconnect anyone if those that run in threads of their own do not. -/
theorem mayDrop (h : Undisturbed fits w) (hfits : ∀ h, fits h → h.threaded = true → h.drops = []) (k : Nat)
    (client other : String) : w.mayDrop k client other = false := by
  refine Bool.eq_false_iff.2 fun hmay => ?_
  obtain ⟨c, hc, hdrops⟩ := List.any_eq_true.1 (Bool.and_eq_true_iff.1 hmay).2
  simp only [Bool.and_eq_true, decide_eq_true_eq] at hdrops
  obtain ⟨⟨-, hthreaded⟩, hother⟩ := hdrops
  rw [hfits c.handler (h.calls c hc) hthreaded] at hother
  cases hother

/-- The main thread goes on, for it is the only one in an operation. -/
theorem goOn (h : Undisturbed fits w) (t : Thread) : Undisturbed fits (w.goOn t) := by
  unfold Hall.goOn
  cases hop : w.ops t with
  | none => exact h
  | some op =>
    cases t with
    | some t => cases (h.aside t).symm.trans hop
    | none =>
      have hsettles := h.settles
      rw [hop] at hsettles
      exact ⟨fun entry he => h.clients entry ((w.memory.clients_step op).subset he), h.calls, h.wellFormed.step op,
        h.aside, hsettles.step⟩

theorem call (h : Undisturbed fits w) (k : Nat) (client : String) (s : Sending) : Undisturbed fits (w.call k client s) := by
  refine ⟨h.clients, fun c hc => ?_, h.wellFormed, h.aside, h.settles⟩
  rcases List.mem_append.1 hc with hc | hc
  · exact h.calls c hc
  · obtain ⟨handler, hget, rfl⟩ := List.mem_map.1 hc
    exact h.clients _ (Roster.mem_of_get? (Option.mem_toList.1 hget))

/-- **While no handler in a thread of its own disconnects anyone, nobody comes between.** -/
theorem step (h : Undisturbed fits w) (hfits : ∀ h, fits h → h.threaded = true → h.drops = []) (m : Move)
    (hm : ∀ client h, m = .connect client h → fits h) : Undisturbed fits (w.step m) := by
  cases m with
  | connect client handler =>
    rw [Hall.step]
    split
    · rename_i hidle
      refine h.idle hidle (fun entry he => ?_) (h.wellFormed.connect client handler)
        ((h.kept hidle).connect client handler) _
      rcases Roster.mem_put he with rfl | hold
      · exact hm client handler rfl
      · exact h.clients entry hold
    · exact h
  | ask r =>
    rw [Hall.step]
    split
    · rename_i hidle
      exact ⟨h.clients, h.calls, h.wellFormed, h.aside, .ask h.wellFormed (h.kept hidle) r⟩
    · exact h
  | drop k client other =>
    rw [Hall.step, if_neg (Bool.eq_false_iff.1 (h.mayDrop hfits k client other))]
    exact h
  | goOn t => exact h.goOn t
  | call k client =>
    rw [Hall.step]
    cases hk : w.sendings[k]? with
    | none => exact h
    | some s =>
      rw [Option.elim_some]
      split
      · exact h.call k client s
      · exact h
  | finish k client failure =>
    rw [Hall.step]
    cases hk : w.sendings[k]? with
    | none => exact h
    | some s =>
      rw [Option.elim_some]
      split
      · rename_i hidle
        let tally := (w.memory.view.settle client s.event failure).1.toTally
        exact h.idle (m := { w.memory with toTally := tally }) hidle.1 h.clients (h.wellFormed.recount tally)
          ((h.kept hidle.1).recount tally) _
      · exact h

end Undisturbed

theorem meet_undisturbed {fits : Handler → Prop} (hfits : ∀ h, fits h → h.threaded = true → h.drops = [])
    (moves : List Move) (hadmits : Admits fits moves) : Undisturbed fits (meet moves) := by
  induction moves using List.reverseRecOn with
  | nil => exact .start fits
  | append_singleton moves m ih =>
    rw [meet_concat]
    refine (ih fun client h hmem => hadmits client h (List.mem_append_left _ hmem)).step hfits m ?_
    rintro client h rfl
    exact hadmits client h (List.mem_append_right _ (List.mem_singleton_self _))

/-! ## A handler that does come between -/

namespace Hall

variable {w : Hall}

/-- **A race**: a client that is to join a room is found connected; a handler in a thread of its own disconnects it; then it
is added to the room, and nobody takes it out again. -/
theorem exists_race (hquiet : w.Quiet) (hwell : w.memory.WellFormed) {k : Nat} {client other : String} {s : Sending}
    (hk : w.sendings[k]? = some s) (hcalling : client ∈ s.calling) {c : Call} (hc : c ∈ w.calls) (hsending : c.sending = k)
    (hclient : c.client = client) (hthreaded : c.handler.threaded = true) (hdrops : other ∈ c.handler.drops)
    (hconnected : w.memory.clients.has other = true) (room : String) : ∃ moves, (∀ client h, .connect client h ∉ moves) ∧
      (w.after moves).Quiet ∧ other ∈ (w.after moves).memory.view.targets room ∧
      (w.after moves).memory.clients.has other = false := by
  -- It is found connected.
  let joining := w.put none (some (.enter other room))
  have hjoining : w.after [.ask (.join other room), .goOn none] = joining := by
    have hask : w.step (.ask (.join other room)) = w.put none (some (.check other room)) :=
      if_pos (by rw [idle, hquiet none]; rfl)
    have hcheck : w.memory.step (.check other room) = (w.memory, .goesOn (.enter other room)) := by
      rw [Memory.step, if_pos hconnected]
    rw [after, List.foldl_cons, List.foldl_cons, List.foldl_nil, hask]
    exact (goOn_goesOn (put_self w none _) hcheck).trans (put_put w none _ _)
  -- The handler disconnects it.
  have haside : joining.ops (some (k, client)) = none := hquiet (some (k, client))
  have hdrop := step_drop haside hk hcalling hc hsending hclient hthreaded hdrops
  obtain ⟨n, m, hwell', hview, hn⟩ := after_pop (w := joining) hwell haside hdrop
  -- It is added to the room.
  obtain ⟨m', hruns, -, hview'⟩ := runs_enter hwell' other room
  have hmain : ({ joining with memory := m } : Hall).ops none = some (.enter other room) := put_self w none _
  obtain ⟨n', hn'⟩ := after_runs hruns rfl hmain
  let moves : List Move := [.ask (.join other room), .goOn none] ++
    (.drop k client other :: List.replicate n (.goOn (some (k, client)))) ++ List.replicate n' (.goOn none)
  have hmoves : w.after moves = { w with memory := m' } := by
    rw [after_append, after_append, hjoining, hn, hn', put_memory, put_put, put_none (hquiet none)]
    exact congrArg (fun ss => ({ w with memory := m', sendings := ss } : Hall)) (List.append_nil _)
  refine ⟨moves, by simp [moves, List.mem_replicate], ?_⟩
  rw [hmoves]
  refine ⟨hquiet, ?_, ?_⟩
  · show other ∈ m'.view.targets room
    rw [hview', targets, Roster.get?_put_self, Option.getD_some, Memory.insert]
    split
    · exact List.contains_iff_mem.1 ‹_›
    · exact List.mem_append_right _ (List.mem_singleton_self other)
  · have hclients : m'.clients = m.clients := congrArg Rooms.clients hview'
    have herase : m.clients = (w.memory.view.disconnect other).1.clients := congrArg Rooms.clients hview
    show m'.clients.has other = false
    rw [hclients, herase, disconnect, if_pos (show w.memory.view.clients.has other = true from hconnected)]
    show (w.memory.clients.erase other).has other = false
    rw [Roster.has_erase, bne_self_eq_false, Bool.false_and]

end Hall

/-- The handler of a client has been called, while another is connected with the same. -/
def opening (client other : String) (h : Handler) : List Move :=
  [.connect client h, .connect other h, .ask (.send 0 none "pool:new" .null), .goOn none, .call 0 client]

theorem meet_opening {client other : String} (hne : client ≠ other) (h : Handler) :
    (meet (opening client other h)).Quiet ∧ (meet (opening client other h)).memory.clients = [(client, h), (other, h)] ∧
    (∃ s, (meet (opening client other h)).sendings[0]? = some s ∧ client ∈ s.calling) ∧
    (meet (opening client other h)).calls = [⟨0, client, h, "pool:new", .null⟩] := by
  let connected : Memory := { clients := [(client, h), (other, h)] }
  let aimed : Memory := (connected.step (.aim 0 none "pool:new" .null)).1
  let s : Sending := .fresh "pool:new" .null [client, other]
  have hconnect : ({} : Hall).after [.connect client h, .connect other h] = { memory := connected } := by
    simp [Hall.after, Hall.step, Hall.idle, Roster.put, hne, connected]
  have hsend : ({ memory := connected } : Hall).after [.ask (.send 0 none "pool:new" .null), .goOn none] =
      { memory := aimed, sendings := [s] } := by
    refine (Hall.goOn_ends (w := Hall.put { memory := connected } none _) (Hall.put_self _ none _) rfl rfl).trans ?_
    rw [Hall.put_put, Hall.put_none rfl]
    rfl
  have hcall : ({ memory := aimed, sendings := [s] } : Hall).step (.call 0 client) =
      { memory := aimed, sendings := [s.begin client (some h)], calls := [⟨0, client, h, "pool:new", .null⟩] } := by
    have hget : aimed.clients.get? client = some h := if_pos rfl
    simp [Hall.step, Hall.call, Hall.callOf, Hall.idle, hget, s, Sending.fresh]
  have hall : meet (opening client other h) =
      { memory := aimed, sendings := [s.begin client (some h)], calls := [⟨0, client, h, "pool:new", .null⟩] } := by
    show (({} : Hall).after ([.connect client h, .connect other h] ++
      [.ask (.send 0 none "pool:new" .null), .goOn none])).step (.call 0 client) = _
    rw [Hall.after_append, hconnect, hsend, hcall]
  rw [hall]
  exact ⟨fun _ => rfl, rfl, ⟨_, rfl, List.mem_singleton_self client⟩, rfl⟩

/-- A handler in a thread of its own that disconnects someone is enough for a race. -/
theorem exists_not_stored {h : Handler} (hthreaded : h.threaded = true) {other : String} (hother : other ∈ h.drops) :
    ∃ moves, Admits (· = h) moves ∧ (meet moves).Quiet ∧ ¬ (meet moves).memory.view.Stored := by
  have hne : other ++ "x" ≠ other := fun heq => by
    have hlength := congrArg String.length heq
    rw [String.length_append] at hlength
    exact Nat.succ_ne_self _ hlength
  obtain ⟨hquiet, hclients, ⟨s, hs, hcalling⟩, hcalls⟩ := meet_opening hne h
  have hconnected : (meet (opening (other ++ "x") other h)).memory.clients.has other = true := by
    rw [hclients, Roster.has_iff_mem_keys]
    exact List.mem_cons_of_mem _ (List.mem_singleton_self other)
  obtain ⟨moves, hnone, hquiet', hmem, hout⟩ := Hall.exists_race hquiet (meet_sound _).wellFormed hs hcalling
    (hcalls ▸ List.mem_singleton_self _) rfl rfl hthreaded hother hconnected (poolRoom "a")
  refine ⟨opening (other ++ "x") other h ++ moves, fun client h' hconnect => ?_, ?_, fun hstored => ?_⟩
  · rcases List.mem_append.1 hconnect with hconnect | hconnect
    · simp only [opening, List.mem_cons, Move.connect.injEq, List.not_mem_nil, reduceCtorEq, or_false] at hconnect
      obtain ⟨-, heq⟩ | ⟨-, heq⟩ := hconnect <;> exact heq
    · exact absurd hconnect (hnone client h')
  · rw [meet, Hall.after_append]
    exact hquiet'
  · rw [meet, Hall.after_append, ← meet] at hstored
    exact Bool.eq_false_iff.1 hout (hstored.targets (poolRoom "a") other hmem)

/-! ## The law of a run -/

/-- **Every run keeps the law of deliveries**, whatever clients, handlers and threads do and in whatever order deliveries
begin and end. And **whenever no thread is in an operation, rooms have members and they are connected**, in every run with
some kind of handlers, if and only if none of these that runs in a thread of its own disconnects anyone. -/
theorem meet_lawful (fits : Handler → Prop) : (∀ moves, Lawful moves (meet moves)) ∧
    ((∀ moves, Admits fits moves → (meet moves).Quiet → (meet moves).memory.view.Stored) ↔
      ∀ h, fits h → h.threaded = true → h.drops = []) := by
  refine ⟨fun moves => (meet_sound moves).lawful, fun hstored h hfits hthreaded => ?_, fun hfits moves hadmits hquiet => ?_⟩
  · refine List.eq_nil_iff_forall_not_mem.2 fun other hother => ?_
    obtain ⟨moves, hadmits, hquiet, hnot⟩ := exists_not_stored hthreaded hother
    exact hnot (hstored moves (fun client h' hconnect => hadmits client h' hconnect ▸ hfits) hquiet)
  · have hsettles := (meet_undisturbed hfits moves hadmits).settles
    rw [hquiet none] at hsettles
    exact Kept.stored hsettles

/-- While the handler of one client runs, in a thread of its own, the other joins a room, and is disconnected in between. It
stays in the room. -/
theorem disconnected_stays : let h : Handler := { threaded := true, drops := ["b"] }
    let w := meet [.connect "a" h, .connect "b" {}, .ask (.send 0 none "pool:new" .null), .goOn none, .call 0 "a",
      .ask (.join "b" "room:x"), .goOn none, .drop 0 "a" "b", .goOn (some (0, "a")), .goOn (some (0, "a")),
      .goOn (some (0, "a")), .goOn none, .goOn none]
    (w.idle none = true ∧ w.idle (some (0, "a")) = true) ∧
      w.memory.view.members "room:x" = ["b"] ∧ w.memory.clients.has "b" = false := by
  decide +kernel

/-- While the handler of one client runs, the other is disconnected, before the delivery to it begins. -/
example : (meet [.connect "a" {}, .connect "b" {}, .ask (.send 0 none "pool:new" .null), .goOn none, .call 0 "a",
    .ask (.disconnect "b"), .goOn none, .goOn none, .goOn none, .call 0 "b", .finish 0 "a" none]).sendings.map
      Sending.result? = [some 1] := by decide +kernel

end PoolFeed.Rooms
