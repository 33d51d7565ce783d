import Mathlib.Data.List.Induction
import PoolFeed.Proofs.Rooms.Sendings

/-!
# Who is called

| here | there |
| --- | --- |
| `Lawful`   | "emit an event to every client in a room", "call one client's handler with error isolation", "number of clients the event was delivered to" (`RoomBroadcaster`) |
| `Recorded` | the calls of handlers, and `deliveries` and `handler_errors` of `BroadcastStats` |

`Lawful` says, of every run, whatever threads do between the steps of each other, that an event is for those who were in its
room, or connected, when it was sent; that a client for whom it is meant and who is still connected when the delivery to it
begins is called once, with that event, and nobody else is; that a sending comes to the number of handlers that completed,
whatever the others did; and that whoever is not connected cannot join. Who is in the rooms is another matter, on which
threads have a say.
-/

namespace PoolFeed.Rooms

/-! ## The law -/

/-- Whom an event is for: the set that its room named when it was looked up, as it is when it is read; or all who are
connected. -/
def Memory.addressees (looked read : Memory) : Option String → List String
  | none => read.clients.keys
  | some room => (looked.table.get? room).elim [] read.members

/-- What a hall tells of the moves of a run. -/
structure Recorded (moves : List Move) (w : Hall) : Prop where
  /-- A sending is for those who were there when it began. -/
  addressed : ∀ k s, w.sendings[k]? = some s → ∃ before now room looks reads after,
    moves = before ++ .ask (.send now room s.event s.payload) :: (looks ++ reads ++ after) ∧
    (meet before).sendings.length = k ∧
    s.targets = (meet (before ++ .ask (.send now room s.event s.payload) :: looks)).memory.addressees
      (meet (before ++ .ask (.send now room s.event s.payload) :: (looks ++ reads))).memory room
  /-- Nobody is called for a sending that is not for it, or before the delivery to it begins. -/
  uncalled : ∀ k s client, w.sendings[k]? = some s → client ∉ s.targets ∨ client ∈ s.due → w.callsTo k client = []
  /-- When it begins, the handler that the client is connected with is called, once, if there is one. -/
  called : ∀ k s client, w.sendings[k]? = some s → client ∈ s.targets → client ∉ s.due → ∃ before after,
    moves = before ++ .call k client :: after ∧ (∃ s', (meet before).sendings[k]? = some s' ∧ client ∈ s'.due) ∧
    w.callsTo k client = (meet before).callOf k client s.event s.payload
  /-- Every call belongs to a sending. -/
  owned : ∀ c ∈ w.calls, ∃ s, w.sendings[c.sending]? = some s
  /-- The counts are those of all sendings. -/
  counted : w.memory.deliveries = (w.sendings.map Sending.completed).sum ∧
    w.memory.handlerErrors = (w.sendings.map Sending.failed).sum

/-- What holds after the moves of a run. -/
structure Lawful (moves : List Move) (w : Hall) : Prop extends Recorded moves w where
  /-- Whoever is not connected when it is to join is refused, and nothing changes. -/
  strangers : ∀ client room, w.ops none = some (.check client room) → w.memory.clients.has client = false →
    w.memory.view.join? client room = none ∧ w.step (.goOn none) = w.put none none
  /-- A sending whose deliveries have all ended comes to the number of handlers that completed; the others failed. -/
  results : ∀ k s n, w.sendings[k]? = some s → s.result? = some n →
    n = s.completed ∧ w.calls.countP (·.sending = k) = s.completed + s.failed
  /-- To send with every operation and every handler running to its end at once is one way to go on. -/
  atOnce : ∀ now room event payload, w.Quiet → ∃ more s calls,
    w.Reaches (.ask (.send now room event payload) :: more) (w.memory.view.send now room event payload).1
      (w.sendings ++ [s]) (w.calls ++ calls) ∧
    s.result? = some (completed (w.memory.view.send now room event payload).2.1).length ∧
    calls.map Call.made = (w.memory.view.send now room event payload).2.1

/-! ## The invariant -/

/-- Where the main thread stands when it sends, and that no other thread does. -/
structure Pending (moves : List Move) (w : Hall) : Prop where
  aiming : ∀ now room event payload, w.ops none = some (.aim now room event payload) → ∃ before more,
    moves = before ++ .ask (.send now room event payload) :: more ∧ (meet before).sendings.length = w.sendings.length
  reading : ∀ set event payload, w.ops none = some (.read set event payload) → ∃ before now room looks reads,
    moves = before ++ .ask (.send now (some room) event payload) :: (looks ++ reads) ∧
    (meet before).sendings.length = w.sendings.length ∧
    (meet (before ++ .ask (.send now (some room) event payload) :: looks)).memory.table.get? room = some set
  aside : ∀ t op, w.ops (some t) = some op → op.isSending = false

/-- What is kept along a run. -/
structure Sound (moves : List Move) (w : Hall) : Prop extends Recorded moves w where
  wellFormed : w.memory.WellFormed
  pending : Pending moves w
  shared : ∀ (k : Nat) s, w.sendings[k]? = some s → s.Shared
  calls : ∀ k s, w.sendings[k]? = some s → w.calls.countP (·.sending = k) = s.calls

theorem sound_start : Sound [] {} where
  wellFormed := .empty
  pending := ⟨nofun, nofun, nofun⟩
  shared := nofun
  addressed := nofun
  uncalled := nofun
  called := nofun
  owned := nofun
  calls := nofun
  counted := ⟨rfl, rfl⟩

namespace Pending

variable {moves : List Move} {w w' : Hall}

/-- The main thread stays where it is, or is at the end of what it did. -/
theorem later (h : Pending moves w) (m : Move) (hmain : w'.ops none = w.ops none ∨ w'.ops none = none)
    (haside : ∀ t op, w'.ops (some t) = some op → op.isSending = false) (hlength : w'.sendings.length = w.sendings.length) :
    Pending (moves ++ [m]) w' where
  aiming now room event payload hop := by
    obtain hsame | hnone := hmain
    · obtain ⟨before, more, rfl, hlen⟩ := h.aiming now room event payload (hsame ▸ hop)
      exact ⟨before, more ++ [m], by simp, hlen.trans hlength.symm⟩
    · cases hnone.symm.trans hop
  reading set event payload hop := by
    obtain hsame | hnone := hmain
    · obtain ⟨before, now, room, looks, reads, rfl, hlen, hget⟩ := h.reading set event payload (hsame ▸ hop)
      exact ⟨before, now, room, looks, reads ++ [m], by simp, hlen.trans hlength.symm, hget⟩
    · cases hnone.symm.trans hop
  aside := haside

/-- The main thread is not about to send. -/
theorem of_not_isSending (moves : List Move) (hmain : ∀ op, w.ops none = some op → op.isSending = false)
    (haside : ∀ t op, w.ops (some t) = some op → op.isSending = false) : Pending moves w where
  aiming now room event payload hop := by cases hmain _ hop
  reading set event payload hop := by cases hmain _ hop
  aside := haside

/-- The main thread has sent, and is in no operation any more. -/
theorem sent (h : Pending moves w) (m : Move) (hops : w'.ops = (w.put none none).ops) : Pending (moves ++ [m]) w' := by
  refine .of_not_isSending _ (fun op hop => ?_) fun t op hop => ?_
  · rw [hops, Hall.put_self] at hop
    cases hop
  · rw [hops, Hall.put_aside] at hop
    exact h.aside t op hop

end Pending

namespace Sound

variable {moves : List Move} {w w' : Hall} {k : Nat} {s : Sending} {client : String}

/-- A move with which no event is sent and nobody is called. -/
theorem idle (h : Sound moves w) (m : Move) (hsendings : w'.sendings = w.sendings) (hcalls : w'.calls = w.calls)
    (hwell : w'.memory.WellFormed) (hpending : Pending (moves ++ [m]) w')
    (hcounts : w'.memory.deliveries = w.memory.deliveries ∧ w'.memory.handlerErrors = w.memory.handlerErrors) :
    Sound (moves ++ [m]) w' where
  wellFormed := hwell
  pending := hpending
  shared k s hk := h.shared k s (hsendings ▸ hk)
  addressed k s hk := by
    obtain ⟨before, now, room, looks, reads, after, rfl, hrest⟩ := h.addressed k s (hsendings ▸ hk)
    exact ⟨before, now, room, looks, reads, after ++ [m], by simp, hrest⟩
  uncalled k s client hk := by
    rw [Hall.callsTo, hcalls]
    exact h.uncalled k s client (hsendings ▸ hk)
  called k s client hk ht hdue := by
    obtain ⟨before, after, rfl, hdue', hcalled⟩ := h.called k s client (hsendings ▸ hk) ht hdue
    refine ⟨before, after ++ [m], by simp, hdue', ?_⟩
    rw [Hall.callsTo, hcalls]
    exact hcalled
  owned c hc := by
    rw [hsendings]
    exact h.owned c (hcalls ▸ hc)
  calls k s hk := by
    rw [hcalls]
    exact h.calls k s (hsendings ▸ hk)
  counted := by
    rw [hsendings]
    exact ⟨hcounts.1.trans h.counted.1, hcounts.2.trans h.counted.2⟩

theorem nothing (h : Sound moves w) (m : Move) : Sound (moves ++ [m]) w :=
  h.idle m rfl rfl h.wellFormed (h.pending.later m (.inl rfl) h.pending.aside rfl) ⟨rfl, rfl⟩

/-- No handler has been called for a sending that has not begun. -/
theorem not_mem_calls (h : Sound moves w) (hk : w.sendings.length ≤ k) : ∀ c ∈ w.calls, c.sending ≠ k := by
  rintro c hc rfl
  obtain ⟨s, hs⟩ := h.owned c hc
  rw [List.getElem?_eq_none hk] at hs
  cases hs

/-- A thread has come to the point at which an event is sent. -/
theorem send (h : Sound moves w) (m : Move) {s : Sending} (hfresh : s = .fresh s.event s.payload s.targets)
    (hsendings : w'.sendings = w.sendings ++ [s]) (hcalls : w'.calls = w.calls) (hwell : w'.memory.WellFormed)
    (hpending : Pending (moves ++ [m]) w')
    (hcounts : w'.memory.deliveries = w.memory.deliveries ∧ w'.memory.handlerErrors = w.memory.handlerErrors)
    (hnodup : s.targets.Nodup) (haddressed : ∃ before now room looks reads,
      moves = before ++ .ask (.send now room s.event s.payload) :: (looks ++ reads) ∧
      (meet before).sendings.length = w.sendings.length ∧
      s.targets = (meet (before ++ .ask (.send now room s.event s.payload) :: looks)).memory.addressees
        (meet (before ++ .ask (.send now room s.event s.payload) :: (looks ++ reads))).memory room) :
    Sound (moves ++ [m]) w' := by
  have hlast : ∀ k x, w'.sendings[k]? = some x → w.sendings[k]? = some x ∨ k = w.sendings.length ∧ x = s :=
    fun k x hk => Hall.of_concat (hsendings ▸ hk)
  have hnew := fun c hc => h.not_mem_calls (Nat.le_refl _) c hc
  have hdue : s.due = s.targets := by rw [hfresh]; rfl
  have hcallsTo : ∀ k client, w'.callsTo k client = w.callsTo k client := fun k client => by rw [Hall.callsTo, hcalls]; rfl
  have hidle := h.nothing m
  refine ⟨⟨fun k x hk => ?_, fun k x client hk hout => ?_, fun k x client hk ht hout => ?_, fun c hc => ?_, ?_⟩, hwell, hpending,
    fun k x hk => ?_, fun k x hk => ?_⟩
  · rcases hlast k x hk with hk | ⟨rfl, rfl⟩
    · exact hidle.addressed k x hk
    · obtain ⟨before, now, room, looks, reads, rfl, hrest⟩ := haddressed
      exact ⟨before, now, room, looks, reads, [m], by simp, hrest⟩
  · rw [hcallsTo]
    rcases hlast k x hk with hk | ⟨rfl, rfl⟩
    · exact h.uncalled k x client hk hout
    · refine List.filter_eq_nil_iff.2 fun c hc => ?_
      simp [hnew c hc]
  · rw [hcallsTo]
    rcases hlast k x hk with hk | ⟨rfl, rfl⟩
    · exact hidle.called k x client hk ht hout
    · exact absurd (hdue ▸ ht) hout
  · obtain ⟨x, hx⟩ := h.owned c (hcalls ▸ hc)
    rw [hsendings]
    exact ⟨x, (List.getElem?_append_left (List.getElem?_eq_some_iff.1 hx).1).trans hx⟩
  · have hzero : s.completed = 0 ∧ s.failed = 0 := by rw [hfresh]; exact ⟨rfl, rfl⟩
    rw [hsendings, List.map_append, List.map_append, List.sum_append, List.sum_append, List.map_singleton, List.map_singleton,
      List.sum_singleton, List.sum_singleton, hzero.1, hzero.2]
    exact ⟨hcounts.1.trans h.counted.1, hcounts.2.trans h.counted.2⟩
  · rcases hlast k x hk with hk | ⟨rfl, rfl⟩
    · exact h.shared k x hk
    · refine ⟨hnodup, ?_⟩
      rw [hfresh]
      simp [Sending.fresh]
  · rw [hcalls]
    rcases hlast k x hk with hk | ⟨rfl, rfl⟩
    · exact h.calls k x hk
    · have hzero : x.calls = 0 := by rw [hfresh]; rfl
      rw [hzero]
      refine List.countP_eq_zero.2 fun c hc => ?_
      simp [hnew c hc]

/-- **A thread goes on**: what it does to rooms and clients is no delivery, and what the main thread sends is for those whom
it has looked up. -/
theorem goOn (h : Sound moves w) (hw : meet moves = w) (t : Thread) : Sound (moves ++ [.goOn t]) (w.goOn t) := by
  unfold Hall.goOn
  cases hop : w.ops t with
  | none => exact h.nothing _
  | some op =>
    rw [Option.elim_some]
    have hwell := h.wellFormed.step op
    have hcounts := w.memory.step_counts op
    have hmain : op.isSending = true → t = none := fun hs => by
      cases t with
      | none => rfl
      | some t => cases (h.pending.aside t op hop).symm.trans hs
    obtain ⟨hs, hno, hnext⟩ | ⟨now, event, payload, rfl, heq⟩ |
      ⟨now, room, event, payload, rfl, ⟨hget, heq⟩ | ⟨set, hget, heq⟩⟩ | ⟨set, event, payload, rfl, heq⟩ :=
      w.memory.step_cases op
    · have hnone : (w.memory.step op).2.sending? = none := by
        cases hp : (w.memory.step op).2 with
        | sends event payload targets => exact absurd hp (hno event payload targets)
        | goesOn | finished | refused | missing => rfl
      refine h.idle _ (by simp [hnone]) rfl hwell ?_ hcounts
      have haside : ∀ t' op', (w.put t (w.memory.step op).2.op?).ops (some t') = some op' → op'.isSending = false :=
        Hall.put_forall h.pending.aside fun _ => hnext
      cases t with
      | none =>
        refine .of_not_isSending _ (fun op' hop' => ?_) haside
        have hop'' : (w.memory.step op).2.op? = some op' := (Hall.put_self w none _).symm.trans hop'
        exact hnext op' hop''
      | some t => exact h.pending.later _ (.inl rfl) haside (by simp [hnone])
    all_goals obtain rfl := hmain rfl
    · obtain ⟨before, more, rfl, hlen⟩ := h.pending.aiming now none event payload hop
      refine h.send _ (s := .fresh event payload w.memory.clients.keys) rfl (by simp only [heq]; rfl) rfl hwell
        (h.pending.sent _ (by simp only [heq]; rfl)) hcounts h.wellFormed.clients ⟨before, now, none, more, [], ?_, hlen, ?_⟩
      · simp [Sending.fresh]
      · simp only [List.append_nil, Sending.fresh, Memory.addressees, hw]
    · obtain ⟨before, more, rfl, hlen⟩ := h.pending.aiming now (some room) event payload hop
      refine h.send _ (s := .fresh event payload []) rfl (by simp only [heq]; rfl) rfl hwell
        (h.pending.sent _ (by simp only [heq]; rfl)) hcounts List.nodup_nil ⟨before, now, some room, more, [], ?_, hlen, ?_⟩
      · simp [Sending.fresh]
      · simp only [List.append_nil, Sending.fresh, Memory.addressees, hw, hget, Option.elim_none]
    · obtain ⟨before, more, rfl, hlen⟩ := h.pending.aiming now (some room) event payload hop
      refine h.idle _ (by simp [heq, Progress.sending?]) rfl hwell
        ⟨fun _ _ _ _ hop' => ?_, fun set' event' payload' hop' => ?_, ?_⟩ hcounts
      · simp only [heq] at hop'
        cases (Hall.put_self w none _).symm.trans hop'
      · simp only [heq] at hop'
        cases (Hall.put_self w none _).symm.trans hop'
        refine ⟨before, now, room, more, [.goOn none], by simp, ?_, by rw [hw]; exact hget⟩
        rw [hlen, heq]
        exact congrArg List.length (List.append_nil _).symm
      · exact h.pending.aside
    · obtain ⟨before, now, room, looks, reads, rfl, hlen, hget⟩ := h.pending.reading set event payload hop
      refine h.send _ (s := .fresh event payload (w.memory.members set)) rfl (by simp only [heq]; rfl) rfl hwell
        (h.pending.sent _ (by simp only [heq]; rfl)) hcounts (h.wellFormed.members_nodup set)
        ⟨before, now, some room, looks, reads, rfl, hlen, ?_⟩
      simp only [Sending.fresh, Memory.addressees, hw, hget, Option.elim_some]

/-- The delivery to a client that is due begins. -/
theorem call (h : Sound moves w) (hw : meet moves = w) (hk : w.sendings[k]? = some s) (hdue : client ∈ s.due) :
    Sound (moves ++ [.call k client]) (w.call k client s) := by
  have hshared := h.shared k s hk
  have hidle := h.nothing (.call k client)
  obtain ⟨hcompleted, hfailed, hcalls⟩ := s.begin_counts client (w.memory.clients.get? client)
  refine ⟨⟨fun j x hj => ?_, fun j x c hj hout => ?_, fun j x c hj ht hc => ?_, fun c hc => ?_, ?_⟩, h.wellFormed,
    h.pending.later _ (.inl rfl) h.pending.aside List.length_set, fun j x hj => ?_, fun j x hj => ?_⟩
  · obtain ⟨rfl, rfl⟩ | ⟨-, hj⟩ := Hall.of_set hj
    · rw [s.begin_event, s.begin_payload, s.begin_targets]
      exact hidle.addressed j s hk
    · exact hidle.addressed j x hj
  · obtain ⟨rfl, rfl⟩ | ⟨hne, hj⟩ := Hall.of_set hj
    · rw [s.begin_targets, s.begin_due, hshared.due_nodup.mem_erase_iff] at hout
      have hne : c ≠ client := by
        rintro rfl
        rcases hout with hout | hout
        · exact hout (hshared.mem_targets hdue)
        · exact hout.1 rfl
      rw [Hall.callsTo_call_of_ne fun he => hne he.2]
      exact h.uncalled j s c hk (hout.imp_right And.right)
    · rw [Hall.callsTo_call_of_ne fun he => hne he.1]
      exact h.uncalled j x c hj hout
  · obtain ⟨rfl, rfl⟩ | ⟨hne, hj⟩ := Hall.of_set hj
    · rw [s.begin_targets] at ht
      rw [s.begin_due, hshared.due_nodup.mem_erase_iff] at hc
      rw [s.begin_event, s.begin_payload]
      by_cases he : c = client
      · subst he
        rw [Hall.callsTo_call (h.uncalled j s c hk (.inr hdue))]
        exact ⟨moves, [], rfl, ⟨s, by rw [hw]; exact hk, hdue⟩, by rw [hw]⟩
      · rw [Hall.callsTo_call_of_ne fun hjc => he hjc.2]
        exact hidle.called j s c hk ht fun hmem => hc ⟨he, hmem⟩
    · rw [Hall.callsTo_call_of_ne fun he => hne he.1]
      exact hidle.called j x c hj ht hc
  · rcases List.mem_append.1 hc with hc | hc
    · obtain ⟨x, hx⟩ := h.owned c hc
      exact Hall.exists_set hx k _
    · rw [(Hall.mem_callOf hc).1]
      exact Hall.exists_set hk k _
  · have hsum := fun f => Hall.sum_set f hk (s.begin client (w.memory.clients.get? client))
    have hc := hsum Sending.completed
    have hf := hsum Sending.failed
    rw [hcompleted] at hc
    rw [hfailed] at hf
    exact ⟨h.counted.1.trans (Nat.add_right_cancel hc).symm, h.counted.2.trans (Nat.add_right_cancel hf).symm⟩
  · obtain ⟨rfl, rfl⟩ | ⟨-, hj⟩ := Hall.of_set hj
    · exact hshared.begin hdue _
    · exact h.shared j x hj
  · rw [Hall.countP_call]
    obtain ⟨rfl, rfl⟩ | ⟨hne, hj⟩ := Hall.of_set hj
    · rw [if_pos rfl, hcalls, h.calls j s hk]
    · rw [if_neg hne, h.calls j x hj, Nat.add_zero]

theorem settle_counts (r : Rooms) (client event : String) (failure : Option String) :
    (r.settle client event failure).1.deliveries = r.deliveries + failure.isNone.toNat ∧
    (r.settle client event failure).1.handlerErrors = r.handlerErrors + failure.isSome.toNat := by
  cases failure <;> exact ⟨rfl, rfl⟩

/-- The handler of a client that was called has ended. -/
theorem finish (h : Sound moves w) (hk : w.sendings[k]? = some s) (hcalling : client ∈ s.calling)
    (failure : Option String) : Sound (moves ++ [.finish k client failure]) (w.finish k client failure s) := by
  obtain ⟨hcompleted, hfailed, hcalls⟩ := Sending.finish_counts hcalling failure
  have hidle := h.nothing (.finish k client failure)
  refine ⟨⟨fun j x hj => ?_, fun j x c hj hout => ?_, fun j x c hj ht hc => ?_, fun c hc => ?_, ?_⟩,
    h.wellFormed.recount _, h.pending.later _ (.inl rfl) h.pending.aside List.length_set, fun j x hj => ?_, fun j x hj => ?_⟩
  · obtain ⟨rfl, rfl⟩ | ⟨-, hj⟩ := Hall.of_set hj
    · exact hidle.addressed j s hk
    · exact hidle.addressed j x hj
  · obtain ⟨rfl, rfl⟩ | ⟨-, hj⟩ := Hall.of_set hj
    · exact h.uncalled j s c hk hout
    · exact h.uncalled j x c hj hout
  · obtain ⟨rfl, rfl⟩ | ⟨-, hj⟩ := Hall.of_set hj
    · exact hidle.called j s c hk ht hc
    · exact hidle.called j x c hj ht hc
  · obtain ⟨x, hx⟩ := h.owned c hc
    exact Hall.exists_set hx k _
  · have hsum := fun f => Hall.sum_set f hk (s.finish client failure)
    have hc := hsum Sending.completed
    have hf := hsum Sending.failed
    rw [hcompleted] at hc
    rw [hfailed] at hf
    obtain ⟨hd, he⟩ : w.memory.view.deliveries = _ ∧ w.memory.view.handlerErrors = _ := h.counted
    obtain ⟨hdeliveries, herrors⟩ := settle_counts w.memory.view client s.event failure
    refine ⟨?_, ?_⟩
    · show (w.memory.view.settle client s.event failure).1.deliveries = ((w.sendings.set k _).map Sending.completed).sum
      omega
    · show (w.memory.view.settle client s.event failure).1.handlerErrors = ((w.sendings.set k _).map Sending.failed).sum
      omega
  · obtain ⟨rfl, rfl⟩ | ⟨-, hj⟩ := Hall.of_set hj
    · exact (h.shared j s hk).finish hcalling failure
    · exact h.shared j x hj
  · obtain ⟨rfl, rfl⟩ | ⟨-, hj⟩ := Hall.of_set hj
    · rw [hcalls]
      exact h.calls j s hk
    · exact h.calls j x hj

theorem step (h : Sound moves w) (hw : meet moves = w) (m : Move) : Sound (moves ++ [m]) (w.step m) := by
  have hwell := h.wellFormed
  cases m with
  | connect client handler =>
    rw [Hall.step]
    split
    · exact h.idle _ rfl rfl (hwell.connect client handler) (h.pending.later _ (.inl rfl) h.pending.aside rfl) ⟨rfl, rfl⟩
    · exact h.nothing _
  | ask r =>
    rw [Hall.step]
    split
    · refine h.idle _ rfl rfl hwell ⟨fun now room event payload hop => ?_, fun set event payload hop => ?_, ?_⟩ ⟨rfl, rfl⟩
      · rw [Hall.put_self] at hop
        cases r <;> cases hop
        exact ⟨moves, [], rfl, by rw [hw]; rfl⟩
      · rw [Hall.put_self] at hop
        cases r <;> cases hop
      · exact h.pending.aside
    · exact h.nothing _
  | drop k client other =>
    rw [Hall.step]
    split
    · refine h.idle _ rfl rfl hwell (h.pending.later _ (.inl rfl) ?_ rfl) ⟨rfl, rfl⟩
      exact Hall.put_forall h.pending.aside fun _ o ho => by cases ho; rfl
    · exact h.nothing _
  | goOn t => exact h.goOn hw t
  | call k client =>
    rw [Hall.step]
    cases hk : w.sendings[k]? with
    | none => exact h.nothing _
    | some s =>
      rw [Option.elim_some]
      split
      · exact h.call hw hk (And.right ‹_›)
      · exact h.nothing _
  | finish k client failure =>
    rw [Hall.step]
    cases hk : w.sendings[k]? with
    | none => exact h.nothing _
    | some s =>
      rw [Option.elim_some]
      split
      · exact h.finish hk (And.right (And.right ‹_›)) failure
      · exact h.nothing _

end Sound

theorem meet_sound (moves : List Move) : Sound moves (meet moves) := by
  induction moves using List.reverseRecOn with
  | nil => exact sound_start
  | append_singleton moves m ih =>
    rw [meet_concat]
    exact ih.step rfl m

/-! ## Everything at once -/

namespace Hall

variable {w : Hall} {s : Sending} {client : String}

theorem after_append (w : Hall) (moves more : List Move) : w.after (moves ++ more) = (w.after moves).after more :=
  List.foldl_append

/-- A thread does all that is left of its operation. -/
theorem after_runs {m m' : Memory} {op : Op} {p : Progress} (h : Runs m op m' p) : ∀ {w : Hall} {t : Thread},
    w.memory = m → w.ops t = some op → ∃ n, w.after (List.replicate n (.goOn t)) =
      { w.put t none with memory := m', sendings := w.sendings ++ p.sending?.toList } := by
  induction h with
  | ends hstep hp =>
    rintro w t rfl hop
    exact ⟨1, goOn_ends hop hstep hp⟩
  | @goesOn m m₁ m' op op₁ p hstep _ ih =>
    rintro w t rfl hop
    obtain ⟨n, hn⟩ := ih (w := { w.put t (some op₁) with memory := m₁ }) rfl (put_self w t _)
    refine ⟨n + 1, ?_⟩
    rw [List.replicate_succ, after, List.foldl_cons, ← after]
    show (w.goOn t).after _ = _
    rw [goOn_goesOn hop hstep, hn, put_memory, put_put]
    rfl

/-- A thread begins an operation and comes to its end. -/
theorem after_begin {m' : Memory} {b : Move} {t : Thread} {op : Op} {p : Progress} (hidle : w.ops t = none)
    (hbegin : w.step b = w.put t (some op)) (hruns : Runs w.memory op m' p) : ∃ n,
      w.after (b :: List.replicate n (.goOn t)) = { w with memory := m', sendings := w.sendings ++ p.sending?.toList } := by
  obtain ⟨n, hn⟩ := after_runs hruns (w := w.put t (some op)) rfl (put_self w t _)
  refine ⟨n, ?_⟩
  rw [after, List.foldl_cons, ← after, hbegin, hn, put_put, put_none hidle]
  rfl

/-- A client is disconnected at once. -/
theorem after_pop {b : Move} {t : Thread} {client : String} (hwell : w.memory.WellFormed) (hidle : w.ops t = none)
    (hbegin : w.step b = w.put t (some (.pop client))) : ∃ n m', m'.WellFormed ∧
      m'.view = (w.memory.view.disconnect client).1 ∧ w.after (b :: List.replicate n (.goOn t)) = { w with memory := m' } := by
  obtain ⟨m', hruns, hwell', hview⟩ := runs_disconnect hwell client
  obtain ⟨n, hn⟩ := after_begin hidle hbegin hruns
  refine ⟨n, m', hwell', hview, hn.trans ?_⟩
  exact congrArg (fun ss => ({ w with memory := m', sendings := ss } : Hall)) (List.append_nil _)

/-- Some clients are disconnected, one after the other, by whoever may do that. -/
theorem after_drops (drops : List String) : ∀ {w : Hall}, w.Quiet → w.memory.WellFormed →
    (∀ d ∈ drops, ∀ m, ∃ b t, ({ w with memory := m } : Hall).step b =
      ({ w with memory := m } : Hall).put t (some (.pop d))) →
    ∃ more m', w.after more = { w with memory := m' } ∧ m'.WellFormed ∧
      m'.view = (w.memory.view.disconnectAll drops).1 := by
  induction drops with
  | nil => exact fun _ hwell _ => ⟨[], _, rfl, hwell, rfl⟩
  | cons d drops ih =>
    intro w hquiet hwell hbegin
    obtain ⟨b, t, hb⟩ := hbegin d List.mem_cons_self w.memory
    obtain ⟨n, m₁, hwell₁, hview₁, hn⟩ := after_pop hwell (hquiet t) hb
    obtain ⟨more, m', hmore, hwell', hview'⟩ := ih (w := { w with memory := m₁ }) hquiet hwell₁ fun d' hd' =>
      hbegin d' (List.mem_cons_of_mem _ hd')
    refine ⟨b :: List.replicate n (.goOn t) ++ more, m', ?_, hwell', ?_⟩
    · rw [after_append, hn, hmore]
    · rw [hview']
      show (m₁.view.disconnectAll drops).1 = _
      rw [hview₁]
      rfl

/-- The last sending goes on with a client that is due. -/
theorem step_call (hquiet : w.Quiet) {ss : List Sending} (hss : w.sendings = ss ++ [s]) (hdue : client ∈ s.due) :
    w.step (.call ss.length client) = { w with
      sendings := ss ++ [s.begin client (w.memory.clients.get? client)]
      calls := w.calls ++ w.callOf ss.length client s.event s.payload } := by
  simp [step, hss, hdue, call, idle, hquiet none]

theorem step_finish (hquiet : w.Quiet) {ss : List Sending} (hss : w.sendings = ss ++ [s]) (hcalling : client ∈ s.calling)
    (failure : Option String) : w.step (.finish ss.length client failure) = { w with
      memory := { w.memory with toTally := (w.memory.view.settle client s.event failure).1.toTally }
      sendings := ss ++ [s.finish client failure] } := by
  simp [step, hss, hcalling, finish, idle, hquiet none, hquiet (some (ss.length, client))]

/-- A handler in a thread of its own, which has been called, begins to disconnect a client. -/
theorem step_drop {k : Nat} (hidle : w.ops (some (k, client)) = none) (hk : w.sendings[k]? = some s)
    (hcalling : client ∈ s.calling) {c : Call} (hc : c ∈ w.calls) (hsending : c.sending = k) (hclient : c.client = client)
    (hthreaded : c.handler.threaded = true) {d : String} (hd : d ∈ c.handler.drops) :
    w.step (.drop k client d) = w.put (some (k, client)) (some (.pop d)) := by
  refine if_pos ?_
  have hmine : w.calls.any (fun c => decide (c.sending = k) && decide (c.client = client) && c.handler.threaded &&
      c.handler.drops.contains d) = true := List.any_eq_true.2 ⟨c, hc, by simp [hsending, hclient, hthreaded, hd]⟩
  rw [mayDrop, hmine, hk, idle, hidle]
  simp [hcalling]

/-- A handler that has been called disconnects a client, in the main thread or in its own. -/
theorem begin_drop (hquiet : w.Quiet) {k : Nat} (hk : w.sendings[k]? = some s) (hcalling : client ∈ s.calling) {c : Call}
    (hc : c ∈ w.calls) (hsending : c.sending = k) (hclient : c.client = client) {d : String} (hd : d ∈ c.handler.drops) :
    ∃ b t, w.step b = w.put t (some (.pop d)) := by
  cases hthreaded : c.handler.threaded with
  | false => exact ⟨.ask (.disconnect d), none, if_pos (by rw [idle, hquiet none]; rfl)⟩
  | true => exact ⟨_, _, step_drop (hquiet _) hk hcalling hc hsending hclient hthreaded hd⟩

/-- A delivery to a client that is due, with its handler running to its end at once. -/
theorem deliver_after (hquiet : w.Quiet) (hwell : w.memory.WellFormed) {ss : List Sending} (hss : w.sendings = ss ++ [s])
    (hdue : client ∈ s.due) (hcalling : s.calling = []) : ∃ more answer calls,
      Reaches w more (w.memory.view.deliver client s.event s.payload).1
        (ss ++ [{ s with due := s.due.erase client, answers := s.answers ++ [(client, answer)] }]) (w.calls ++ calls) ∧
      answer.isCompleted.toNat = (Rooms.completed (w.memory.view.deliver client s.event s.payload).2.1).length ∧
      calls.map Call.made = (w.memory.view.deliver client s.event s.payload).2.1 := by
  have hcall := step_call hquiet hss hdue
  have hview : w.memory.view.clients.get? client = w.memory.clients.get? client := rfl
  unfold Rooms.deliver
  rw [hview]
  cases hget : w.memory.clients.get? client with
  | none =>
    rw [callOf, hget] at hcall
    refine ⟨[.call ss.length client], .absent, [], ?_, rfl, rfl⟩
    constructor <;> rw [after, List.foldl_cons, List.foldl_nil, hcall]
    · exact hquiet
    · exact hwell
    · rfl
    · rfl
  | some handler =>
    rw [callOf, hget] at hcall
    let c : Call := ⟨ss.length, client, handler, s.event, s.payload⟩
    have hcalled : client ∈ (s.begin client (some handler)).calling :=
      List.mem_append_right _ (List.mem_singleton_self client)
    let called : Hall := { w with sendings := ss ++ [s.begin client (some handler)], calls := w.calls ++ [c] }
    obtain ⟨more, m', hmore, hwell', hview'⟩ := after_drops handler.drops (w := called) hquiet hwell fun d hd m =>
      begin_drop (w := { called with memory := m }) (k := ss.length) hquiet (by simp [called]) hcalled (c := c)
        (List.mem_append_right _ (List.mem_singleton_self c)) rfl rfl hd
    have hfinish := step_finish (w := { called with memory := m' }) hquiet rfl hcalled handler.failure
    let moves := .call ss.length client :: (more ++ [.finish ss.length client handler.failure])
    have hall : w.after moves = ({ called with memory := m' } : Hall).step (.finish ss.length client handler.failure) := by
      rw [after, List.foldl_cons, hcall, ← after, after_append, ← hmore]
      rfl
    have hsettle : (m'.view.settle client s.event handler.failure).1 =
        { m'.view with toTally := (m'.view.settle client s.event handler.failure).1.toTally } := by
      cases handler.failure <;> rfl
    refine ⟨moves, .ofFailure handler.failure, [c], ⟨?_, ?_, ?_, ?_, ?_⟩, ?_, rfl⟩
    · rw [hall, hfinish]
      exact hquiet
    · rw [hall, hfinish]
      exact hwell'.recount _
    · rw [hall, hfinish]
      show ({ m'.view with toTally := (m'.view.settle client s.event handler.failure).1.toTally } : Rooms) = _
      rw [← hsettle, hview']
    · rw [hall, hfinish]
      simp [Sending.begin, Sending.finish, hcalling]
    · rw [hall, hfinish]
    · cases hfailure : handler.failure <;> simp [Rooms.completed, Answer.ofFailure, Answer.isCompleted, hfailure]

/-- Deliveries to all clients that are due, one after the other. -/
theorem deliverAll_after {ss : List Sending} (due : List String) : ∀ {w : Hall} {s : Sending}, w.Quiet →
    w.memory.WellFormed → w.sendings = ss ++ [s] → s.due = due → s.calling = [] → ∃ more answers calls,
      Reaches w more (w.memory.view.deliverAll s.event s.payload due).1
        (ss ++ [{ s with due := [], answers := s.answers ++ answers }]) (w.calls ++ calls) ∧
      answers.countP (·.2.isCompleted) = (Rooms.completed (w.memory.view.deliverAll s.event s.payload due).2.1).length ∧
      calls.map Call.made = (w.memory.view.deliverAll s.event s.payload due).2.1 := by
  induction due with
  | nil =>
    intro w s hquiet hwell hss hdue _
    refine ⟨[], [], [], ⟨hquiet, hwell, rfl, ?_, (List.append_nil _).symm⟩, rfl, rfl⟩
    rw [List.append_nil, ← hdue]
    exact hss
  | cons client due ih =>
    intro w s hquiet hwell hss hdue hcalling
    obtain ⟨first, answer, calls, hfirst, hanswer, hcalls⟩ :=
      deliver_after hquiet hwell hss (hdue ▸ List.mem_cons_self : client ∈ s.due) hcalling
    have hdue' : s.due.erase client = due := by rw [hdue, List.erase_cons_head]
    obtain ⟨second, answers, calls', hsecond, hanswers, hcalls'⟩ :=
      ih hfirst.quiet hfirst.wellFormed hfirst.sendings hdue' hcalling
    rw [hfirst.view] at hsecond hanswers hcalls'
    refine ⟨first ++ second, (client, answer) :: answers, calls ++ calls', ?_, ?_, ?_⟩
    · obtain ⟨hquiet', hwell', hview', hss', hcs'⟩ := hsecond
      rw [← after_append] at hquiet' hwell' hview' hss' hcs'
      refine ⟨hquiet', hwell', hview', ?_, ?_⟩
      · simpa using hss'
      · rw [hcs', hfirst.calls, List.append_assoc]
    · simp only [Rooms.deliverAll, Rooms.completed, List.filter_append, List.length_append, List.countP_cons]
        at hanswer hanswers ⊢
      rw [hanswers, ← hanswer, Nat.add_comm]
      cases answer.isCompleted <;> rfl
    · rw [List.map_append, hcalls, hcalls']
      rfl

/-- Sending with every operation and every handler running to its end at once. -/
theorem send_after (hwell : w.memory.WellFormed) (now : Nat) (room : Option String) (event : String) (payload : Json)
    (hquiet : w.Quiet) : ∃ more s calls,
      w.Reaches (.ask (.send now room event payload) :: more) (w.memory.view.send now room event payload).1
        (w.sendings ++ [s]) (w.calls ++ calls) ∧
      s.result? = some (Rooms.completed (w.memory.view.send now room event payload).2.1).length ∧
      calls.map Call.made = (w.memory.view.send now room event payload).2.1 := by
  have hsend : w.memory.view.send now room event payload = (w.memory.view.address now room).1.deliverAll event payload
      (w.memory.view.address now room).2 := by cases room <;> rfl
  obtain ⟨m', hruns, hwell', hview'⟩ := runs_send hwell now room event payload
  obtain ⟨n, hsteps⟩ := after_begin (hquiet none) (b := .ask (.send now room event payload))
    (if_pos (by rw [idle, hquiet none]; rfl)) hruns
  let steps : List Move := List.replicate n (.goOn none)
  let sent : Hall := { w with memory := m', sendings := w.sendings ++ [.fresh event payload (w.memory.view.address now room).2] }
  have hquietSent : sent.Quiet := hquiet
  have hsendings : sent.sendings = w.sendings ++ [.fresh event payload (w.memory.view.address now room).2] := rfl
  obtain ⟨more, answers, calls, hmore, hanswers, hcalls⟩ :=
    deliverAll_after (w.memory.view.address now room).2 hquietSent hwell' hsendings rfl rfl
  have hsent : sent.memory.view = (w.memory.view.address now room).1 := hview'
  rw [hsent] at hmore hanswers hcalls
  rw [hsend]
  let ended : Sending :=
    { Sending.fresh event payload (w.memory.view.address now room).2 with due := [], answers := [] ++ answers }
  refine ⟨steps ++ more, ended, calls, ?_, (if_pos ⟨rfl, rfl⟩).trans (congrArg some hanswers), hcalls⟩
  have hall : w.after (.ask (.send now room event payload) :: (steps ++ more)) = sent.after more := by
    rw [← List.cons_append, after_append, hsteps]
    rfl
  obtain ⟨hq, hwf, hv, hs, hc⟩ := hmore
  rw [← hall] at hq hwf hv hs hc
  exact ⟨hq, hwf, hv, hs, hc⟩

end Hall

/-! ## The law of a run -/

/-- **Every run keeps the law of deliveries**, whatever clients, handlers and their threads do and in whatever order
deliveries begin and end. -/
theorem Sound.lawful {moves : List Move} {w : Hall} (h : Sound moves w) : Lawful moves w where
  toRecorded := h.toRecorded
  strangers client room hop hout := by
    refine ⟨?_, ?_⟩
    · rw [join?, if_neg]
      exact Bool.eq_false_iff.1 hout
    · show w.goOn none = _
      rw [Hall.goOn, hop, Option.elim_some, Memory.step, if_neg (Bool.eq_false_iff.1 hout)]
      exact congrArg (fun ss => ({ w.put none none with sendings := ss } : Hall)) (List.append_nil _)
  results k s n hk hn := by
    rw [Sending.result?] at hn
    split at hn
    · rename_i hover
      cases hn
      refine ⟨rfl, (h.calls k s hk).trans ?_⟩
      rw [Sending.calls, hover.2, List.length_nil, Nat.zero_add]
    · cases hn
  atOnce := Hall.send_after h.wellFormed

end PoolFeed.Rooms
