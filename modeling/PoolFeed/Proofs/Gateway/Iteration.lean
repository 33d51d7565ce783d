import PoolFeed.Gateway.Subscription
import PoolFeed.Proofs.Wire.Updates

/-!
# Iterating over a subscription

| here | there |
| --- | --- |
| `Move` | an item that `GeyserSubscription.__aiter__` reads, a `cancel`, or a `ping` |
| `Ends` | "iteration ends when the server closes the stream and raises GeyserSubscriptionError on a transport error" |

Who iterates over a subscription takes its items one by one until it ends. Between two items, or while one is waited
for, the subscription may be cancelled and pings may be written into it. To collect what a subscription has is to iterate
with nothing in between (`collect_eq_run`). `iteration_lossless` says that the transactions which are handed over are those
of the updates that were read, in order, whatever the updates hold, and which ends are quiet.
-/

namespace PoolFeed

/-- The update of an item; every other item ends the iteration. -/
def StreamItem.update? : StreamItem → Option Wire.StreamUpdate
  | .update u => some u
  | .unreadable | .fault _ | .ended => none

/-- The transaction that the readers get from an update. -/
def Wire.StreamUpdate.transaction? : Wire.StreamUpdate → Option Transaction
  | .transaction u => some u.toTransaction
  | .ping | .pong _ | .other => none

namespace Subscription

/-! ## Moves -/

inductive Move where
  /-- The next item comes, if it is still waited for. -/
  | read (item : StreamItem)
  | cancel
  | ping (id : Int) (failure : Option CallFault)

/-- An iteration so far. -/
structure Iteration where
  sub : Subscription := {}
  handed : List Transaction := []
  /-- How it has ended, if it has. -/
  outcome : Option (Except GatewayError Unit) := none
  wire : List WireCall := []
  log : List Log.Entry := []

namespace Iteration

def take (i : Iteration) (item : StreamItem) : Iteration :=
  let (reading, sub, log) := i.sub.read item
  let i := { i with sub := sub, log := i.log ++ log }
  match reading with
  | .transaction t => { i with handed := i.handed ++ [t] }
  | .nothing => i
  | .ended => { i with outcome := some (.ok ()) }
  | .failed e => { i with outcome := some (.error e) }

def step (i : Iteration) : Move → Iteration
  | .read item => if i.outcome.isSome then i else i.take item
  | .cancel => { i with sub := i.sub.cancel.1, wire := i.wire ++ i.sub.cancel.2 }
  | .ping id failure =>
    let (sub, exchange) := i.sub.ping id failure
    { i with sub := sub, wire := i.wire ++ exchange.wire, log := i.log ++ exchange.log }

def run (i : Iteration) (moves : List Move) : Iteration := moves.foldl step i

end Iteration

/-! ## What is to be expected -/

/-- The updates that are read, until another item comes. -/
def updatesRead : List Move → List Wire.StreamUpdate
  | [] => []
  | .read (.update u) :: rest => u :: updatesRead rest
  | .read _ :: _ => []
  | .cancel :: rest | .ping _ _ :: rest => updatesRead rest

/-- Only updates have come. -/
def Flows (moves : List Move) : Prop := ∀ item, Move.read item ∈ moves → item.update?.isSome

/-- How an item ends an iteration whose call was cancelled here, or was not. -/
inductive Ends (cancelled : Prop) : StreamItem → Except GatewayError Unit → Prop
  | closed : Ends cancelled .ended (.ok ())
  | cancelled (details : Option String) : cancelled → Ends cancelled (.fault (.status "CANCELLED" details)) (.ok ())
  | broken (code : String) (details : Option String) : ¬ (cancelled ∧ code = "CANCELLED") →
    Ends cancelled (.fault (.status code details)) (.error (.streamFailed (.status code details)))
  | misused (text : String) : Ends cancelled (.fault (.usage text)) (.error (.misused text))
  | unreadable : Ends cancelled .unreadable (.error .unreadable)

/-- An iteration has handed over all that has come, and ends as it should. -/
structure Lossless (moves : List Move) (i : Iteration) : Prop where
  handed : i.handed = (updatesRead moves).filterMap Wire.StreamUpdate.transaction?
  updates : i.sub.updates = (updatesRead moves).length
  transactions : i.sub.transactions = i.handed.length
  running : Flows moves → i.outcome = none
  ended : ∀ before item after, moves = before ++ .read item :: after → Flows before → item.update? = none →
    ∃ result, i.outcome = some result ∧ Ends (.cancel ∈ before) item result
  cancelled : i.sub.cancelled ↔ .cancel ∈ moves
  /-- The underlying call is cancelled once, if at all. -/
  once : i.wire.count .cancelCall = i.sub.cancelled.toNat

/-! ## One move -/

/-- A cancelled call is not cancelled again. -/
theorem cancel_eq (s : Subscription) :
    s.cancel = ({ s with cancelled := true }, if s.cancelled then [] else [.cancelCall]) := by
  unfold cancel
  split
  · rename_i hcancelled
    rw [← hcancelled]
  · rfl

/-- A ping, sent or not, is only counted. -/
theorem ping_eq (s : Subscription) (id : Int) (failure : Option CallFault) : ∃ pings exchange,
    s.ping id failure = ({ s with pings := pings }, exchange) ∧ exchange.wire.count .cancelCall = 0 := by
  unfold ping
  split
  · cases failure with
    | none => exact ⟨_, _, rfl, rfl⟩
    | some f => exact ⟨s.pings, _, rfl, rfl⟩
  · exact ⟨s.pings, _, rfl, rfl⟩

namespace Iteration

variable {i j k : Iteration} {us vs : List Wire.StreamUpdate} {moves before : List Move} {item : StreamItem}

theorem step_cancel (i : Iteration) : i.step .cancel =
    { i with
      sub := { i.sub with cancelled := true }
      wire := i.wire ++ if i.sub.cancelled then [] else [.cancelCall] } := by
  rw [step, cancel_eq]

theorem step_ping (i : Iteration) (id : Int) (failure : Option CallFault) : ∃ pings wire log,
    i.step (.ping id failure) =
      { i with sub := { i.sub with pings := pings }, wire := i.wire ++ wire, log := i.log ++ log } ∧
    wire.count .cancelCall = 0 := by
  obtain ⟨pings, exchange, hping, hwire⟩ := ping_eq i.sub id failure
  exact ⟨pings, exchange.wire, exchange.log, by rw [step, hping], hwire⟩

/-- Some updates have been read between two points of an iteration. -/
structure Reads (i : Iteration) (us : List Wire.StreamUpdate) (j : Iteration) : Prop where
  handed : j.handed = i.handed ++ us.filterMap Wire.StreamUpdate.transaction?
  updates : j.sub.updates = i.sub.updates + us.length
  transactions : j.sub.transactions = i.sub.transactions + (us.filterMap Wire.StreamUpdate.transaction?).length

theorem Reads.nothing (hhanded : j.handed = i.handed) (hupdates : j.sub.updates = i.sub.updates)
    (htransactions : j.sub.transactions = i.sub.transactions) : Reads i [] j :=
  ⟨by rw [hhanded, List.filterMap_nil, List.append_nil], hupdates, htransactions⟩

theorem Reads.trans (h : Reads i us j) (h' : Reads j vs k) : Reads i (us ++ vs) k where
  handed := by rw [h'.handed, h.handed, List.filterMap_append, List.append_assoc]
  updates := by rw [h'.updates, h.updates, List.length_append, Nat.add_assoc]
  transactions := by
    rw [h'.transactions, h.transactions, List.filterMap_append, List.length_append, Nat.add_assoc]

/-- What is done beside the reading leaves it where it is. -/
theorem step_aside (i : Iteration) {m : Move} (hm : ∀ item, m ≠ .read item) :
    Reads i [] (i.step m) ∧ (i.step m).outcome = i.outcome := by
  cases m with
  | read item => exact absurd rfl (hm item)
  | cancel =>
    rw [step_cancel]
    exact ⟨.nothing rfl rfl rfl, rfl⟩
  | ping id failure =>
    obtain ⟨pings, wire, log, hstep, -⟩ := i.step_ping id failure
    rw [hstep]
    exact ⟨.nothing rfl rfl rfl, rfl⟩

theorem step_read (h : i.outcome = none) (item : StreamItem) : i.step (.read item) = i.take item := by
  rw [step, h]
  rfl

theorem step_update (h : i.outcome = none) (u : Wire.StreamUpdate) :
    Reads i [u] (i.step (.read (.update u))) ∧ (i.step (.read (.update u))).outcome = none := by
  rw [step_read h]
  refine ⟨?_, ?_⟩
  · cases u <;> exact ⟨by simp [take, read, Wire.StreamUpdate.transaction?], rfl, rfl⟩
  · cases u <;> exact h

/-- Any other item is the end. -/
theorem take_ends (i : Iteration) (hitem : item.update? = none) : (i.take item).handed = i.handed ∧
    (i.take item).sub = i.sub ∧ ∃ result, (i.take item).outcome = some result ∧ Ends i.sub.cancelled item result := by
  cases item with
  | update u => cases hitem
  | unreadable => exact ⟨rfl, rfl, _, rfl, .unreadable⟩
  | ended => exact ⟨rfl, rfl, _, rfl, .closed⟩
  | fault f =>
    cases f with
    | usage text => exact ⟨rfl, rfl, _, rfl, .misused text⟩
    | status code details =>
      by_cases hquiet : i.sub.cancelled ∧ code = "CANCELLED"
      · obtain ⟨hcancelled, rfl⟩ := hquiet
        have htake : i.take (.fault (.status "CANCELLED" details)) =
            { i with outcome := some (.ok ()), log := i.log ++ [] } := by
          simp [take, read, broken, hcancelled]
        rw [htake]
        exact ⟨rfl, rfl, _, rfl, .cancelled details hcancelled⟩
      · have htake : i.take (.fault (.status code details)) =
            { i with outcome := some (.error (.streamFailed (.status code details))), log := i.log ++ [] } := by
          simp only [take, read, broken, Bool.and_eq_true, beq_iff_eq, if_neg hquiet]
        rw [htake]
        exact ⟨rfl, rfl, _, rfl, .broken code details hquiet⟩

theorem step_ends (h : i.outcome = none) (hitem : item.update? = none) : Reads i [] (i.step (.read item)) ∧
    ∃ result, (i.step (.read item)).outcome = some result ∧ Ends i.sub.cancelled item result := by
  rw [step_read h]
  obtain ⟨hhanded, hsub, hresult⟩ := i.take_ends hitem
  exact ⟨.nothing hhanded (congrArg _ hsub) (congrArg _ hsub), hresult⟩

/-- Nothing more is read after the end. -/
theorem step_ended (h : i.outcome.isSome) (m : Move) : Reads i [] (i.step m) ∧ (i.step m).outcome = i.outcome := by
  by_cases hm : ∃ item, m = .read item
  · obtain ⟨item, rfl⟩ := hm
    rw [step, if_pos h]
    exact ⟨.nothing rfl rfl rfl, rfl⟩
  · exact i.step_aside fun item hitem => hm ⟨item, hitem⟩

/-- What is read neither cancels the call nor goes over the wire. -/
theorem take_quiet (i : Iteration) (item : StreamItem) :
    (i.take item).sub.cancelled = i.sub.cancelled ∧ (i.take item).wire = i.wire := by
  cases item with
  | update u => cases u <;> exact ⟨rfl, rfl⟩
  | unreadable => exact ⟨rfl, rfl⟩
  | ended => exact ⟨rfl, rfl⟩
  | fault f =>
    refine ⟨congrArg _ (i.take_ends rfl).2.1, ?_⟩
    unfold take
    dsimp only
    split <;> rfl

/-- Whether the call is cancelled, and what of it went over the wire. -/
def Cancels (i : Iteration) (cancelled : Prop) : Prop :=
  (i.sub.cancelled ↔ cancelled) ∧ i.wire.count .cancelCall = i.sub.cancelled.toNat

theorem Cancels.step {cancelled : Prop} (h : i.Cancels cancelled) (m : Move) :
    (i.step m).Cancels (cancelled ∨ m = .cancel) := by
  obtain ⟨hcancelled, honce⟩ := h
  cases m with
  | read item =>
    have hquiet : (i.step (.read item)).sub.cancelled = i.sub.cancelled ∧ (i.step (.read item)).wire = i.wire := by
      simp only [Iteration.step]
      split
      · exact ⟨rfl, rfl⟩
      · exact i.take_quiet item
    simp only [Cancels, hquiet.1, hquiet.2, hcancelled, honce]
    simp
  | cancel =>
    rw [step_cancel]
    cases hbefore : i.sub.cancelled <;> simp_all [Cancels]
  | ping id failure =>
    obtain ⟨pings, wire, log, hstep, hwire⟩ := i.step_ping id failure
    simp [Cancels, hstep, hwire, hcancelled, honce]

/-! ## Any moves -/

theorem run_append (i : Iteration) (before after : List Move) : i.run (before ++ after) = (i.run before).run after :=
  List.foldl_append ..

theorem Cancels.run {cancelled : Prop} (h : i.Cancels cancelled) (moves : List Move) :
    (i.run moves).Cancels (cancelled ∨ .cancel ∈ moves) := by
  induction moves generalizing i cancelled with
  | nil => simpa [Iteration.run] using h
  | cons m moves ih =>
    have hrest := ih (h.step m)
    rwa [or_assoc, eq_comm, ← List.mem_cons] at hrest

theorem run_ended (h : i.outcome.isSome) (moves : List Move) :
    Reads i [] (i.run moves) ∧ (i.run moves).outcome = i.outcome := by
  induction moves generalizing i with
  | nil => exact ⟨.nothing rfl rfl rfl, rfl⟩
  | cons m moves ih =>
    obtain ⟨hstep, houtcome⟩ := step_ended h m
    obtain ⟨hrest, hlast⟩ := ih (houtcome ▸ h)
    exact ⟨hstep.trans hrest, hlast.trans houtcome⟩

theorem run_reads (h : i.outcome = none) (moves : List Move) : Reads i (updatesRead moves) (i.run moves) := by
  induction moves generalizing i with
  | nil => exact .nothing rfl rfl rfl
  | cons m moves ih =>
    cases m with
    | cancel =>
      obtain ⟨hstep, houtcome⟩ := i.step_aside (m := .cancel) nofun
      exact hstep.trans (ih (houtcome.trans h))
    | ping id failure =>
      obtain ⟨hstep, houtcome⟩ := i.step_aside (m := .ping id failure) nofun
      exact hstep.trans (ih (houtcome.trans h))
    | read item =>
      cases hitem : item.update? with
      | some u =>
        obtain rfl : item = .update u := by cases item <;> cases hitem; rfl
        obtain ⟨hstep, houtcome⟩ := step_update h u
        exact hstep.trans (ih houtcome)
      | none =>
        obtain ⟨hstep, result, houtcome, -⟩ := step_ends h hitem
        have hrest := (run_ended (i := i.step (.read item)) (by rw [houtcome]; rfl) moves).1
        have hread : updatesRead (.read item :: moves) = [] := by
          cases item with
          | update u => cases hitem
          | unreadable | fault _ | ended => rfl
        rw [hread]
        exact hstep.trans hrest

theorem run_flows (h : i.outcome = none) (hflows : Flows moves) : (i.run moves).outcome = none := by
  induction moves generalizing i with
  | nil => exact h
  | cons m moves ih =>
    have hrest : Flows moves := fun item hitem => hflows item (List.mem_cons_of_mem _ hitem)
    refine ih ?_ hrest
    by_cases hm : ∃ item, m = .read item
    · obtain ⟨item, rfl⟩ := hm
      obtain ⟨u, hu⟩ := Option.isSome_iff_exists.1 (hflows item List.mem_cons_self)
      obtain rfl : item = .update u := by cases item <;> cases hu; rfl
      exact (step_update h u).2
    · exact (i.step_aside fun item hitem => hm ⟨item, hitem⟩).2.trans h

/-- The first item that is no update decides how the iteration ends. -/
theorem run_ends {cancelled : Prop} (h : i.outcome = none) (hcancels : i.Cancels cancelled) (hflows : Flows before)
    (hitem : item.update? = none) (after : List Move) : ∃ result, (i.run (before ++ .read item :: after)).outcome = some result ∧
      Ends (cancelled ∨ .cancel ∈ before) item result := by
  obtain ⟨-, result, houtcome, hends⟩ := step_ends (run_flows h hflows) hitem
  rw [(hcancels.run before).1] at hends
  refine ⟨result, ?_, hends⟩
  rw [run_append]
  exact (run_ended (i := (i.run before).step (.read item)) (by rw [houtcome]; rfl) after).2.trans houtcome

end Iteration

theorem run_lossless (moves : List Move) : Lossless moves (Iteration.run {} moves) := by
  have hreads := Iteration.run_reads (i := {}) rfl moves
  have hstart : Iteration.Cancels {} False := ⟨by simp, rfl⟩
  have hcancels := hstart.run moves
  rw [false_or] at hcancels
  refine ⟨hreads.handed, ?_, ?_, Iteration.run_flows rfl, ?_, hcancels.1, hcancels.2⟩
  · rw [hreads.updates, Nat.zero_add]
  · rw [hreads.transactions, hreads.handed, Nat.zero_add, List.nil_append]
  · rintro before item after rfl hflows hitem
    have hends := Iteration.run_ends rfl hstart hflows hitem after
    rwa [false_or] at hends

/-! ## Whole subscriptions -/

/-- How a harvest has ended. -/
def Harvest.outcome (h : Harvest) : Except GatewayError Unit :=
  match h.error with
  | none => .ok ()
  | some e => .error e

theorem Iteration.run_items_ended {i : Iteration} (h : i.outcome.isSome) (items : List StreamItem) :
    i.run (items.map .read) = i := by
  induction items with
  | nil => rfl
  | cons item items ih =>
    have hstep : i.step (.read item) = i := if_pos h
    rw [List.map_cons, run, List.foldl_cons, hstep]
    exact ih

/-- To collect what a subscription has is to iterate over it with nothing in between. -/
theorem collect_eq_run (s : Subscription) (items : List StreamItem) (i : Iteration) (h : i.outcome = none)
    (hs : i.sub = s) : i.run ((items ++ [StreamItem.ended]).map .read) =
      { i with
        sub := (s.collect items).2
        handed := i.handed ++ (s.collect items).1.transactions
        outcome := some (s.collect items).1.outcome
        log := i.log ++ (s.collect items).1.log } := by
  induction items generalizing s i with
  | nil =>
    subst hs
    simp [Iteration.run, Iteration.step, h, Iteration.take, read, collect, Harvest.outcome]
  | cons item items ih =>
    rw [List.cons_append, List.map_cons, Iteration.run, List.foldl_cons, Iteration.step_read h]
    change (i.take item).run _ = _
    subst hs
    cases hitem : item.update? with
    | some u =>
      obtain rfl : item = .update u := by cases item <;> cases hitem; rfl
      rw [ih (i.take (.update u)).sub (i.take (.update u)) ?_ rfl]
      · cases u <;> simp [Iteration.take, read, collect, Harvest.outcome]
      · cases u <;> exact h
    | none =>
      obtain ⟨-, -, result, houtcome, -⟩ := i.take_ends hitem
      rw [Iteration.run_items_ended (by rw [houtcome]; rfl)]
      cases item with
      | update u => cases hitem
      | unreadable | ended => simp [Iteration.take, read, collect, Harvest.outcome]
      | fault f =>
        cases hbroken : i.sub.broken f with
        | transaction t | nothing => simp [Iteration.take, read, hbroken, h] at houtcome
        | ended | failed e => simp [Iteration.take, read, collect, Harvest.outcome, hbroken]

/-! ## Messages -/

/-- What the readers get from a message that tells of an update. -/
theorem transaction?_of_told {m part : Wire.Message} {u : Wire.Update} (hkind : Wire.lastKind m = some (4, part))
    (htold : u.Told part) (hu : u.Fits) : (Wire.StreamUpdate.ofMessage m).transaction? = some u.meant := by
  rw [Wire.StreamUpdate.ofMessage, hkind]
  change some (Wire.Update.ofMessage part).toTransaction = _
  rw [htold.read hu, Wire.Update.toTransaction_eq hu.distinct]

theorem transaction?_of_other {m : Wire.Message} (hkind : ∀ part, Wire.lastKind m ≠ some (4, part)) :
    (Wire.StreamUpdate.ofMessage m).transaction? = none := by
  unfold Wire.StreamUpdate.ofMessage
  split
  · rename_i part h
    exact absurd h (hkind part)
  · rfl
  · rfl
  · rfl

/-- **Iteration is lossless.** Whatever comes of the reads of a fresh subscription, and wherever it is cancelled and pinged
in between, the transactions handed over are those of the updates read, in order; the counters count both; no update
ends the iteration, and of the other items the first one does: quietly when the service closes the stream, or says that the
call is cancelled after it was cancelled here, and with an error otherwise. The call is cancelled at most once. What is
collected from a subscription is what such an iteration hands over. Every message can be read: one whose last kind is a
transaction comes to the transaction that it tells of, whichever of its parts are missing, and any other comes to none. -/
theorem iteration_lossless (moves : List Move) :
    Lossless moves (Iteration.run {} moves) ∧
    (∀ items, Iteration.run {} ((items ++ [StreamItem.ended]).map .read) =
      { sub := (collect {} items).2
        handed := (collect {} items).1.transactions
        outcome := some (collect {} items).1.outcome
        log := (collect {} items).1.log }) ∧
    (∀ (m part : Wire.Message) (u : Wire.Update), Wire.lastKind m = some (4, part) → u.Told part → u.Fits →
      (Wire.StreamUpdate.ofMessage m).transaction? = some u.meant) ∧
    ∀ m, (∀ part, Wire.lastKind m ≠ some (4, part)) → (Wire.StreamUpdate.ofMessage m).transaction? = none :=
  ⟨run_lossless moves, fun items => collect_eq_run {} items {} rfl rfl, fun _ _ _ => transaction?_of_told,
    fun _ => transaction?_of_other⟩

/-- A transaction of which only the slot is told. -/
example : (Wire.StreamUpdate.ofMessage [(1, .data []), (4, .message [(2, .number 77)])]).transaction? =
    some { signature := [], slot := 77 } := rfl

end Subscription

end PoolFeed
