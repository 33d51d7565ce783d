import PoolFeed.Proofs.Link.Custody

/-!
# A link that stops

Once a stop has begun the link remembers neither a client nor a subscription, and no task reads, keeps alive or
retries. What is under way still comes to its end: handshakes, closings and records. `Course.windsDown` says that
whatever such a task comes to, the link stays like that: it asks for no client, receives nothing, pings nobody, and if
its state changes at all it is down.
-/

namespace PoolFeed.Link

variable {ρ : Type} {l : Link ρ} {me : Nat}

/-! ## Stopping -/

/-- The parts that end with the stop. -/
def Part.works : Part → Bool
  | .retry | .reader | .keeper => true
  | _ => false

def Stage.works (s : Stage ρ) : Bool := s.part.works

/-- A stop has begun: nothing is left but what comes to its end. -/
structure Halted (l : Link ρ) : Prop where
  ordered : l.tasks.Ordered
  stopping : l.stopping = true
  client : l.client = none
  subscription : l.subscription = none
  keeper : l.keeper = none
  reader : l.reader = none
  retry : l.retry = none
  vacant : l.tasks.Vacant Stage.works none

theorem Halted.holdings (h : Halted l) : l.holdings = {} := by
  rw [Link.holdings, h.client, h.subscription]
  rfl

/-- The link works: it asks for a client, for the next record, or pings. -/
def Action.works : Action ρ → Bool
  | .create _ => true
  | .await _ _ (.next _) | .await _ _ (.pinged _) => true
  | _ => false

theorem Action.not_works_of_isPlain {a : Action ρ} (h : a.isPlain) : a.works = false := by
  cases a with
  | log | tell | wake | cancel | ended => rfl
  | create | await => cases h

/-! ## Turns -/

namespace Turn

/-- A turn that began with a halted link has done nothing but bring things to their end. -/
structure WindsDown (l : Link ρ) (h : Holdings) (t : Turn ρ) : Prop where
  leaves : t.Leaves h Halted
  clients : t.link.clients = l.clients
  received : t.link.received = l.received
  inflight : t.link.inflight ≤ l.inflight
  rests : t.Lacks Action.works

/-- The state is what it was, and so is whoever stops, or else the link is down. -/
def Settles (l : Link ρ) (t : Turn ρ) : Prop :=
  t.link.state = .disconnected ∨ (t.link.state = l.state ∧
    ∀ id n, l.tasks.stage? id = some (.closing n .stop) → t.link.tasks.stage? id = some (.closing n .stop))

variable {t u : Turn ρ} {h : Holdings} {luck : Luck}

theorem windsDown_start (hl : Halted l) : (⟨l, []⟩ : Turn ρ).WindsDown l l.holdings :=
  ⟨leaves_start hl, rfl, rfl, Nat.le_refl _, lacks_start _ l⟩

theorem settles_start (l : Link ρ) : (⟨l, []⟩ : Turn ρ).Settles l := .inr ⟨rfl, fun _ _ hs => hs⟩

theorem Noted.windsDown (hu : u.Noted l) (hl : Halted l) : u.WindsDown l l.holdings := by
  obtain ⟨-, v, p, e, f, hlink⟩ := id hu
  refine ⟨hu.leaves ?_, ?_, ?_, ?_, (lacks_start _ l).of_deeds hu.1.deeds⟩ <;> rw [hlink]
  · exact { hl with }
  · exact Nat.le_refl _

theorem Noted.settles (hu : u.Noted l) : u.Settles l := by
  obtain ⟨-, v, p, e, f, hlink⟩ := hu
  refine .inr ?_
  rw [hlink]
  exact ⟨rfl, fun _ _ hs => hs⟩

theorem WindsDown.finish (ht : t.WindsDown l h) (e : Ending) : (t.finish me e).WindsDown l h where
  leaves := by
    have hl := ht.leaves.link
    refine ht.leaves.of_eq ?_ (finish_deeds me e) rfl
    exact { hl with ordered := hl.ordered.erase me, vacant := (hl.vacant.except _).erase }
  clients := ht.clients
  received := ht.received
  inflight := Nat.le_trans (Tasks.countAt_erase_le me) ht.inflight
  rests := ht.rests.of_deeds (finish_deeds me e)

theorem Settles.finish (ht : t.Settles l) (hme : ∀ n, l.tasks.stage? me ≠ some (.closing n .stop)) (e : Ending) :
    (t.finish me e).Settles l := by
  rcases ht with hdown | ⟨hstate, hstops⟩
  · exact .inl hdown
  · refine .inr ⟨hstate, fun id n hs => ?_⟩
    rw [finish_link, Tasks.stage?_erase, if_neg]
    · exact hstops id n hs
    · rintro rfl
      exact hme n hs

theorem WindsDown.spawn (ht : t.WindsDown l h) (c : Call) : (t.spawn (.called c)).WindsDown l h where
  leaves := by
    have hl := ht.leaves.link
    refine ht.leaves.of_eq ?_ (spawn_deeds _) rfl
    exact { hl with ordered := hl.ordered.spawn _, vacant := hl.vacant.spawn hl.ordered rfl }
  clients := ht.clients
  received := ht.received
  inflight := Nat.le_trans (Nat.le_of_eq (Tasks.countAt_spawn rfl)) ht.inflight
  rests := ht.rests.of_deeds (spawn_deeds _)

theorem Settles.spawn (ht : t.Settles l) (hord : t.link.tasks.Ordered) (s : Stage ρ) : (t.spawn s).Settles l := by
  rcases ht with hdown | ⟨hstate, hstops⟩
  · exact .inl hdown
  · refine .inr ⟨hstate, fun id n hs => ?_⟩
    rw [spawn_link]
    exact Tasks.stage?_spawn_of_some hord (hstops id n hs) s

/-- The link is down, and perhaps its component has stopped. -/
theorem WindsDown.down (ht : t.WindsDown l h) {c : Component} (hdeeds : u.deeds = t.deeds)
    (hlink : u.link = { t.link with state := .disconnected, component := c }) : u.WindsDown l h where
  leaves := by
    refine ht.leaves.of_eq ?_ hdeeds (by rw [hlink]; rfl)
    rw [hlink]
    exact { ht.leaves.link with }
  clients := by rw [hlink]; exact ht.clients
  received := by rw [hlink]; exact ht.received
  inflight := by rw [hlink]; exact ht.inflight
  rests := ht.rests.of_deeds hdeeds

theorem settles_down (t : Turn ρ) (e : Ending) : ((t.enter .disconnected).finish me e).Settles l := by
  refine .inl ?_
  rw [finish_link, enter_link]

/-- There is nothing to let go any more. -/
theorem WindsDown.fall (ht : t.WindsDown l h) : (t.fall me luck).WindsDown l h := by
  have hl := ht.leaves.link
  have hdeeds : (t.fall me luck).deeds = t.deeds := by
    rw [fall_deeds, hl.subscription]
    exact List.append_nil _
  refine ⟨ht.leaves.of_eq ?_ hdeeds ?_, ?_, ?_, ?_, ht.rests.of_deeds hdeeds⟩
  · rw [fall_link]
    exact ⟨(hl.ordered.cancel? _).cancel? _, hl.stopping, hl.client, rfl, rfl, rfl, hl.retry,
      (hl.vacant.cancel? _).cancel? _⟩
  · rw [fall_link, Link.holdings, Link.holdings, hl.subscription]
  · rw [fall_link]
    exact ht.clients
  · rw [fall_link]
    exact ht.received
  · rw [fall_link]
    refine Nat.le_trans (Nat.le_of_eq ?_) ht.inflight
    exact (Tasks.countAt_cancel? _).trans (Tasks.countAt_cancel? _)

theorem WindsDown.afterClose (ht : t.WindsDown l h) (next : AfterClose) : (t.afterClose me next).WindsDown l h := by
  cases next with
  | abandoned => exact ht.finish _
  | teardown =>
    rw [Turn.afterClose, ht.leaves.link.stopping, if_pos rfl]
    exact (ht.down (enter_deeds (by decide)) (enter_link _)).finish _
  | stop =>
    obtain ⟨u, c, hturn, hlink, hdeeds⟩ := t.afterClose_stop me
    rw [hturn]
    exact (ht.down hdeeds hlink).finish _

/-- A teardown or a stop ends with the link down. -/
theorem settles_afterClose (ht : t.WindsDown l h) {next : AfterClose} (hnext : next ≠ .abandoned) :
    (t.afterClose me next).Settles l := by
  cases next with
  | abandoned => exact absurd rfl hnext
  | teardown =>
    rw [Turn.afterClose, ht.leaves.link.stopping, if_pos rfl]
    exact settles_down t _
  | stop =>
    obtain ⟨u, c, hturn, hlink, -⟩ := t.afterClose_stop me
    exact .inl (by rw [hturn, finish_link, hlink])

theorem WindsDown.tearDown (ht : t.WindsDown l h) (hsettles : t.Settles l)
    (hme : ∀ n, l.tasks.stage? me ≠ some (.closing n .stop)) :
    (t.tearDown me luck).WindsDown l h ∧ (t.tearDown me luck).Settles l := by
  obtain ⟨-, hturn⟩ | hturn := t.tearDown_cases me luck
  · rw [hturn]
    exact ⟨ht.finish _, hsettles.finish hme _⟩
  · have hfall : (t.fall me luck).WindsDown l h := ht.fall
    obtain ⟨-, hclose⟩ | ⟨n, hclient, -⟩ := (t.fall me luck).closeClient_cases me .teardown
    · rw [hturn, hclose]
      exact ⟨hfall.afterClose .teardown, settles_afterClose hfall nofun⟩
    · rw [hfall.leaves.link.client] at hclient
      cases hclient

/-- What is waited for is neither a record nor the answer to a ping. -/
theorem WindsDown.park (ht : t.WindsDown l h) {s s' : Stage ρ} {r : Request ρ}
    (hs : t.link.tasks.stage? me = some s) (ho : s.Onward s' r) : (t.park me s' r).WindsDown l h := by
  have hl := ht.leaves.link
  have hworks : s.works = false := hl.vacant me s nofun hs
  have hworks' : s'.works = false := by rwa [Stage.works, ho.part]
  have hrecord : s'.isRecord = s.isRecord := by cases ho <;> rfl
  have hawait : (Action.await me (t.link.tasks.nextTurn me) r).works = false ∧
      ∀ h : Holdings, h.after (.await me (t.link.tasks.nextTurn me) r) = h := by
    cases ho with
    | greet | subscribe | process => exact ⟨rfl, fun _ => rfl⟩
    | pause | read | keep | ping | pinged => cases hworks
  refine ⟨⟨?_, ?_⟩, ht.clients, ht.received, ?_, ht.rests.append_one (park_deeds me s' r) hawait.1⟩
  · exact { hl with ordered := hl.ordered.advance me s', vacant := (hl.vacant.except _).advance hworks' }
  · rw [holdings_append (park_deeds me s' r), List.foldl_cons, List.foldl_nil, hawait.2, ht.leaves.remembers]
    rfl
  · exact Nat.le_trans (Nat.le_of_eq (Tasks.countAt_advance hl.ordered hs hrecord)) ht.inflight

theorem Settles.park (ht : t.Settles l) (hme : ∀ n, l.tasks.stage? me ≠ some (.closing n .stop)) (s' : Stage ρ)
    (r : Request ρ) : (t.park me s' r).Settles l := by
  rcases ht with hdown | ⟨hstate, hstops⟩
  · exact .inl hdown
  · refine .inr ⟨hstate, fun id n hs => ?_⟩
    rw [park_link, Tasks.stage?_advance, if_neg]
    · exact hstops id n hs
    · rintro rfl
      exact hme n hs

/-- What is handed over now is given back in the same turn. -/
theorem windsDown_subscribed (hl : Halted l) {sub : Nat} (hs : l.tasks.stage? me = some (.subscribing sub))
    (luck : Luck) :
    (Turn.subscribed ⟨l, []⟩ me luck sub).WindsDown l (l.holdings.given (some sub)) ∧
    (Turn.subscribed ⟨l, []⟩ me luck sub).Settles l ∧
    .cancel sub ∈ (Turn.subscribed ⟨l, []⟩ me luck sub).actions := by
  have hme : ∀ n, l.tasks.stage? me ≠ some (.closing n .stop) := by
    rw [hs]
    nofun
  have hcancel : (act ⟨l, []⟩ (.cancel sub)).WindsDown l (l.holdings.given (some sub)) := by
    refine ⟨⟨hl, ?_⟩, rfl, rfl, Nat.le_refl _, (lacks_start _ l).append_one (act_deeds rfl) rfl⟩
    rw [hl.holdings]
    simp [holdings, act, Holdings.after, Holdings.given, hl.holdings]
  have hsettles : (act ⟨l, []⟩ (.cancel sub)).Settles l := settles_start l
  have hmem : ∀ u : Turn ρ, u.deeds = [.cancel sub] → .cancel sub ∈ u.actions := fun u hu =>
    (mem_deeds.1 (hu ▸ List.mem_singleton_self _)).1
  obtain ⟨hgoing, -⟩ | ⟨-, ⟨e, hturn⟩ | hturn⟩ := (⟨l, []⟩ : Turn ρ).subscribed_cases me luck sub
  · cases hl.stopping.symm.trans hgoing
  · rw [hturn]
    exact ⟨hcancel.finish e, hsettles.finish hme e, hmem _ (finish_deeds me e)⟩
  · obtain ⟨-, hclose⟩ | ⟨n, hclient, -⟩ := (act ⟨l, []⟩ (.cancel sub)).closeClient_cases me .abandoned
    · rw [hturn, hclose]
      exact ⟨hcancel.finish _, hsettles.finish hme _, hmem _ (finish_deeds me _)⟩
    · cases hl.client.symm.trans hclient

end Turn

/-! ## Moves -/

/-- Whatever a task comes to that goes on, except that it is handed a subscription or that a call begins. -/
theorem Course.windsDown {s : Stage ρ} {o : Outcome ρ} {t : Turn ρ} (h : Course l me s o t) (hl : Halted l)
    (hs : l.tasks.stage? me = some s) (hcall : s.call? = none) (hnew : ∀ n, s = .subscribing n → o ≠ .done) :
    t.WindsDown l l.holdings ∧ t.Settles l := by
  have hworks : s.works = false := hl.vacant me s nofun hs
  have hclosing : s.part ≠ .closing → ∀ n, l.tasks.stage? me ≠ some (.closing n .stop) := by
    rintro hp n hn
    rw [hs] at hn
    cases hn
    exact hp rfl
  cases h with
  | stay => exact ⟨Turn.windsDown_start hl, Turn.settles_start l⟩
  | onward hu ho =>
    refine ⟨(hu.windsDown hl).park (hu.tasks.symm ▸ hs) ho, hu.settles.park (hclosing fun hp => ?_) _ _⟩
    cases ho <;> cases hp
  | finish hu hp =>
    have hpart : s.part ≠ .closing := by rcases hp with hp | ⟨hp, -⟩ <;> rw [hp] <;> decide
    exact ⟨(hu.windsDown hl).finish _, hu.settles.finish (hclosing hpart) _⟩
  | record sub r => cases hworks
  | lose luck hu hp =>
    have hpart : s.part ≠ .closing := by rcases hp with hp | hp <;> rw [hp] <;> decide
    exact (hu.windsDown hl).tearDown hu.settles (hclosing hpart)
  | handedOver n luck => exact absurd rfl (hnew n rfl)
  | @closed n next _ u hu =>
    refine ⟨(hu.windsDown hl).afterClose next, ?_⟩
    by_cases hnext : next = .abandoned
    · subst hnext
      refine hu.settles.finish (fun k hk => ?_) _
      rw [hs] at hk
      cases hk
    · exact Turn.settles_afterClose (hu.windsDown hl) hnext
  | retry => cases hworks
  | call => cases hcall

end PoolFeed.Link
