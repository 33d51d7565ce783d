import PoolFeed.Proofs.Link.Halted

/-!
# A link that one caller has started

Between a start and a stop at most one task drives the connection: it shakes hands, closes, retries or reads. `Steady`
says so, and what the link remembers meanwhile, which depends on the part that this task plays. The start itself
(`Fresh.start`) and whatever a task comes to (`Course.steady`, `Steady.handedOver`) leave a steady link, and a stop
leaves a halted one (`Steady.stop`).
-/

namespace PoolFeed.Link

variable {ρ : Type} {l : Link ρ} {me : Nat}

/-! ## Descriptions -/

/-- The parts that drive the connection. -/
def Part.drives : Part → Bool
  | .handshake | .closing | .retry | .reader => true
  | _ => false

def Stage.drives (s : Stage ρ) : Bool := s.part.drives

theorem Stage.drives_of_part {s : Stage ρ} {p : Part} (hp : s.part = p) (hdrives : p.drives) : s.drives := by
  rw [Stage.drives, hp]
  exact hdrives

/-- What the link remembers while a task drives it in some part. -/
def Fits (l : Link ρ) (id : Nat) : Part → Prop
  | .handshake => l.subscription = none ∧ l.keeper = none
  | .closing => l.subscription = none ∧ l.keeper = none ∧ l.client = none
  | .retry => l.subscription = none ∧ l.keeper = none ∧ l.client = none ∧ l.retry = some id
  | .reader => l.reader = some id
  | _ => True

/-- The link is not stopping, and knows its own tasks from those of callers. -/
structure Manned (l : Link ρ) : Prop where
  ordered : l.tasks.Ordered
  going : l.stopping = false
  keepers : ∀ id s, l.tasks.stage? id = some s → s.part = .keeper → l.keeper = some id
  own : ∀ id, l.retry = some id ∨ l.keeper = some id →
    id < l.tasks.next ∧ ∀ s, l.tasks.stage? id = some s → s.part ≠ .caller

/-- At most one task drives the link. -/
structure Steady (l : Link ρ) : Prop extends Manned l where
  driver : ∃ id, ∀ i s, l.tasks.stage? i = some s → s.drives → i = id ∧ Fits l i s.part

/-- In the course of a turn: no other task drives the link. -/
structure Alone (me : Nat) (l : Link ρ) : Prop extends Manned l where
  lt_next : me < l.tasks.next
  vacant : l.tasks.Vacant Stage.drives (some me)

/-- In the course of a turn: the connection is down, but for its client. -/
structure Down (me : Nat) (l : Link ρ) : Prop extends Alone me l where
  subscription : l.subscription = none
  keeper : l.keeper = none

/-- Nothing has begun yet. -/
structure Fresh (l : Link ρ) : Prop extends Manned l where
  client : l.client = none
  subscription : l.subscription = none
  keeper : l.keeper = none
  callers : ∀ id s, l.tasks.stage? id = some s → s.part = .caller

/-! ## Tasks -/

/-- Tasks may be exchanged if no caller and no keeper comes up. -/
theorem Manned.exchange {ts : Tasks (Stage ρ)} (h : Manned l) (hord : ts.Ordered) (hnext : l.tasks.next ≤ ts.next)
    (hcaller : ∀ id s, ts.stage? id = some s → s.part = .caller → ∃ s', l.tasks.stage? id = some s' ∧ s'.part = .caller)
    (hkeeper : ∀ id s, ts.stage? id = some s → s.part = .keeper → ∃ s', l.tasks.stage? id = some s' ∧ s'.part = .keeper) :
    Manned { l with tasks := ts } where
  ordered := hord
  going := h.going
  keepers id s hs hp := by
    obtain ⟨s', hs', hp'⟩ := hkeeper id s hs hp
    exact h.keepers id s' hs' hp'
  own id hid := by
    obtain ⟨hlt, hown⟩ := h.own id hid
    refine ⟨Nat.lt_of_lt_of_le hlt hnext, fun s hs hp => ?_⟩
    obtain ⟨s', hs', hp'⟩ := hcaller id s hs hp
    exact hown s' hs' hp'

theorem Manned.erase (h : Manned l) (id : Nat) : Manned { l with tasks := l.tasks.erase id } :=
  h.exchange (h.ordered.erase id) (Nat.le_refl _) (fun _ s hs hp => ⟨s, (Tasks.stage?_of_erase hs).2, hp⟩)
    fun _ s hs hp => ⟨s, (Tasks.stage?_of_erase hs).2, hp⟩

theorem Manned.cancel? (h : Manned l) (id : Option Nat) : Manned { l with tasks := l.tasks.cancel? id } :=
  h.exchange (h.ordered.cancel? id) (Nat.le_of_eq (Tasks.next_cancel? id).symm)
    (fun _ s hs hp => ⟨s, (Tasks.stage?_of_cancel? hs).2, hp⟩) fun _ s hs hp => ⟨s, (Tasks.stage?_of_cancel? hs).2, hp⟩

theorem Manned.advance (h : Manned l) {id : Nat} {s' : Stage ρ} (hcaller : s'.part ≠ .caller)
    (hkeeper : s'.part = .keeper → ∃ s, l.tasks.stage? id = some s ∧ s.part = .keeper) :
    Manned { l with tasks := l.tasks.advance id s' } := by
  refine h.exchange (h.ordered.advance id s') (Nat.le_refl _) (fun i s hs hp => ?_) fun i s hs hp => ?_
  · obtain ⟨-, rfl⟩ | ⟨-, hold⟩ := Tasks.stage?_of_advance hs
    · exact absurd hp hcaller
    · exact ⟨s, hold, hp⟩
  · obtain ⟨rfl, rfl⟩ | ⟨-, hold⟩ := Tasks.stage?_of_advance hs
    · exact hkeeper hp
    · exact ⟨s, hold, hp⟩

theorem Manned.spawn (h : Manned l) {s' : Stage ρ} (hkeeper : s'.part ≠ .keeper) :
    Manned { l with tasks := l.tasks.spawn s' } where
  ordered := h.ordered.spawn s'
  going := h.going
  keepers id s hs hp := by
    obtain ⟨-, rfl⟩ | hold := Tasks.stage?_of_spawn h.ordered hs
    · exact absurd hp hkeeper
    · exact h.keepers id s hold hp
  own id hid := by
    obtain ⟨hlt, hown⟩ := h.own id hid
    refine ⟨Nat.lt_succ_of_lt hlt, fun s hs => hown s ?_⟩
    rwa [Tasks.stage?_spawn h.ordered, if_neg (Nat.ne_of_lt hlt)] at hs

/-- When the keeper is told to give up, nobody keeps the link alive any more. -/
theorem Manned.letGo (h : Manned l) (id : Option Nat) :
    Manned { l with
      tasks := (l.tasks.cancel? l.keeper).cancel? id, subscription := none, keeper := none, reader := none } := by
  have hsub : ∀ i s, ((l.tasks.cancel? l.keeper).cancel? id).stage? i = some s →
      l.keeper ≠ some i ∧ l.tasks.stage? i = some s :=
    fun i s hs => Tasks.stage?_of_cancel? (Tasks.stage?_of_cancel? hs).2
  refine ⟨(h.ordered.cancel? _).cancel? _, h.going, fun i s hs hp => ?_, fun i hi => ?_⟩
  · obtain ⟨hne, hold⟩ := hsub i s hs
    exact absurd (h.keepers i s hold hp) hne
  · obtain ⟨hlt, hown⟩ := h.own i (.inl (hi.resolve_right nofun))
    refine ⟨?_, fun s hs => hown s (hsub i s hs).2⟩
    simpa using hlt

/-! ## Steady links -/

theorem Steady.erase (h : Steady l) (id : Nat) : Steady { l with tasks := l.tasks.erase id } where
  toManned := h.toManned.erase id
  driver := by
    obtain ⟨d, hd⟩ := h.driver
    exact ⟨d, fun i s hs hdrives => hd i s (Tasks.stage?_of_erase hs).2 hdrives⟩

/-- A task may go on in the part it plays. -/
theorem Steady.onward (h : Steady l) {s s' : Stage ρ} (hs : l.tasks.stage? me = some s) (hpart : s'.part = s.part)
    (hcaller : s.part ≠ .caller) : Steady { l with tasks := l.tasks.advance me s' } where
  toManned := h.toManned.advance (hpart ▸ hcaller) fun hp => ⟨s, hs, hpart ▸ hp⟩
  driver := by
    obtain ⟨d, hd⟩ := h.driver
    refine ⟨d, fun i u hu hdrives => ?_⟩
    obtain ⟨rfl, rfl⟩ | ⟨-, hold⟩ := Tasks.stage?_of_advance hu
    · rw [Stage.drives, hpart] at hdrives
      rw [hpart]
      exact hd i s hs hdrives
    · exact hd i u hold hdrives

theorem Steady.spawn (h : Steady l) {s : Stage ρ} (hdrives : s.drives = false) (hkeeper : s.part ≠ .keeper) :
    Steady { l with tasks := l.tasks.spawn s } where
  toManned := h.toManned.spawn hkeeper
  driver := by
    obtain ⟨d, hd⟩ := h.driver
    refine ⟨d, fun i u hu hu' => ?_⟩
    obtain ⟨-, rfl⟩ | hold := Tasks.stage?_of_spawn h.ordered hu
    · rw [hdrives] at hu'
      cases hu'
    · exact hd i u hold hu'

/-- The turn of the task that drives a steady link. -/
theorem Steady.alone (h : Steady l) {s : Stage ρ} (hs : l.tasks.stage? me = some s) (hdrives : s.drives) :
    Alone me l ∧ Fits l me s.part := by
  obtain ⟨d, hd⟩ := h.driver
  obtain ⟨rfl, hfits⟩ := hd me s hs hdrives
  refine ⟨⟨h.toManned, Tasks.lt_next_of_stage? h.ordered hs, fun i u hi hu => ?_⟩, hfits⟩
  exact Bool.eq_false_iff.2 fun hu' => hi (congrArg some (hd i u hu hu').1.symm)

theorem Alone.finish (h : Alone me l) : Steady { l with tasks := l.tasks.erase me } where
  toManned := h.toManned.erase me
  driver := by
    refine ⟨me, fun i s hs hdrives => ?_⟩
    rw [h.vacant.erase i s nofun hs] at hdrives
    cases hdrives

/-- A task may go on to any part that fits what the link remembers. -/
theorem Alone.park (h : Alone me l) {s' : Stage ρ} (hdrives : s'.drives) (hfits : Fits l me s'.part) :
    Steady { l with tasks := l.tasks.advance me s' } where
  toManned := by
    refine h.toManned.advance (fun hp => ?_) fun hp => ?_
    · rw [Stage.drives, hp] at hdrives
      cases hdrives
    · rw [Stage.drives, hp] at hdrives
      cases hdrives
  driver := by
    refine ⟨me, fun i u hu hu' => ?_⟩
    obtain ⟨rfl, rfl⟩ | ⟨hi, hold⟩ := Tasks.stage?_of_advance hu
    · exact ⟨rfl, hfits⟩
    · rw [h.vacant i u (fun e => hi (Option.some.inj e).symm) hold] at hu'
      cases hu'

/-- A retry is arranged: it drives the link from now on. -/
theorem Down.rearm (h : Down me l) (hclient : l.client = none) :
    Steady { Turn.armed l (some me) with tasks := (Turn.armed l (some me)).tasks.erase me } := by
  obtain ⟨ts, hts, hmanned, hvacant, hnext⟩ : ∃ ts, Turn.armed l (some me) =
      { l with retries := l.retries + 1, tasks := ts.spawn .toRetry, retry := some ts.next } ∧
      Manned { l with tasks := ts } ∧ ts.Vacant Stage.drives (some me) ∧ ts.next = l.tasks.next := by
    simp only [Turn.armed]
    split
    · exact ⟨_, rfl, h.toManned, h.vacant, rfl⟩
    · exact ⟨_, rfl, h.toManned.cancel? _, h.vacant.cancel? _, Tasks.next_cancel? _⟩
  have hord := hmanned.ordered
  have hstage : ∀ i s, ((ts.spawn .toRetry).erase me).stage? i = some s →
      (i = ts.next ∧ s = .toRetry) ∨ (i ≠ me ∧ ts.stage? i = some s) := by
    intro i s hs
    obtain ⟨hne, hs⟩ := Tasks.stage?_of_erase hs
    exact (Tasks.stage?_of_spawn hord hs).imp_right fun hold => ⟨hne, hold⟩
  rw [hts]
  refine ⟨⟨(hord.spawn _).erase me, h.going, fun i s hs hp => ?_, fun i hi => ?_⟩, ts.next, fun i s hs hdrives => ?_⟩
  · obtain ⟨-, rfl⟩ | ⟨-, hold⟩ := hstage i s hs
    · cases hp
    · exact hmanned.keepers i s hold hp
  · rcases hi with hi | hi
    · cases hi
      refine ⟨Nat.lt_succ_self _, fun s hs hp => ?_⟩
      obtain ⟨-, rfl⟩ | ⟨-, hold⟩ := hstage _ s hs
      · cases hp
      · exact absurd (Tasks.lt_next_of_stage? hord hold) (Nat.lt_irrefl _)
    · cases h.keeper.symm.trans hi
  · obtain ⟨rfl, rfl⟩ | ⟨hne, hold⟩ := hstage i s hs
    · exact ⟨rfl, h.subscription, h.keeper, hclient, rfl⟩
    · rw [hvacant i s (fun e => hne (Option.some.inj e).symm) hold] at hdrives
      cases hdrives

/-- A subscription is handed over: its reader drives the link from now on. -/
theorem Down.up (h : Down me l) (sub connections : Nat) :
    Steady { l with
      state := .connected, retries := 0, connections := connections
      tasks := ((l.tasks.spawn (.toKeep sub)).spawn (.toRead sub)).erase me
      subscription := some sub, keeper := some l.tasks.next, reader := some (l.tasks.next + 1) } := by
  have hord := h.ordered.spawn (.toKeep sub)
  have hstage : ∀ i s, (((l.tasks.spawn (.toKeep sub)).spawn (.toRead sub)).erase me).stage? i = some s →
      (i = l.tasks.next + 1 ∧ s = .toRead sub) ∨ (i = l.tasks.next ∧ s = .toKeep sub) ∨
        (i ≠ me ∧ l.tasks.stage? i = some s) := by
    intro i s hs
    obtain ⟨hne, hs⟩ := Tasks.stage?_of_erase hs
    exact (Tasks.stage?_of_spawn hord hs).imp_right fun hs =>
      (Tasks.stage?_of_spawn h.ordered hs).imp_right fun hold => ⟨hne, hold⟩
  refine ⟨⟨(hord.spawn _).erase me, h.going, fun i s hs hp => ?_, fun i hi => ?_⟩, l.tasks.next + 1,
    fun i s hs hdrives => ?_⟩
  · obtain ⟨-, rfl⟩ | ⟨rfl, -⟩ | ⟨-, hold⟩ := hstage i s hs
    · cases hp
    · rfl
    · cases h.keeper.symm.trans (h.keepers i s hold hp)
  · have hlt : i < l.tasks.next ∧ (∀ s, l.tasks.stage? i = some s → s.part ≠ .caller) ∨ i = l.tasks.next :=
      hi.elim (fun hi => .inl (h.own i (.inl hi))) fun hi => .inr (Option.some.inj hi).symm
    refine ⟨show i < l.tasks.next + 1 + 1 by omega, fun s hs hp => ?_⟩
    obtain ⟨-, rfl⟩ | ⟨-, rfl⟩ | ⟨-, hold⟩ := hstage i s hs
    · cases hp
    · cases hp
    · rcases hlt with ⟨-, hown⟩ | rfl
      · exact hown s hold hp
      · exact Nat.lt_irrefl _ (Tasks.lt_next_of_stage? h.ordered hold)
  · obtain ⟨rfl, rfl⟩ | ⟨-, rfl⟩ | ⟨hne, hold⟩ := hstage i s hs
    · exact ⟨rfl, rfl⟩
    · cases hdrives
    · rw [h.vacant i s (fun e => hne (Option.some.inj e).symm) hold] at hdrives
      cases hdrives

/-! ## Turns -/

namespace Turn

variable {t u : Turn ρ} {h : Holdings} {luck : Luck}

theorem Leaves.finish (ht : t.Leaves h (Alone me)) (e : Ending) : (t.finish me e).Leaves h Steady :=
  ht.of_eq ht.link.finish (finish_deeds me e) rfl

/-- The subscription is given back. -/
theorem Leaves.fall (ht : t.Leaves h (Alone me)) : (t.fall me luck).Leaves h (Down me) := by
  have hl := ht.link
  refine ⟨?_, ?_⟩
  · rw [fall_link]
    have hlast := hl.toManned.letGo (if t.link.reader = some me then none else t.link.reader)
    refine ⟨⟨{ hlast with }, ?_, (hl.vacant.cancel? _).cancel? _⟩, rfl, rfl⟩
    simpa using hl.lt_next
  · rw [holdings_append (fall_deeds me luck), ht.remembers, Link.holdings, Holdings.foldl_cancels, fall_link]
    rfl

/-- The client has been closed, and the link retries or gives up. -/
theorem Leaves.reconnect (ht : t.Leaves h (Down me)) (hclient : t.link.client = none) :
    ((t.reconnect (some me)).finish me).Leaves h Steady := by
  have hl := ht.link
  obtain ⟨-, hlink, hdeeds⟩ | ⟨-, hlink, hdeeds⟩ := t.reconnect_cases (some me)
  · refine ⟨?_, ?_⟩
    · rw [finish_link, hlink]
      exact { hl.toAlone.finish with }
    · rw [holdings_append ((finish_deeds me _).trans hdeeds), finish_link, hlink]
      exact ht.remembers
  · refine ht.of_eq ?_ ((finish_deeds me _).trans hdeeds) ?_
    · rw [finish_link, hlink]
      exact hl.rearm hclient
    · rw [finish_link, hlink]
      rfl

theorem Leaves.rest (ht : t.Leaves h (Down me)) (hclient : t.link.client = none) :
    (t.afterClose me .teardown).Leaves h Steady := by
  rw [Turn.afterClose, ht.link.going, if_neg Bool.false_ne_true]
  exact ht.reconnect hclient

/-- The client is given back, or there is none. -/
theorem Leaves.closeClient (ht : t.Leaves h (Down me)) : (t.closeClient me .teardown).Leaves h Steady := by
  have hl := ht.link
  obtain ⟨hclient, hclose⟩ | ⟨n, hclient, hclose⟩ := t.closeClient_cases me .teardown
  · rw [hclose]
    exact ht.rest hclient
  · rw [hclose]
    have hnone : Alone me { t.link with client := none } := { hl.toAlone with }
    refine ⟨hnone.park rfl ⟨hl.subscription, hl.keeper, rfl⟩, ?_⟩
    rw [holdings_append (park_deeds me _ _), change_link]
    have hheld : (t.change fun l => { l with client := none }).holdings h = ⟨[n], t.link.subscription.toList⟩ := by
      rw [holdings_of_deeds (change_deeds _), ht.remembers, Link.holdings, hclient]
      rfl
    rw [hheld]
    simp [Holdings.after, Link.holdings]

theorem Leaves.tearDown (ht : t.Leaves h (Alone me)) : (t.tearDown me luck).Leaves h Steady := by
  obtain ⟨-, hturn⟩ | hturn := t.tearDown_cases me luck
  · rw [hturn]
    exact ht.finish _
  · rw [hturn]
    exact ht.fall.closeClient

/-- A client is created only by a link that has none. -/
theorem Leaves.connect (ht : t.Leaves h (Down me)) (hclient : t.link.client = none) :
    (t.connect me luck).Leaves h Steady := by
  have hl := ht.link
  obtain ⟨heralds, hdeeds, hall⟩ := t.dial_deeds
  have hheld : t.dial.holdings h = ⟨[], t.link.subscription.toList⟩ := by
    rw [holdings_append (hdeeds.trans (List.append_assoc ..)), List.foldl_append, Holdings.foldl_heralds _ hall,
      ht.remembers, Link.holdings, hclient]
    rfl
  have hdial : t.dial.Leaves h (Alone me) := by
    refine ⟨?_, ?_⟩
    · rw [dial_link]
      exact { hl.toAlone with going := rfl }
    · rw [hheld, dial_link, Link.holdings, hclient]
      rfl
  obtain ⟨-, hturn⟩ | ⟨reason, -, hturn⟩ | ⟨-, hturn⟩ := t.connect_cases me luck
  · rw [hturn]
    exact Leaves.finish ⟨hl.toAlone, ht.remembers⟩ _
  · rw [hturn]
    exact (hdial.of_eq (u := t.dial.noteFailure reason) hdial.link (noteFailure_deeds reason) rfl).tearDown
  · rw [hturn]
    have hcreated : Alone me { t.dial.link with client := some (t.link.clients + 1) } := { hdial.link with }
    refine ⟨hcreated.park rfl ?_, ?_⟩
    · rw [dial_link]
      exact ⟨hl.subscription, hl.keeper⟩
    · rw [holdings_append (park_deeds me _ _), holdings_of_deeds (change_deeds _), hheld]
      simp [Holdings.after, Link.holdings]

end Turn

/-! ## Moves -/

theorem Turn.Noted.leavesAs {u : Turn ρ} (hu : u.Noted l) {P : Link ρ → Prop}
    (hP : ∀ v p e f, P { l with version := v, processed := p, processingErrors := e, pingFailures := f }) :
    u.Leaves l.holdings P := by
  refine hu.leaves ?_
  obtain ⟨-, v, p, e, f, hlink⟩ := hu
  exact hlink ▸ hP v p e f

/-- A task waits for something else in the same part. -/
theorem Turn.Leaves.onward {u : Turn ρ} (hu : u.Leaves l.holdings Steady) {s s' : Stage ρ} {r : Request ρ}
    (hs : u.link.tasks.stage? me = some s) (ho : s.Onward s' r) (hcaller : s.part ≠ .caller) :
    (u.park me s' r).Leaves l.holdings Steady := by
  have hheld : (u.park me s' r).holdings l.holdings = u.holdings l.holdings := by
    rw [Turn.holdings_append (Turn.park_deeds me s' r)]
    cases ho <;> rfl
  refine ⟨hu.link.onward hs ho.part hcaller, ?_⟩
  rw [hheld, hu.remembers]
  rfl

/-- A record that is read is handed to a task of its own. -/
theorem Steady.record (hl : Steady l) {sub : Nat} (hs : l.tasks.stage? me = some (.reading sub)) (r : Incoming ρ) :
    (Turn.recordRead ⟨l, []⟩ me sub r).Leaves l.holdings Steady := by
  have hcounted : Steady { l with received := l.received + 1 } := { hl with }
  have hspawned := hcounted.spawn (s := .toProcess r) rfl nofun
  exact ⟨hspawned.onward (Tasks.stage?_spawn_of_some hl.ordered hs _) rfl nofun, rfl⟩

/-- The client is closed: the task ends, or it goes on to what the close was for. -/
theorem Steady.closed (hl : Steady l) {client : Nat} {next : AfterClose}
    (hs : l.tasks.stage? me = some (.closing client next)) {u : Turn ρ} (hu : u.Noted l) :
    (u.afterClose me next).Leaves l.holdings Steady := by
  obtain ⟨ha, hsub, hkeeper, hclient⟩ := hl.alone hs rfl
  have hdown : u.Leaves l.holdings (Down me) := hu.leavesAs fun _ _ _ _ =>
    { ha with subscription := hsub, keeper := hkeeper }
  cases next with
  | abandoned =>
    have halone : u.Leaves l.holdings (Alone me) := hu.leavesAs fun _ _ _ _ => { ha with }
    exact halone.finish _
  | teardown =>
    refine hdown.rest ?_
    obtain ⟨-, v, p, e, f, hlink⟩ := hu
    rw [hlink]
    exact hclient
  | stop =>
    obtain ⟨v, c, hturn, hlink, hdeeds⟩ := u.afterClose_stop me
    rw [hturn]
    refine (hdown.of_eq (Q := Alone me) ?_ hdeeds (by rw [hlink]; rfl)).finish _
    rw [hlink]
    exact { hdown.link.toAlone with }

/-- A retry that is due dials again. -/
theorem Steady.retried (hl : Steady l) (hs : l.tasks.stage? me = some .pausing) (luck : Luck) :
    ((Turn.enter ⟨l, []⟩ .disconnected).connect me luck).Leaves l.holdings Steady := by
  obtain ⟨ha, hsub, hkeeper, hclient, -⟩ := hl.alone hs rfl
  have hdown : Turn.Leaves l.holdings (Down me) (Turn.enter ⟨l, []⟩ .disconnected) := by
    refine (Turn.leaves_start ha).of_eq ?_ (Turn.enter_deeds (by decide)) ?_
    · rw [Turn.enter_link]
      exact { ha with subscription := hsub, keeper := hkeeper }
    · rw [Turn.enter_link]
      rfl
  refine hdown.connect ?_
  rw [Turn.enter_link]
  exact hclient

/-- Whatever a task comes to that goes on, except that it is handed a subscription or that a call begins. -/
theorem Course.steady {s : Stage ρ} {o : Outcome ρ} {t : Turn ρ} (h : Course l me s o t) (hl : Steady l)
    (hs : l.tasks.stage? me = some s) (hcall : s.call? = none) (hnew : ∀ n, s = .subscribing n → o ≠ .done) :
    t.Leaves l.holdings Steady := by
  have hcaller : s.part ≠ .caller := by
    cases s with
    | called c => cases hcall
    | _ => nofun
  have hsteady : ∀ {u : Turn ρ}, u.Noted l → u.Leaves l.holdings Steady := fun hu =>
    hu.leavesAs fun _ _ _ _ => { hl with }
  cases h with
  | stay => exact Turn.leaves_start hl
  | onward hu ho => exact (hsteady hu).onward (hu.tasks.symm ▸ hs) ho hcaller
  | finish hu _ => exact (hsteady hu).of_eq ((hsteady hu).link.erase me) (Turn.finish_deeds me _) rfl
  | record sub r => exact hl.record hs r
  | lose luck hu hp =>
    have hdrives : s.drives := by
      rcases hp with hp | hp
      · exact Stage.drives_of_part hp rfl
      · exact Stage.drives_of_part hp rfl
    have halone : Turn.Leaves l.holdings (Alone me) _ :=
      hu.leavesAs fun _ _ _ _ => { (hl.alone hs hdrives).1 with }
    exact halone.tearDown
  | handedOver n luck => exact absurd rfl (hnew n rfl)
  | closed hu => exact hl.closed hs hu
  | retry o luck => exact hl.retried hs luck
  | call => cases hcall

/-- The link takes what it is handed over. -/
theorem Steady.handedOver (hl : Steady l) {sub : Nat} (hs : l.tasks.stage? me = some (.subscribing sub)) (luck : Luck) :
    (Turn.subscribed ⟨l, []⟩ me luck sub).Leaves (l.holdings.given (some sub)) Steady := by
  obtain ⟨ha, hsub, hkeeper⟩ := hl.alone hs rfl
  have hlink := (Turn.subscribed_link (t := ⟨l, []⟩) me sub hl.going luck).2
  obtain ⟨-, hdeeds⟩ | ⟨hstop, -⟩ := (⟨l, []⟩ : Turn ρ).subscribed_cases me luck sub
  · refine ⟨?_, ?_⟩
    · rw [hlink]
      exact Down.up ⟨ha, hsub, hkeeper⟩ sub _
    · rw [Turn.holdings_of_deeds hdeeds, hlink]
      simp [Turn.holdings, Holdings.given, Link.holdings, hsub]
  · cases hl.going.symm.trans hstop

theorem Fresh.steady (h : Fresh l) : Steady l where
  toManned := h.toManned
  driver := by
    refine ⟨0, fun i s hs hdrives => ?_⟩
    rw [Stage.drives, h.callers i s hs] at hdrives
    cases hdrives

/-- The first call that begins finds nothing under way. -/
theorem Fresh.down (hl : Fresh l) {s : Stage ρ} (hs : l.tasks.stage? me = some s) : Down me l where
  toManned := hl.toManned
  lt_next := Tasks.lt_next_of_stage? hl.ordered hs
  vacant i u _ hu := by
    rw [Stage.drives, hl.callers i u hu]
    rfl
  subscription := hl.subscription
  keeper := hl.keeper

theorem Fresh.connect (hl : Fresh l) {s : Stage ρ} (hs : l.tasks.stage? me = some s) (luck : Luck) :
    (Turn.connect ⟨l, []⟩ me luck).Leaves l.holdings Steady :=
  (Turn.leaves_start (hl.down hs)).connect hl.client

theorem Fresh.start (hl : Fresh l) {s : Stage ρ} (hs : l.tasks.stage? me = some s) (now : Nat) (luck : Luck) :
    (Turn.start ⟨l, []⟩ me now luck).Leaves l.holdings Steady := by
  obtain ⟨-, hturn⟩ | ⟨u, c, b, hturn, hlink, hb, hnotes⟩ := (⟨l, []⟩ : Turn ρ).start_cases me now luck
  · rw [hturn]
    exact (Turn.leaves_start hl.steady).of_eq (hl.steady.erase me) (Turn.finish_deeds me _) rfl
  · rw [hturn]
    refine Turn.Leaves.connect ((Turn.leaves_start hl).of_eq ?_ hnotes.deeds (by rw [hlink]; rfl)) ?_
    · rw [hlink, hb hl.going]
      exact { hl.down hs with going := rfl }
    · rw [hlink]
      exact hl.client

/-- A stop tells all who read, keep alive or retry to give up. -/
theorem Steady.halt_vacant (hl : Steady l) {c : Call} (hs : l.tasks.stage? me = some (.called c)) (luck : Luck) :
    (Turn.halt ⟨l, []⟩ me luck).link.tasks.Vacant Stage.works none := by
  obtain ⟨d, hdriver⟩ := hl.driver
  intro i s _ hi
  rw [Turn.halt_link] at hi
  obtain ⟨hreader, hi⟩ := Tasks.stage?_of_cancel? hi
  obtain ⟨hkeeper, hi⟩ := Tasks.stage?_of_cancel? hi
  obtain ⟨hretry, hi⟩ := Tasks.stage?_of_cancel? hi
  have hfits := hdriver i s hi
  refine Bool.eq_false_iff.2 fun hworks => ?_
  cases hp : s.part with
  | retry =>
    obtain ⟨-, -, -, -, hheld⟩ := hp ▸ hfits (Stage.drives_of_part hp rfl)
    exact hretry hheld
  | reader =>
    obtain ⟨-, hheld⟩ := hp ▸ hfits (Stage.drives_of_part hp rfl)
    split at hreader
    · rename_i hself
      rw [show i = me from Option.some.inj (hheld.symm.trans hself), hs] at hi
      cases hi
      cases hp
    · exact hreader hheld
  | keeper => exact hkeeper (hl.keepers i s hi hp)
  | caller | handshake | closing | record => rw [Stage.works, hp] at hworks; cases hworks

/-- Whoever stops the link is not told to give up. -/
theorem Steady.halt_stands (hl : Steady l) {c : Call} (hs : l.tasks.stage? me = some (.called c)) (luck : Luck) :
    (Turn.halt ⟨l, []⟩ me luck).link.tasks.stage? me = some (.called c) := by
  have hretry : l.retry ≠ some me := fun e => (hl.own me (.inl e)).2 _ hs rfl
  have hkeeper : l.keeper ≠ some me := fun e => (hl.own me (.inr e)).2 _ hs rfl
  rw [Turn.halt_link, Tasks.stage?_cancel?, if_neg, Tasks.stage?_cancel?, if_neg hkeeper, Tasks.stage?_cancel?,
    if_neg hretry]
  · exact hs
  · split
    · exact (Option.some_ne_none me).symm
    · assumption

/-- A stop leaves nobody who reads, keeps alive or retries, and either it is done at once or its task stands
where it closes the client. -/
theorem Steady.stop (hl : Steady l) {c : Call} (hs : l.tasks.stage? me = some (.called c)) (luck : Luck) :
    (Turn.stop ⟨l, []⟩ me luck).Leaves l.holdings Halted ∧
    ((Turn.stop ⟨l, []⟩ me luck).link.state = .disconnected ∨
      ∃ n, (Turn.stop ⟨l, []⟩ me luck).link.tasks.stage? me = some (.closing n .stop)) := by
  have hvacant := hl.halt_vacant hs luck
  have hheld : (Turn.halt ⟨l, []⟩ me luck).holdings l.holdings = ⟨l.client.toList, []⟩ := by
    rw [Turn.holdings_append (t := ⟨l, []⟩) (Turn.halt_deeds me luck)]
    exact Holdings.foldl_cancels _ _
  have hord : (Turn.halt ⟨l, []⟩ me luck).link.tasks.Ordered := by
    rw [Turn.halt_link]
    exact ((hl.ordered.cancel? _).cancel? _).cancel? _
  rw [Turn.stop_eq]
  obtain ⟨hclient, hclose⟩ | ⟨n, hclient, hclose⟩ := (Turn.halt ⟨l, []⟩ me luck).closeClient_cases me .stop
  · obtain ⟨u, c, hturn, hlink, hdeeds⟩ := (Turn.halt ⟨l, []⟩ me luck).afterClose_stop me
    rw [hclose, hturn]
    refine ⟨⟨?_, ?_⟩, .inl (by rw [Turn.finish_link, hlink])⟩
    · rw [Turn.finish_link, hlink]
      refine ⟨hord.erase me, ?_, hclient, ?_, ?_, ?_, ?_, (hvacant.except _).erase⟩ <;> rw [Turn.halt_link]
    · rw [Turn.halt_link] at hclient
      rw [Turn.holdings_of_deeds ((Turn.finish_deeds me _).trans hdeeds), hheld, Turn.finish_link, hlink,
        Turn.halt_link, Link.holdings, hclient]
      rfl
  · rw [hclose]
    refine ⟨⟨?_, ?_⟩, .inr ⟨n, ?_⟩⟩
    · refine ⟨hord.advance me _, ?_, rfl, ?_, ?_, ?_, ?_, (hvacant.except _).advance rfl⟩ <;>
        rw [Turn.park_link, Turn.change_link, Turn.halt_link]
    · rw [Turn.halt_link] at hclient
      rw [Turn.holdings_append (Turn.park_deeds me _ _), Turn.holdings_of_deeds (Turn.change_deeds _), hheld,
        Turn.park_link, Turn.change_link, Turn.halt_link, hclient]
      simp [Holdings.after, Link.holdings]
    · exact Tasks.stage?_advance_self (hl.halt_stands hs luck) _

end PoolFeed.Link
