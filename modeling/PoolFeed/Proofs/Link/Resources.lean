import PoolFeed.Proofs.Link.Annals

/-!
# The state names the resources

| here | there |
| --- | --- |
| `Named` | `ConnectionState`, with `_retry_task`, `_reader_task`, `_ping_task`, `_client`, `_subscription` in each state |

However handshakes, teardowns and timers turn out, and whatever the upstream does, the state of a link that has been
started says what it has in hand: `state_names_resources` lists, for each state, which tasks there are and whether there
is a subscription, and says that its listeners are told of one unbroken path of changes.
-/

namespace PoolFeed.Link

variable {ρ : Type} {l : Link ρ} {n : Nat}

/-! ## What there is in a state -/

/-- The tasks with a duty that have not been told to give up. -/
def doing (l : Link ρ) (d : Duty) : List (Task (Stage ρ)) := l.tasks.standing fun s => s.duty? = some d

section
variable {p : Stage ρ → Bool} {id : Nat} {s : Stage ρ}

theorem drives_of_doing {d : Duty} (hd : d.drives) (u : Stage ρ) (hu : decide (u.duty? = some d)) : u.drives :=
  Stage.drives_of_duty? (of_decide_eq_true hu) hd

theorem drives_of_reads (u : Stage ρ) (hu : u.reads.isSome) : u.drives := by
  cases u with
  | toRead | reading => rfl
  | _ => cases hu

theorem Steady.unique (h : Steady l) (hs : l.tasks.stage? id = some s) (hdrives : s.drives) {i : Nat} {u : Stage ρ}
    (hu : l.tasks.stage? i = some u) (hud : u.drives) : i = id ∧ u = s := by
  obtain ⟨d, hd⟩ := h.driver
  obtain ⟨rfl, -⟩ := hd id s hs hdrives
  obtain ⟨rfl, -⟩ := hd i u hu hud
  exact ⟨rfl, Option.some.inj (hu.symm.trans hs)⟩

/-- The task that drives the link is the only one of its kind. -/
theorem Steady.one (h : Steady l) (hs : l.tasks.stage? id = some s) (hp : p s) (hkind : ∀ u, p u → u.drives) :
    (l.tasks.standing p).length = 1 :=
  Tasks.standing_length_eq_one h.ordered hs hp fun _ u hu hpu => (h.unique hs (hkind s hp) hu (hkind u hpu)).1

/-- There is none of any other kind. -/
theorem Steady.none (h : Steady l) (hs : l.tasks.stage? id = some s) (hdrives : s.drives) (hp : p s = false)
    (hkind : ∀ u, p u → u.drives) : l.tasks.standing p = [] := by
  refine Tasks.Vacant.standing h.ordered fun i u _ hu => Bool.eq_false_iff.2 fun hpu => ?_
  obtain ⟨-, rfl⟩ := h.unique hs hdrives hu (hkind u hpu)
  exact Bool.false_ne_true (hp.symm.trans hpu)

theorem Manned.no_keepers (h : Manned l) (hkeeper : l.keeper = .none) : l.keepers = [] := by
  refine Tasks.Vacant.standing h.ordered fun i u _ hu => Bool.eq_false_iff.2 fun hkeeps => ?_
  have hpart : u.part = .keeper := by
    cases u with
    | toKeep | keeping | pinging => rfl
    | _ => cases hkeeps
  cases hkeeper.symm.trans (h.keepers i u hu hpart)

end

/-- A handshake is under way, and nothing else. -/
theorem Phased.when_connecting (hl : Phased n l) (hstate : l.state = .connecting) :
    (l.doing .handshake).length = 1 ∧ l.subscription = none ∧ l.readers = [] ∧ l.keepers = [] ∧ l.doing .retry = [] := by
  have hphase := hl.phase
  rw [hstate] at hphase
  cases hphase with
  | shaking h =>
    obtain ⟨s, hs, hduty⟩ := Option.bind_eq_some_iff.1 h
    have hdrives : s.drives := Stage.drives_of_duty? hduty rfl
    have hpart : s.part = .handshake := by
      cases s with
      | opening | greeting | subscribing => rfl
      | _ => cases hduty
    obtain ⟨-, hsub, hkeeper⟩ := hpart ▸ hl.toSteady.alone hs hdrives
    have hreads : s.reads.isSome = false := by
      cases s with
      | toRead | reading => cases hpart
      | _ => rfl
    exact ⟨hl.one hs (decide_eq_true hduty) (drives_of_doing rfl), hsub, hl.none hs hdrives hreads drives_of_reads,
      hl.no_keepers hkeeper, hl.none hs hdrives (by simp [hduty]) (drives_of_doing rfl)⟩

/-- One task reads the current subscription and one keeps it alive. -/
theorem Phased.when_connected (hl : Phased n l) (hstate : l.state = .connected) :
    ∃ sub, l.subscription = some sub ∧ l.readers.length = 1 ∧ l.keepers.length = 1 ∧
      (∀ t ∈ l.readers, t.stage.reads = some sub) ∧ ∀ t ∈ l.keepers, t.stage.keeps = some sub := by
  have hphase := hl.phase
  rw [hstate] at hphase
  cases hphase with
  | @up sub reader keeper hsub hkeeper hread hkeep hpos =>
    obtain ⟨r, hr, hrd⟩ := Option.bind_eq_some_iff.1 hread
    obtain ⟨k, hk, hkd⟩ := Option.bind_eq_some_iff.1 hkeep
    have hreads : r.reads = some sub := by
      cases r with
      | toRead | reading => cases hrd; rfl
      | _ => cases hrd
    have hkeeps : k.keeps = some sub := by
      cases k with
      | toKeep | keeping | pinging => cases hkd; rfl
      | _ => cases hkd
    have honly : ∀ i u, l.tasks.stage? i = some u → u.keeps.isSome → i = keeper := by
      intro i u hu hku
      have hpart : u.part = .keeper := by
        cases u with
        | toKeep | keeping | pinging => rfl
        | _ => cases hku
      exact Option.some.inj ((hl.keepers i u hu hpart).symm.trans hkeeper)
    refine ⟨sub, hsub, hl.one hr (by rw [hreads]; rfl) drives_of_reads,
      Tasks.standing_length_eq_one hl.ordered hk (by rw [hkeeps]; rfl) honly, fun t ht => ?_, fun t ht => ?_⟩
    · obtain ⟨hs, hp⟩ := Tasks.stage?_of_mem_standing hl.ordered ht
      obtain ⟨-, heq⟩ := hl.unique hr (drives_of_reads r (by rw [hreads]; rfl)) hs (drives_of_reads _ hp)
      rw [heq]
      exact hreads
    · obtain ⟨hs, hp⟩ := Tasks.stage?_of_mem_standing hl.ordered ht
      rw [honly _ _ hs hp, hk] at hs
      rw [← Option.some.inj hs]
      exact hkeeps

/-- A teardown closes a client or a retry waits, and there is nothing else. -/
theorem Phased.when_reconnecting (hl : Phased n l) (hstate : l.state = .reconnecting) :
    l.subscription = none ∧ l.readers = [] ∧ l.keepers = [] ∧
      (l.doing (.close .teardown)).length + (l.doing .retry).length = 1 := by
  have hphase := hl.phase
  rw [hstate] at hphase
  cases hphase with
  | falling h =>
    obtain ⟨s, hs, hduty⟩ := Option.bind_eq_some_iff.1 h
    obtain ⟨client, rfl⟩ : ∃ client, s = .closing client .teardown := by
      cases s with
      | closing client next => cases hduty; exact ⟨client, rfl⟩
      | _ => cases hduty
    obtain ⟨-, hsub, hkeeper, -⟩ := hl.toSteady.alone hs rfl
    have hone : (l.doing (.close .teardown)).length = 1 := hl.one hs (decide_eq_true rfl) (drives_of_doing rfl)
    have hnone : l.doing .retry = [] := hl.none hs rfl rfl (drives_of_doing rfl)
    refine ⟨hsub, hl.none hs rfl rfl drives_of_reads, hl.no_keepers hkeeper, ?_⟩
    rw [hone, hnone]
    rfl
  | waiting h =>
    obtain ⟨s, hs, hduty⟩ := Option.bind_eq_some_iff.1 h
    have hdrives : s.drives := Stage.drives_of_duty? hduty rfl
    have hpart : s.part = .retry ∧ s.reads.isSome = false := by
      cases s with
      | toRetry | pausing => exact ⟨rfl, rfl⟩
      | _ => cases hduty
    obtain ⟨-, hsub, hkeeper, -⟩ := hpart.1 ▸ hl.toSteady.alone hs hdrives
    have hone : (l.doing .retry).length = 1 := hl.one hs (decide_eq_true hduty) (drives_of_doing rfl)
    have hnone : l.doing (.close .teardown) = [] := hl.none hs hdrives (by simp [hduty]) (drives_of_doing rfl)
    refine ⟨hsub, hl.none hs hdrives hpart.2 drives_of_reads, hl.no_keepers hkeeper, ?_⟩
    rw [hone, hnone]
    rfl

/-- Nothing is under way. -/
theorem Phased.when_disconnected (hl : Phased n l) (hstate : l.state = .disconnected) :
    l.subscription = none ∧ l.readers = [] ∧ l.keepers = [] ∧ l.tasks.standing Stage.drives = [] := by
  have hphase := hl.phase
  rw [hstate] at hphase
  cases hphase with
  | down hidle hsub hkeeper =>
    have hvacant : l.tasks.Vacant Stage.drives .none := by
      refine fun i u _ hu => Bool.eq_false_iff.2 fun hud => ?_
      obtain ⟨d, hd, hdd⟩ := Stage.duty?_of_drives hud
      exact Bool.false_ne_true ((hidle i d ((duty?_of_stage? hu).trans hd)).symm.trans hdd)
    have hreaders : l.tasks.Vacant (fun s => s.reads.isSome) .none := fun i u hi hu =>
      Bool.eq_false_iff.2 fun hreads => Bool.false_ne_true ((hvacant i u hi hu).symm.trans (drives_of_reads u hreads))
    exact ⟨hsub, hreaders.standing hl.ordered, hl.no_keepers hkeeper, hvacant.standing hl.ordered⟩

/-! ## The state names the resources -/

/-- What the state of a link says of what it has in hand, and what its listeners know of it. -/
structure Named (ls : List Listener) (w : Annals ρ) : Prop where
  connected : w.link.state = .connected ↔ w.link.readers.length = 1 ∧ w.link.keepers.length = 1 ∧
    ∃ sub, w.link.subscription = some sub ∧ w.holdings.subscriptions = [sub]
  current : (∀ t ∈ w.link.readers, t.stage.reads = w.link.subscription) ∧
    ∀ t ∈ w.link.keepers, t.stage.keeps = w.link.subscription
  connecting : w.link.state = .connecting → (w.link.doing .handshake).length = 1 ∧ w.link.subscription = none ∧
    w.link.readers = [] ∧ w.link.doing .retry = []
  reconnecting : w.link.state = .reconnecting → w.link.subscription = none ∧
    (w.link.doing (.close .teardown)).length + (w.link.doing .retry).length = 1
  disconnected : w.link.state = .disconnected → w.link.doing .handshake = [] ∧ w.link.subscription = none ∧
    w.link.readers = [] ∧ w.link.keepers = [] ∧ w.link.doing (.close .teardown) = [] ∧ w.link.doing .retry = []
  told : ∃ path, Path .disconnected path w.link.state ∧ w.reports = reports ls path

theorem Phased.named {ls : List Listener} {w : Annals ρ} (hl : Phased n w.link) (hheld : w.holdings = w.link.holdings)
    (htold : ∃ path, Path .disconnected path w.link.state ∧ w.reports = reports ls path) : Named ls w := by
  have hnobody : w.link.state ≠ .connected → w.link.subscription = none ∧ w.link.readers = [] ∧ w.link.keepers = [] := by
    intro hstate
    cases h : w.link.state with
    | connected => exact absurd h hstate
    | connecting =>
      obtain ⟨-, hsub, hreaders, hkeepers, -⟩ := hl.when_connecting h
      exact ⟨hsub, hreaders, hkeepers⟩
    | reconnecting =>
      obtain ⟨hsub, hreaders, hkeepers, -⟩ := hl.when_reconnecting h
      exact ⟨hsub, hreaders, hkeepers⟩
    | disconnected =>
      obtain ⟨hsub, hreaders, hkeepers, -⟩ := hl.when_disconnected h
      exact ⟨hsub, hreaders, hkeepers⟩
  refine ⟨⟨fun h => ?_, ?_⟩, ?_, fun h => ?_, fun h => ?_, fun h => ?_, htold⟩
  · obtain ⟨sub, hsub, hreaders, hkeepers, -⟩ := hl.when_connected h
    refine ⟨hreaders, hkeepers, sub, hsub, ?_⟩
    rw [hheld, Link.holdings, hsub]
    rfl
  · rintro ⟨-, -, sub, hsub, -⟩
    by_contra hstate
    cases (hnobody hstate).1.symm.trans hsub
  · by_cases hstate : w.link.state = .connected
    · obtain ⟨sub, hsub, -, -, hreads, hkeeps⟩ := hl.when_connected hstate
      rw [hsub]
      exact ⟨hreads, hkeeps⟩
    · obtain ⟨-, hreaders, hkeepers⟩ := hnobody hstate
      rw [hreaders, hkeepers]
      exact ⟨List.forall_mem_nil _, List.forall_mem_nil _⟩
  · obtain ⟨hshaking, hsub, hreaders, -, hretry⟩ := hl.when_connecting h
    exact ⟨hshaking, hsub, hreaders, hretry⟩
  · obtain ⟨hsub, -, -, hone⟩ := hl.when_reconnecting h
    exact ⟨hsub, hone⟩
  · obtain ⟨hsub, hreaders, hkeepers, hidle⟩ := hl.when_disconnected h
    have hnone : ∀ d : Duty, d.drives → w.link.doing d = [] := fun d hd =>
      Tasks.standing_eq_nil_of_imp hidle (drives_of_doing hd)
    exact ⟨hnone _ rfl, hsub, hreaders, hkeepers, hnone _ rfl, hnone _ rfl⟩

/-- **The state names the resources.** Whatever happens to a link that has been started, as long as no other call
begins, its state says at every moment which tasks there are and whether there is a subscription; and its listeners have
been told, each of them and whether or not others fail, of an unbroken path of changes that leads to the present state. -/
theorem state_names_resources (o : Options) (ls : List Listener) (moves : List (Move ρ))
    (hcalls : (annals o ls moves).calls = [.start]) : Named ls (annals o ls moves) := by
  obtain ⟨hphased, -, htold⟩ := (annals_lawful o ls moves).begun .start (.inl rfl) hcalls
  have hcustody := annals_custody o ls moves
  have hheld := ((custody_orderly o ls moves).steady (hcustody ▸ hcalls)).2
  rw [← hcustody] at hheld
  exact hphased.named hheld htold

/-- A link comes up, its stream ends, and the client of the retry cannot be created. -/
def lostAndRefused : List (Move Unit) :=
  [.askAtOnce .start 0 {}, .resume 0 1 0 {} .done, .resume 0 2 0 {} (.version "v"), .resume 0 3 0 {} .done,
    .resume 2 0 0 {} .done, .resume 2 1 0 {} .ended, .resume 2 2 0 {} .done, .resume 3 0 0 {} .done,
    .resume 3 1 0 { create := fun _ => some "refused" } .done]

theorem named_lostAndRefused :
    (annals { programs := [] } [.direct, .broken "no", .deferred] lostAndRefused).calls = [.start] ∧
    Named [.direct, .broken "no", .deferred]
      (annals { programs := [] } [.direct, .broken "no", .deferred] lostAndRefused) := by
  have hcalls : (annals { programs := [] } [.direct, .broken "no", .deferred] lostAndRefused).calls = [.start] := by
    decide +kernel
  exact ⟨hcalls, state_names_resources _ _ _ hcalls⟩

end PoolFeed.Link
