import PoolFeed.Proofs.Link.Sound

/-!
# Turns keep the description

Every step of a turn keeps `Sound` for all tasks but its own, and the last step makes it whole. So every
move does (`step_sound`), except for one: a subscription that is handed over to a link that has one.
-/

namespace PoolFeed.Link

variable {ρ : Type} {me : Option Nat} {opened : List Nat} {l : Link ρ}

/-- A turn keeps the description, as far as the subscriptions it cancels are closed. -/
def Turn.Keeps (me : Option Nat) (opened : List Nat) (t : Turn ρ) : Prop := Sound me (close opened t.dropped) t.link

namespace Turn

variable {t : Turn ρ} {id : Nat} {opened : List Nat} {luck : Luck}

theorem Keeps.log (h : t.Keeps me opened) (e : Log.Entry) : (t.log e).Keeps me opened := by
  rw [Keeps, log_dropped, log_link]
  exact h

theorem Keeps.act (h : t.Keeps me opened) {a : Action ρ} (ha : a.dropped = none) : (t.act a).Keeps me opened := by
  rw [Keeps, act_dropped, act_link, ha, Option.toList_none, List.append_nil]
  exact h

theorem Keeps.enter (h : t.Keeps me opened) (s : LinkState) : (t.enter s).Keeps me opened := by
  rw [Keeps, enter_dropped, enter_link]
  exact h.congr rfl rfl rfl rfl rfl

theorem Keeps.finish (h : t.Keeps (some id) opened) (e : Ending) : (t.finish id e).Keeps none opened := by
  rw [Keeps, finish_dropped, finish_link]
  exact Sound.finish h

theorem Keeps.park (h : t.Keeps (some id) opened) {s : Stage ρ} (hr : s.reads = none) (hk : s.keeps = none)
    (r : Request ρ) : (t.park id s r).Keeps none opened := by
  rw [Keeps, park_dropped, park_link]
  exact Sound.park h hr hk

theorem Keeps.stay (h : t.Keeps none opened) {s : Stage ρ} (hs : t.link.tasks.stage? id = some s) (s' : Stage ρ)
    (hr : s'.reads = s.reads) (hk : s'.keeps = s.keeps) (r : Request ρ) : (t.park id s' r).Keeps none opened := by
  rw [Keeps, park_dropped, park_link]
  exact Sound.stay h hs hr hk

theorem Keeps.spawn (h : t.Keeps me opened) {s : Stage ρ} (hr : s.reads = none) (hk : s.keeps = none) :
    (t.spawn s).Keeps me opened := by
  rw [Keeps, spawn_dropped, spawn_link]
  exact Sound.spawn h hr hk

/-- Nothing but these parts of the link and the cancelled subscriptions matters. -/
theorem Keeps.congr {t' : Turn ρ} (h : t.Keeps me opened) (hdropped : t'.dropped = t.dropped)
    (htasks : t'.link.tasks = t.link.tasks) (hsub : t'.link.subscription = t.link.subscription)
    (hkeeper : t'.link.keeper = t.link.keeper) (hreader : t'.link.reader = t.link.reader)
    (hretry : t'.link.retry = t.link.retry) : t'.Keeps me opened := by
  rw [Keeps, hdropped]
  exact Sound.congr h htasks hsub hkeeper hreader hretry

/-- A change leaves the tasks alone, and what the link knows of its subscription. -/
def Spares (f : Link ρ → Link ρ) : Prop := ∀ l, (f l).tasks = l.tasks ∧ (f l).subscription = l.subscription ∧
  (f l).keeper = l.keeper ∧ (f l).reader = l.reader ∧ (f l).retry = l.retry

theorem Keeps.change (h : t.Keeps me opened) (f : Link ρ → Link ρ) (hf : Spares f) : (t.change f).Keeps me opened := by
  obtain ⟨htasks, hsub, hkeeper, hreader, hretry⟩ := hf t.link
  exact h.congr rfl htasks hsub hkeeper hreader hretry

theorem keeps_of_sound (h : Sound me opened l) : (⟨l, []⟩ : Turn ρ).Keeps me opened := h

/-! ## Closing and retrying -/

/-- The subscription is gone, and with it its keeper and its reader. -/
theorem Keeps.down (h : t.Keeps (some id) opened) (luck : Luck) :
    ((t.stopKeeper.dropSubscription luck).stopReader id).Keeps (some id) opened := by
  simp only [Keeps, stopReader_dropped, stopReader_link, dropSubscription_dropped, dropSubscription_link,
    stopKeeper_dropped, stopKeeper_link, close_append]
  exact Sound.down h

theorem Keeps.cancelRetry (h : t.Keeps me opened) : (t.cancelTask t.link.retry).Keeps me opened := by
  rw [Keeps, cancelTask_dropped, cancelTask_link]
  exact Sound.cancelRetry h

theorem Keeps.stopRetry (h : t.Keeps me opened) : t.stopRetry.Keeps me opened := by
  have hs := h.cancelRetry
  exact { hs with retry := nofun }

theorem Keeps.armRetry (h : t.Keeps me opened) :
    ((t.spawn .toRetry).change fun l => { l with retry := some t.link.tasks.next }).Keeps me opened := by
  rw [Keeps, change_dropped, spawn_dropped, change_link, spawn_link]
  exact Sound.spawnRetry h

theorem Keeps.reconnect (h : t.Keeps me opened) (asker : Option Nat) : (t.reconnect asker).Keeps me opened := by
  simp only [Turn.reconnect]
  split
  · exact (h.log _).enter .disconnected
  · have hc := h.change (fun l => { l with retries := t.link.retries + 1 }) fun _ => ⟨rfl, rfl, rfl, rfl, rfl⟩
    split
    · exact (hc.log _).armRetry
    · exact (hc.cancelRetry.log _).armRetry

/-! ## The end of a turn -/

theorem Keeps.afterClose (h : t.Keeps (some id) opened) (next : AfterClose) :
    (t.afterClose id next).Keeps none opened := by
  cases next with
  | abandoned => exact h.finish _
  | teardown =>
    simp only [Turn.afterClose]
    split
    · exact (h.enter _).finish _
    · exact (h.reconnect _).finish _
  | stop =>
    simp only [Turn.afterClose]
    split
    · refine Keeps.finish ((h.enter .disconnected).congr ?_ ?_ ?_ ?_ ?_ ?_) _ <;> simp [foldl_log]
    · exact (h.enter _).finish _

theorem Keeps.closeClient (h : t.Keeps (some id) opened) (next : AfterClose) :
    (t.closeClient id next).Keeps none opened := by
  unfold Turn.closeClient
  split
  · exact h.afterClose next
  · have hc := h.change (fun l => { l with client := none }) fun _ => ⟨rfl, rfl, rfl, rfl, rfl⟩
    exact hc.park rfl rfl _

theorem Keeps.tearDown (h : t.Keeps (some id) opened) (luck : Luck) : (t.tearDown id luck).Keeps none opened := by
  have hbegin := (h.enter .reconnecting).change (fun l => { l with disconnects := l.disconnects + 1 })
    fun _ => ⟨rfl, rfl, rfl, rfl, rfl⟩
  unfold Turn.tearDown
  cases t.link.state
  case reconnecting | disconnected => exact h.finish _
  case connecting | connected => exact (hbegin.down luck).closeClient .teardown

theorem Keeps.connectFailed (h : t.Keeps (some id) opened) (luck : Luck) (reason : String) :
    (t.connectFailed id luck reason).Keeps none opened := (h.log _).tearDown luck

theorem Keeps.connect (h : t.Keeps (some id) opened) (luck : Luck) : (t.connect id luck).Keeps none opened := by
  have hbegin := h.change (fun l => { l with stopping := false }) fun _ => ⟨rfl, rfl, rfl, rfl, rfl⟩
  have hasked : ∀ (u : Turn ρ) n, u.Keeps (some id) opened →
      ((u.change fun l => { l with clients := n }).act (.create n)).Keeps (some id) opened := by
    intro u n hu
    exact (hu.change (fun l => { l with clients := n }) fun _ => ⟨rfl, rfl, rfl, rfl, rfl⟩).act (a := .create n) rfl
  have hopening : ∀ (u : Turn ρ) n r, u.Keeps (some id) opened →
      ((u.change fun l => { l with client := some n }).park id (.opening n) r).Keeps none opened := by
    intro u n r hu
    exact (hu.change (fun l => { l with client := some n }) fun _ => ⟨rfl, rfl, rfl, rfl, rfl⟩).park rfl rfl r
  unfold Turn.connect
  cases t.link.state
  case connecting | connected => exact h.finish _
  case disconnected | reconnecting =>
    dsimp only
    split
    · exact (hasked _ _ (hbegin.enter .connecting)).connectFailed luck _
    · exact hopening _ _ _ (hasked _ _ (hbegin.enter .connecting))

/-! ## Calls -/

theorem Keeps.start (h : t.Keeps (some id) opened) (now : Nat) (luck : Luck) :
    (t.start id now luck).Keeps none opened := by
  unfold Turn.start
  split
  · split
    · exact h.connect luck
    · exact h.finish _
  · refine Keeps.connect (h.congr ?_ ?_ ?_ ?_ ?_ ?_) luck <;> simp [foldl_log]

theorem Keeps.stop (h : t.Keeps (some id) opened) (luck : Luck) : (t.stop id luck).Keeps none opened := by
  have hstop := h.change (fun l => { l with stopping := true }) fun _ => ⟨rfl, rfl, rfl, rfl, rfl⟩
  exact (hstop.stopRetry.down luck).closeClient .stop

theorem Keeps.call (h : t.Keeps (some id) opened) (now : Nat) (luck : Luck) (c : Call) :
    (t.call id now luck c).Keeps none opened := by
  cases c with
  | start => exact h.start now luck
  | stop => exact h.stop luck
  | connect => exact h.connect luck
  | handleDisconnect => exact h.tearDown luck

theorem Keeps.readingEnded (h : t.Keeps (some id) opened) (luck : Luck) (e : Log.Entry) :
    (t.readingEnded id luck e).Keeps none opened := by
  simp only [Turn.readingEnded]
  split
  · exact (h.log e).finish _
  · exact (h.log e).tearDown luck

/-! ## Going on -/

/-- A link that is stopping cancels the subscription it is handed over. -/
theorem subscribed_keeps {sub : Nat} (h : Sound (some id) opened l) (hstop : l.stopping = true) (luck : Luck) :
    (Turn.subscribed ⟨l, []⟩ id luck sub).Keeps none (opened ++ [sub]) := by
  have hcancel : (act ⟨l, []⟩ (.cancel sub)).Keeps (some id) (opened ++ [sub]) := by
    show Sound (some id) (close (opened ++ [sub]) [sub]) l
    rw [close_last sub h.length_le]
    exact h
  rw [subscribed, if_pos hstop]
  dsimp only
  split
  · exact hcancel.finish _
  · exact hcancel.closeClient .abandoned

/-- The link that a new subscription leaves. -/
theorem subscribed_link (id sub : Nat) (hstop : t.link.stopping = false) (luck : Luck) :
    (t.subscribed id luck sub).dropped = t.dropped ∧
    (t.subscribed id luck sub).link =
      { t.link with
        state := .connected, retries := 0, connections := t.link.connections + 1
        tasks := ((t.link.tasks.spawn (.toKeep sub)).spawn (.toRead sub)).erase id
        subscription := some sub, keeper := some t.link.tasks.next, reader := some (t.link.tasks.next + 1) } := by
  simp [subscribed, hstop, Tasks.spawn]

/-- A link without a subscription takes the one it is handed over. -/
theorem subscribed_takes {sub : Nat} (h : Sound (some id) [] l) (hid : id < l.tasks.next) (hsub : l.subscription = none)
    (hstop : l.stopping = false) (luck : Luck) : (Turn.subscribed ⟨l, []⟩ id luck sub).Keeps none [sub] := by
  obtain ⟨hdropped, hlink⟩ := subscribed_link (t := ⟨l, []⟩) id sub hstop luck
  rw [Keeps, hdropped, hlink]
  exact (h.up hid hsub).finish.congr rfl rfl rfl rfl rfl

theorem goOn_keeps {s : Stage ρ} {o : Outcome ρ} (h : Sound none opened l) (hs : l.tasks.stage? id = some s)
    (hnew : ∀ n, s = .subscribing n → o ≠ .done) (now : Nat) (luck : Luck) :
    (Turn.goOn ⟨l, []⟩ id now luck s o).Keeps none opened := by
  have hturn : (⟨l, []⟩ : Turn ρ).Keeps none opened := h
  have hme : s.keeps = none → (⟨l, []⟩ : Turn ρ).Keeps (some id) opened := fun hk =>
    h.except (by rw [keptBy, hs, Option.bind_some, hk])
  unfold Turn.goOn
  split
  · exact (hme rfl).call now luck _
  · exact (hme rfl).park rfl rfl _
  · exact (hme rfl).connectFailed luck _
  · rename_i v
    have hversion := (hme rfl).change (fun l => { l with version := some v }) fun _ => ⟨rfl, rfl, rfl, rfl, rfl⟩
    exact hversion.park rfl rfl _
  · exact (hme rfl).connectFailed luck _
  · exact absurd rfl (hnew _ rfl)
  · exact (hme rfl).connectFailed luck _
  · exact (hme rfl).afterClose _
  · exact ((hme rfl).log _).afterClose _
  · exact (hme rfl).park rfl rfl _
  · exact ((hme rfl).enter _).connect luck
  · exact hturn.stay hs (.reading _) rfl rfl _
  · have hcount := hturn.change (fun l => { l with received := l.received + 1 }) fun _ => ⟨rfl, rfl, rfl, rfl, rfl⟩
    refine (hcount.spawn (s := .toProcess _) rfl rfl).stay (s := .reading _) ?_ _ rfl rfl _
    rw [spawn_link, change_link]
    exact Tasks.stage?_spawn_of_some h.ordered hs _
  · exact (hme rfl).readingEnded luck _
  · exact (hme rfl).readingEnded luck _
  · exact hturn.stay hs (.keeping _) rfl rfl _
  · exact hturn.stay hs (.pinging _) rfl rfl _
  · exact hturn.stay hs (.keeping _) rfl rfl _
  · have hcount := hturn.change (fun l => { l with pingFailures := l.pingFailures + 1 })
      fun _ => ⟨rfl, rfl, rfl, rfl, rfl⟩
    exact (hcount.log _).stay hs (.keeping _) rfl rfl _
  · exact (hme rfl).park rfl rfl _
  · have hcount := (hme rfl).change (fun l => { l with processed := l.processed + 1 })
      fun _ => ⟨rfl, rfl, rfl, rfl, rfl⟩
    exact hcount.finish _
  · have hcount := (hme rfl).change (fun l => { l with processingErrors := l.processingErrors + 1 })
      fun _ => ⟨rfl, rfl, rfl, rfl, rfl⟩
    exact (hcount.log _).finish _
  · exact hturn

end Turn

/-! ## Moves -/

/-- A subscription that is handed over ends the handshake of a task. -/
theorem Move.opens_cases {m : Move ρ} {n : Nat} (h : m.opens? l = some n) :
    ∃ id luck, l.tasks.stage? id = some (.subscribing n) ∧ m.turn l = Turn.subscribed ⟨l, []⟩ id luck n ∧
      m.ends? l = none := by
  rw [opens?] at h
  split at h
  · rename_i hgo
    cases h
    have hends : m.ends? l = none := by rw [ends?, hgo]
    cases m with
    | ask c => cases hgo
    | askAtOnce c now luck => cases hgo
    | resume id turn now luck o =>
      obtain ⟨-, hno⟩ | ⟨-, -, hno⟩ | ⟨s, hr, hs, hyes⟩ := resume_cases l id turn now luck o
      · rw [hno] at hgo
        cases hgo
      · rw [hno] at hgo
        cases hgo
      · rw [hyes] at hgo
        cases hgo
        exact ⟨id, luck, hs, hr, hends⟩
  · cases h

/-- A move keeps the description if no subscription is handed over. -/
theorem turn_keeps (m : Move ρ) (h : Sound none opened l) (hopens : m.opens? l = none) :
    (m.turn l).Keeps none opened := by
  have hturn : (⟨l, []⟩ : Turn ρ).Keeps none opened := h
  cases m with
  | ask c => exact hturn.spawn rfl rfl
  | askAtOnce c now luck =>
    have hspawn := h.spawn (s := .called c) rfl rfl
    have hstage : ({ l with tasks := l.tasks.spawn (.called c) } : Link ρ).keptBy l.tasks.next = none := by
      rw [keptBy, Tasks.stage?_spawn h.ordered, if_pos rfl]
      rfl
    exact (Turn.keeps_of_sound (hspawn.except hstage)).call now luck c
  | resume id turn now luck o =>
    rw [Move.turn]
    obtain ⟨hr, -⟩ | ⟨hr, hs, -⟩ | ⟨s, hr, hs, hgo⟩ := Move.resume_cases l id turn now luck o
    · rw [hr]
      exact hturn
    · rw [hr]
      have hme : l.keptBy id = none := by rw [keptBy, hs, Option.bind_none]
      exact (Turn.keeps_of_sound (h.except hme)).finish _
    · rw [hr]
      refine Turn.goOn_keeps h hs (fun n hn ho => ?_) now luck
      rw [Move.opens?, hgo, hn, ho] at hopens
      cases hopens

theorem step_sound (w : Watch ρ) (m : Move ρ) (h : Sound none w.opened w.link) (hm : ¬m.Overlaps w.link) :
    Sound none (w.step m).opened (w.step m).link := by
  cases hopens : m.opens? w.link with
  | none =>
    have hk := turn_keeps m (h.of_sublist (close_sublist (m.ends? w.link).toList w.opened)) hopens
    rw [Watch.step, hopens, Option.toList_none, List.append_nil]
    exact hk
  | some n =>
    obtain ⟨id, luck, hs, hturn, hends⟩ := Move.opens_cases hopens
    have hme : Sound (some id) w.opened w.link := h.except (by rw [keptBy, hs]; rfl)
    rw [Watch.step, hopens, hends, hturn]
    cases hstop : w.link.stopping with
    | true => exact Turn.subscribed_keeps hme hstop luck
    | false =>
      cases hsub : w.link.subscription with
      | some k => exact absurd ⟨by rw [hopens]; rfl, hstop, by rw [hsub]; rfl⟩ hm
      | none =>
        have hnil : w.opened = [] := List.eq_nil_iff_forall_not_mem.2 fun k hk => by
          have hcur := h.current k hk
          rw [hsub] at hcur
          cases hcur
        rw [hnil] at hme ⊢
        exact Turn.subscribed_takes hme (Tasks.lt_next_of_stage? h.ordered hs) hsub hstop luck

end PoolFeed.Link
