import PoolFeed.Proofs.Link.Steady

/-!
# After a stop

| here | there |
| --- | --- |
| `Final` | what `StreamConnectionManager.stop` leaves once it has returned, with every client closed and every subscription cancelled |

A service starts its link once and stops it once. Whenever the stop comes, be it in the middle of a handshake, while a
retry waits or while a client is closed, it is final: `stop_final` says that once it has returned the link is down
for good, that it asks for nothing any more, and that it has given back whatever it was given.
-/

namespace PoolFeed.Link

variable {ρ : Type} {l : Link ρ}

/-! ## Moves before the start -/

/-- A move that hands a subscription over lets a handshake go on. -/
theorem Move.opens?_eq_none {m : Move ρ} (h : ∀ n, m.goesOn? l ≠ some (.subscribing n, .done)) : m.opens? l = none := by
  rw [opens?]
  split
  · rename_i n hgo
    exact absurd hgo (h n)
  · rfl

/-- A call begins in a task of its own, which has been created before or is created now. -/
theorem Move.begins_cases {m : Move ρ} {c : Call} (hord : l.tasks.Ordered) (hbegins : m.begins? l = some c) :
    ∃ l' id now luck, m.turn l = Turn.call ⟨l', []⟩ id now luck c ∧ l'.tasks.stage? id = some (.called c) ∧
      (l' = l ∨ l' = { l with tasks := l.tasks.spawn (.called c) }) ∧ m.opens? l = none := by
  obtain ⟨c', -, -, hc⟩ | ⟨c', now, luck, hturn, hgo, hc⟩ | ⟨-, -, hc⟩ | ⟨id, -, -, -, hc⟩ |
    ⟨id, s, o, hs, hcourse, hgo, hc⟩ := m.turn_cases l
  · exact absurd (hbegins.symm.trans hc) nofun
  · cases hbegins.symm.trans hc
    refine ⟨_, _, now, luck, hturn, ?_, .inr rfl, opens?_eq_none (by rw [hgo]; nofun)⟩
    exact (Tasks.stage?_spawn hord _ _).trans (if_pos rfl)
  · exact absurd (hbegins.symm.trans hc) nofun
  · exact absurd (hbegins.symm.trans hc) nofun
  · obtain rfl := Stage.call?_eq_some (hc.symm.trans hbegins)
    generalize hturn : m.turn l = t at hcourse
    cases hcourse with
    | call c o now luck => exact ⟨l, id, now, luck, rfl, hs, .inl rfl, opens?_eq_none (by rw [hgo]; nofun)⟩
    | stay hnone => cases hnone
    | onward _ ho => cases ho
    | finish _ hp => rcases hp with hp | ⟨hp, -⟩ <;> cases hp
    | lose _ _ hp => rcases hp with hp | hp <;> cases hp

theorem Fresh.spawn (h : Fresh l) (c : Call) : Fresh { l with tasks := l.tasks.spawn (.called c) } where
  toManned := h.toManned.spawn nofun
  client := h.client
  subscription := h.subscription
  keeper := h.keeper
  callers id s hs := by
    obtain ⟨-, rfl⟩ | hold := Tasks.stage?_of_spawn h.ordered hs
    · rfl
    · exact h.callers id s hold

/-- Until a call begins nothing does. -/
theorem Fresh.move (h : Fresh l) {m : Move ρ} (hbegins : m.begins? l = none) :
    (m.turn l).Leaves (l.holdings.given (m.opens? l)) Fresh := by
  have hnone : m.goesOn? l = none → m.opens? l = none := fun hgo => Move.opens?_eq_none (by rw [hgo]; nofun)
  obtain ⟨c, hturn, hgo, -⟩ | ⟨c, now, luck, -, -, hc⟩ | ⟨hturn, hgo, -⟩ | ⟨id, -, hturn, hgo, -⟩ |
    ⟨id, s, o, hs, -, -, hc⟩ := m.turn_cases l
  · rw [hturn, hnone hgo, Holdings.given_none]
    exact (Turn.leaves_start h).of_eq (h.spawn c) (Turn.spawn_deeds _) rfl
  · rw [hc] at hbegins
    cases hbegins
  · rw [hturn, hnone hgo, Holdings.given_none]
    exact Turn.leaves_start h
  · rw [hturn, hnone hgo, Holdings.given_none]
    refine (Turn.leaves_start h).of_eq ?_ (Turn.finish_deeds id _) rfl
    exact ⟨h.toManned.erase id, h.client, h.subscription, h.keeper, fun i s hs =>
      h.callers i s (Tasks.stage?_of_erase hs).2⟩
  · have hpart := h.callers id s hs
    rw [hc] at hbegins
    cases s with
    | called c => cases hbegins
    | _ => cases hpart

/-- The start that begins first leaves a steady link. -/
theorem Fresh.begin (h : Fresh l) {m : Move ρ} (hbegins : m.begins? l = some .start) :
    (m.turn l).Leaves (l.holdings.given (m.opens? l)) Steady := by
  obtain ⟨l', id, now, luck, hturn, hs, hl', hopens⟩ := Move.begins_cases h.ordered hbegins
  rw [hturn, hopens, Holdings.given_none]
  rcases hl' with rfl | rfl
  · exact h.start hs now luck
  · exact (h.spawn .start).start hs now luck

/-! ## Moves between the start and the stop -/

theorem Steady.move (h : Steady l) {m : Move ρ} (hbegins : m.begins? l = none) :
    (m.turn l).Leaves (l.holdings.given (m.opens? l)) Steady := by
  cases hopens : m.opens? l with
  | some n =>
    obtain ⟨id, luck, hs, hturn, -⟩ := Move.opens_cases hopens
    rw [hturn]
    exact h.handedOver hs luck
  | none =>
    rw [Holdings.given_none]
    obtain ⟨c, hturn, -⟩ | ⟨c, now, luck, -, -, hc⟩ | ⟨hturn, -⟩ | ⟨id, -, hturn, -⟩ |
      ⟨id, s, o, hs, hcourse, hgo, hc⟩ := m.turn_cases l
    · rw [hturn]
      exact (Turn.leaves_start h).of_eq (h.spawn rfl nofun) (Turn.spawn_deeds _) rfl
    · rw [hc] at hbegins
      cases hbegins
    · rw [hturn]
      exact Turn.leaves_start h
    · rw [hturn]
      exact (Turn.leaves_start h).of_eq (h.erase id) (Turn.finish_deeds id _) rfl
    · refine hcourse.steady h hs (hc.symm.trans hbegins) fun n hn ho => ?_
      rw [Move.opens?, hgo, hn, ho] at hopens
      cases hopens

theorem Steady.halt (h : Steady l) {m : Move ρ} (hbegins : m.begins? l = some .stop) :
    (m.turn l).Leaves (l.holdings.given (m.opens? l)) Halted ∧
    ((m.turn l).link.state = .disconnected ∨ ∃ id n, (m.turn l).link.tasks.stage? id = some (.closing n .stop)) := by
  obtain ⟨l', id, now, luck, hturn, hs, hl', hopens⟩ := Move.begins_cases h.ordered hbegins
  have hsteady : Steady l' ∧ l'.holdings = l.holdings := by
    rcases hl' with rfl | rfl
    · exact ⟨h, rfl⟩
    · exact ⟨h.spawn rfl nofun, rfl⟩
  obtain ⟨hleaves, hstops⟩ := hsteady.1.stop hs luck
  rw [hturn, hopens, Holdings.given_none, ← hsteady.2]
  exact ⟨hleaves, hstops.imp_right fun ⟨n, hn⟩ => ⟨id, n, hn⟩⟩

/-! ## Moves after the stop -/

theorem Halted.move (h : Halted l) {m : Move ρ} (hbegins : m.begins? l = none) :
    (m.turn l).WindsDown l (l.holdings.given (m.opens? l)) ∧ (m.turn l).Settles l ∧
    ∀ n, m.opens? l = some n → .cancel n ∈ (m.turn l).actions := by
  cases hopens : m.opens? l with
  | some n =>
    obtain ⟨id, luck, hs, hturn, -⟩ := Move.opens_cases hopens
    rw [hturn]
    obtain ⟨hwinds, hsettles, hmem⟩ := Turn.windsDown_subscribed h hs luck
    exact ⟨hwinds, hsettles, fun k hk => Option.some.inj hk ▸ hmem⟩
  | none =>
    rw [Holdings.given_none]
    refine and_assoc.1 ⟨?_, nofun⟩
    have hstart := Turn.windsDown_start h
    obtain ⟨c, hturn, -⟩ | ⟨c, now, luck, -, -, hc⟩ | ⟨hturn, -⟩ | ⟨id, hid, hturn, -⟩ |
      ⟨id, s, o, hs, hcourse, hgo, hc⟩ := m.turn_cases l
    · rw [hturn]
      exact ⟨hstart.spawn c, (Turn.settles_start l).spawn h.ordered _⟩
    · rw [hc] at hbegins
      cases hbegins
    · rw [hturn]
      exact ⟨hstart, Turn.settles_start l⟩
    · rw [hturn]
      exact ⟨hstart.finish _, (Turn.settles_start l).finish (fun n => by rw [hid]; nofun) _⟩
    · refine hcourse.windsDown h hs (hc.symm.trans hbegins) fun n hn ho => ?_
      rw [Move.opens?, hgo, hn, ho] at hopens
      cases hopens

/-! ## Runs -/

/-- What the account of a run says as long as at most one start has begun, and after it one stop. -/
structure Custody.Orderly (w : Custody ρ) : Prop where
  fresh : w.calls = [] → Fresh w.link ∧ w.holdings = w.link.holdings
  steady : w.calls = [.start] → Steady w.link ∧ w.holdings = w.link.holdings
  halted : w.calls = [.start, .stop] → Halted w.link ∧ w.holdings = w.link.holdings ∧
    (w.link.state = .disconnected ∨ ∃ id n, w.link.tasks.stage? id = some (.closing n .stop))

theorem orderly_start (o : Options) (ls : List Listener) :
    Custody.Orderly ({ link := { options := o, listeners := ls } } : Custody ρ) where
  fresh _ := ⟨⟨⟨Tasks.ordered_empty, rfl, nofun, nofun⟩, rfl, rfl, rfl, nofun⟩, rfl⟩
  steady := nofun
  halted := nofun

theorem Turn.Leaves.step {w : Custody ρ} {m : Move ρ} {P : Link ρ → Prop}
    (h : (m.turn w.link).Leaves (w.link.holdings.given (m.opens? w.link)) P) (hheld : w.holdings = w.link.holdings) :
    P (w.step m).link ∧ (w.step m).holdings = (w.step m).link.holdings := by
  rw [← hheld] at h
  exact ⟨h.link, h.remembers⟩

theorem Custody.Orderly.step {w : Custody ρ} (h : w.Orderly) (m : Move ρ) : (w.step m).Orderly := by
  have hcalls : (w.step m).calls = w.calls ++ (m.begins? w.link).toList := rfl
  cases hbegins : m.begins? w.link with
  | none =>
    rw [hbegins, Option.toList_none, List.append_nil] at hcalls
    refine ⟨fun hc => ?_, fun hc => ?_, fun hc => ?_⟩
    · obtain ⟨hfresh, hheld⟩ := h.fresh (hcalls ▸ hc)
      exact (hfresh.move hbegins).step hheld
    · obtain ⟨hsteady, hheld⟩ := h.steady (hcalls ▸ hc)
      exact (hsteady.move hbegins).step hheld
    · obtain ⟨hhalted, hheld, hstops⟩ := h.halted (hcalls ▸ hc)
      obtain ⟨hwinds, hsettles, -⟩ := hhalted.move hbegins
      refine and_assoc.1 ⟨hwinds.leaves.step hheld, ?_⟩
      obtain hdown | ⟨hstate, hkept⟩ := hsettles
      · exact .inl hdown
      · exact hstops.imp (hstate.trans ·) fun ⟨id, n, hs⟩ => ⟨id, n, hkept id n hs⟩
  | some c =>
    rw [hbegins, Option.toList_some] at hcalls
    refine ⟨fun hc => ?_, fun hc => ?_, fun hc => ?_⟩
    · exact absurd (hcalls.symm.trans hc) (by simp)
    · have hsplit : w.calls ++ [c] = [] ++ [.start] := hcalls.symm.trans hc
      obtain ⟨hnil, hc⟩ := List.append_inj' hsplit rfl
      cases hc
      obtain ⟨hfresh, hheld⟩ := h.fresh hnil
      exact (hfresh.begin hbegins).step hheld
    · have hsplit : w.calls ++ [c] = [.start] ++ [.stop] := hcalls.symm.trans hc
      obtain ⟨hone, hc⟩ := List.append_inj' hsplit rfl
      cases hc
      obtain ⟨hsteady, hheld⟩ := h.steady hone
      obtain ⟨hleaves, hstops⟩ := hsteady.halt hbegins
      exact and_assoc.1 ⟨hleaves.step hheld, hstops⟩

/-- A run that goes on has begun the calls that it had begun. -/
theorem custody_calls_prefix (o : Options) (ls : List Listener) (moves more : List (Move ρ)) :
    (custody o ls moves).calls <+: (custody o ls (moves ++ more)).calls := by
  induction more using List.reverseRecOn with
  | nil => simp only [List.append_nil, List.prefix_refl]
  | append_singleton more m ih =>
    rw [← List.append_assoc, custody_concat]
    exact ih.trans (List.prefix_append _ _)

theorem custody_orderly (o : Options) (ls : List Listener) (moves : List (Move ρ)) : (custody o ls moves).Orderly := by
  induction moves using List.reverseRecOn with
  | nil => exact orderly_start o ls
  | append_singleton moves m ih =>
    rw [custody_concat]
    exact ih.step m

/-! ## Finality -/

/-- A stop waits for its client to be closed. -/
def Stage.stops : Stage ρ → Bool
  | .closing _ .stop => true
  | _ => false

/-- The link is down and has given back what it was given. It has asked for no client since an earlier moment and
received nothing; nobody reads, keeps alive or retries, and whatever happens next, if only no call begins, nobody will. A
subscription that is handed over after all is cancelled at once. -/
structure Final (earlier : Link ρ) (w : Custody ρ) : Prop where
  down : w.link.state = .disconnected
  clients : w.link.clients = earlier.clients
  received : w.link.received = earlier.received
  inflight : w.link.inflight ≤ earlier.inflight
  retry : w.link.retry = none
  vacant : w.link.tasks.standing Stage.works = []
  returned : w.holdings = {}
  rests : ∀ m : Move ρ, m.begins? w.link = none → ∀ a ∈ (m.turn w.link).actions, a.works = false
  refuses : ∀ (m : Move ρ) n, m.opens? w.link = some n → .cancel n ∈ (m.turn w.link).actions

theorem Move.begins?_of_opens? {m : Move ρ} {n : Nat} (h : m.opens? l = some n) : m.begins? l = none := by
  rw [opens?] at h
  split at h
  · rename_i hgo
    cases m with
    | ask | askAtOnce => cases hgo
    | resume task turn now luck o =>
      show ((Move.resume task turn now luck o).goesOn? l).bind (·.1.call?) = none
      rw [hgo]
      rfl
  · cases h

/-- A halted link that is down has come to its end. -/
theorem Custody.Orderly.final {w : Custody ρ} (h : w.Orderly) (hcalls : w.calls = [.start, .stop])
    (hdown : w.link.state = .disconnected) {earlier : Link ρ} (hclients : w.link.clients = earlier.clients)
    (hreceived : w.link.received = earlier.received) (hinflight : w.link.inflight ≤ earlier.inflight) :
    Final earlier w := by
  obtain ⟨hhalted, hheld, -⟩ := h.halted hcalls
  refine ⟨hdown, hclients, hreceived, hinflight, hhalted.retry, hhalted.vacant.standing hhalted.ordered,
    hheld.trans hhalted.holdings, fun m hm => ?_, fun m n hn => ?_⟩
  · exact (Turn.lacks_iff fun _ => Action.not_works_of_isPlain).1 (hhalted.move hm).1.rests
  · exact (hhalted.move (Move.begins?_of_opens? hn)).2.2 n hn

/-- **A stop is final.** If in a run one start begins and then, at whatever moment, one stop, then from the moment on at
which the stop has returned the link is down, asks for no client, receives no record and sends no ping; no retry
is pending; every client that was ever created has been closed, and every subscription that was ever handed over has
been cancelled. -/
theorem stop_final (o : Options) (ls : List Listener) (moves more : List (Move ρ))
    (hstopped : (custody o ls moves).calls = [.start, .stop])
    (hreturned : (custody o ls moves).link.tasks.standing Stage.stops = [])
    (honly : (custody o ls (moves ++ more)).calls = [.start, .stop]) :
    Final (custody o ls moves).link (custody o ls (moves ++ more)) := by
  induction more using List.reverseRecOn with
  | nil =>
    rw [List.append_nil]
    have horderly := custody_orderly o ls moves
    obtain ⟨-, -, hdown | ⟨id, n, hstands⟩⟩ := horderly.halted hstopped
    · exact horderly.final hstopped hdown rfl rfl (Nat.le_refl _)
    · obtain ⟨task, hmem, -⟩ := Tasks.mem_standing (p := Stage.stops) hstands rfl
      rw [hreturned] at hmem
      cases hmem
  | append_singleton more m ih =>
    rw [← List.append_assoc, custody_concat] at honly ⊢
    have hcalls : (custody o ls (moves ++ more)).calls = [.start, .stop] := by
      have hbefore := hstopped ▸ custody_calls_prefix o ls moves more
      have hafter : (custody o ls (moves ++ more)).calls <+: [.start, .stop] := honly ▸ List.prefix_append _ _
      exact hafter.eq_of_length (Nat.le_antisymm hafter.length_le hbefore.length_le)
    have hbegins : m.begins? (custody o ls (moves ++ more)).link = none := by
      have hnone : (custody o ls (moves ++ more)).calls ++ (m.begins? (custody o ls (moves ++ more)).link).toList =
          (custody o ls (moves ++ more)).calls := honly.trans hcalls.symm
      simpa using hnone
    have hfinal := ih hcalls
    have horderly := custody_orderly o ls (moves ++ more)
    obtain ⟨hwinds, hsettles, -⟩ := (horderly.halted hcalls).1.move hbegins
    refine (horderly.step m).final honly ?_ ?_ ?_ ?_
    · exact hsettles.elim id fun hstate => hstate.1.trans hfinal.down
    · exact hwinds.clients.trans hfinal.clients
    · exact hwinds.received.trans hfinal.received
    · exact Nat.le_trans hwinds.inflight hfinal.inflight

/-- A stop comes in the middle of the first handshake and returns before it. -/
def stopWhileOpening : List (Move Unit) :=
  [.askAtOnce .start 0 {}, .resume 0 1 0 {} .done, .askAtOnce .stop 0 {}, .resume 1 1 0 {} .done]

/-- The handshake goes on, and is handed a subscription. -/
def handshakeAfterStop : List (Move Unit) := [.resume 0 2 0 {} (.version "v"), .resume 0 3 0 {} .done]

theorem final_stopWhileOpening :
    (custody { programs := [] } [] stopWhileOpening).calls = [.start, .stop] ∧
    (custody { programs := [] } [] stopWhileOpening).link.tasks.standing Stage.stops = [] ∧
    (custody { programs := [] } [] (stopWhileOpening ++ handshakeAfterStop)).calls = [.start, .stop] ∧
    Final (custody { programs := [] } [] stopWhileOpening).link
      (custody { programs := [] } [] (stopWhileOpening ++ handshakeAfterStop)) := by
  have hstopped : (custody { programs := [] } [] stopWhileOpening).calls = [.start, .stop] := by decide +kernel
  have hreturned : (custody { programs := [] } [] stopWhileOpening).link.tasks.standing Stage.stops = [] := by
    decide +kernel
  have honly : (custody { programs := [] } [] (stopWhileOpening ++ handshakeAfterStop)).calls = [.start, .stop] := by
    decide +kernel
  exact ⟨hstopped, hreturned, honly, stop_final _ _ _ _ hstopped hreturned honly⟩

end PoolFeed.Link
