import PoolFeed.Proofs.Link.Finality
import PoolFeed.Proofs.Link.Phases

/-!
# A link that is left to itself

A service asks its link for a connection once and then leaves it to itself. Whatever a task then comes to, the link goes
from phase to phase (`Phased.move`), and so it stays in the phase that its state names, however long the run
(`annals_lawful`).
-/

namespace PoolFeed.Link

variable {ρ : Type} {l : Link ρ} {me n : Nat}

/-! ## Steady links in a phase -/

/-- A steady link in the phase that its state names, after some answers. -/
structure Phased (n : Nat) (l : Link ρ) : Prop extends Steady l where
  phase : Phase l l.state
  tally : Tally n l

theorem Turn.Noted.phased {u : Turn ρ} (hu : u.Noted l) (hl : Phased n l) : Phased n u.link := by
  obtain ⟨-, v, p, e, f, hlink⟩ := hu
  rw [hlink]
  exact { hl with phase := hl.phase.congr (fun _ => rfl) rfl rfl rfl, tally := { hl.tally with } }

/-- The duty of the task that drives the link is the one that the state shows. -/
theorem Phased.shows (hl : Phased n l) {s : Stage ρ} (hs : l.tasks.stage? me = some s) (hdrives : s.drives) :
    ∃ d, s.duty? = some d ∧ d.shows? = some l.state :=
  hl.phase.shows (hl.toSteady.alone hs hdrives).1 hs hdrives

theorem Phased.handshake (hl : Phased n l) {s : Stage ρ} (hs : l.tasks.stage? me = some s) (hp : s.part = .handshake) :
    l.state = .connecting := by
  obtain ⟨d, hd, hshows⟩ := hl.shows hs (Stage.drives_of_part hp rfl)
  cases s with
  | opening | greeting | subscribing => cases hd; exact (Option.some.inj hshows).symm
  | _ => cases hp

theorem Phased.closing (hl : Phased n l) {client : Nat} {next : AfterClose}
    (hs : l.tasks.stage? me = some (.closing client next)) : next = .teardown ∧ l.state = .reconnecting := by
  obtain ⟨d, hd, hshows⟩ := hl.shows hs rfl
  cases hd
  cases next with
  | teardown => exact ⟨rfl, (Option.some.inj hshows).symm⟩
  | abandoned | stop => cases hshows

theorem Phased.retry (hl : Phased n l) {s : Stage ρ} (hs : l.tasks.stage? me = some s) (hp : s.part = .retry) :
    l.state = .reconnecting := by
  obtain ⟨d, hd, hshows⟩ := hl.shows hs (Stage.drives_of_part hp rfl)
  cases s with
  | toRetry | pausing => cases hd; exact (Option.some.inj hshows).symm
  | _ => cases hp

theorem Phased.reader (hl : Phased n l) {s : Stage ρ} (hs : l.tasks.stage? me = some s) (hp : s.part = .reader) :
    l.state = .connected ∧ l.keeper ≠ some me ∧ 0 < l.connections := by
  have hdrives : s.drives := Stage.drives_of_part hp rfl
  have hstate : l.state = .connected := by
    obtain ⟨d, hd, hshows⟩ := hl.shows hs hdrives
    cases s with
    | toRead | reading => cases hd; exact (Option.some.inj hshows).symm
    | _ => cases hp
  have hphase := hl.phase
  rw [hstate] at hphase
  exact ⟨hstate, hphase.connected hs hdrives⟩

/-- Nobody drives a link that is down. -/
theorem Phased.up (hl : Phased n l) {s : Stage ρ} (hs : l.tasks.stage? me = some s) (hdrives : s.drives) :
    l.state ≠ .disconnected := by
  intro hdown
  obtain ⟨d, -, hshows⟩ := hl.shows hs hdrives
  rw [hdown] at hshows
  cases d with
  | close next => cases next <;> cases hshows
  | _ => cases hshows

/-- Somebody drives a link that is not down. -/
theorem Phased.driven (hl : Phased n l) (hstate : l.state ≠ .disconnected) :
    ∃ id s, l.tasks.stage? id = some s ∧ s.drives := by
  have hduty : ∀ {id d}, l.duty? id = some d → d.drives → ∃ id s, l.tasks.stage? id = some s ∧ s.drives := by
    intro id d hd hdrives
    obtain ⟨s, hs, hsd⟩ := Option.bind_eq_some_iff.1 hd
    exact ⟨id, s, hs, Stage.drives_of_duty? hsd hdrives⟩
  have hphase := hl.phase
  generalize l.state = st at hphase hstate
  cases hphase with
  | shaking h => exact hduty h rfl
  | up _ _ hread => exact hduty hread rfl
  | falling h => exact hduty h rfl
  | waiting h => exact hduty h rfl
  | down => exact absurd rfl hstate

/-- The count is of no account once a connection has come up. -/
theorem Tally.of_up {k : Nat} (h : Tally n l) (hpos : 0 < l.connections) : Tally k l :=
  ⟨h.within, fun hnone => absurd hnone (Nat.ne_of_gt hpos), fun hnone => absurd hnone (Nat.ne_of_gt hpos)⟩

/-! ## Going on -/

theorem Stage.Onward.left {s s' : Stage ρ} {r : Request ρ} (h : s.Onward s' r) (hdrives : s.drives)
    (hreader : s.part ≠ .reader) : s'.left + 1 = s.left := by
  cases h with
  | greet | subscribe | pause => rfl
  | read => exact absurd rfl hreader
  | keep | ping | pinged | process => cases hdrives

/-- An answer brings a task that drives the link closer to its end. -/
theorem Phased.tally_onward (hl : Phased n l) {s s' : Stage ρ} {r : Request ρ} (hs : l.tasks.stage? me = some s)
    (ho : s.Onward s' r) (hdrives : s.drives) : Tally (n + 1) { l with tasks := l.tasks.advance me s' } := by
  refine ⟨hl.tally.within, fun hnone i u hu hud => ?_, fun _ hdown => absurd hdown (hl.up hs hdrives)⟩
  obtain ⟨-, rfl⟩ | ⟨hi, hother⟩ := Tasks.stage?_of_advance hu
  · have hreader : s.part ≠ .reader := fun hp => absurd hnone (Nat.ne_of_gt (hl.reader hs hp).2.2)
    have hone := ho.left hdrives hreader
    obtain ⟨hclients, hleft⟩ := hl.tally.trying hnone me s hs hdrives
    have hahead : u.ahead = s.ahead := by rw [Stage.ahead, Stage.ahead, ho.part]
    refine ⟨hahead ▸ hclients, ?_⟩
    show n + 1 + u.left ≤ 6 * (l.retries + 1)
    omega
  · rw [(hl.toSteady.alone hs hdrives).1.vacant i u (fun e => hi (Option.some.inj e).symm) hother] at hud
    cases hud

section
variable {u : Turn ρ} {ls : List Listener} {st : LinkState} {k : Nat} {s : Stage ρ}

/-- Tasks may be exchanged for others with the same duties. -/
theorem Phased.lands_retask {t : Turn ρ} (ts : Tasks (Stage ρ)) (hl : Phased n u.link) (htold : u.Told ls st)
    (hlink : t.link = { u.link with tasks := ts }) (hduty : ∀ i, (ts.stage? i).bind Stage.duty? = u.link.duty? i)
    (hreports : t.reports = u.reports) (htally : Tally k { u.link with tasks := ts }) : t.Lands ls st k := by
  refine ⟨?_, htold.quiet ?_ ?_ hreports, ?_⟩
  · rw [hlink]
    exact hl.phase.congr hduty rfl rfl rfl
  · rw [hlink]
  · rw [hlink]
  · rw [hlink]
    exact htally

/-- A task that drives the link waits for something else: that was an answer. -/
theorem Phased.lands_onward {s' : Stage ρ} {r : Request ρ} (hl : Phased n u.link) (htold : u.Told ls st)
    (hs : u.link.tasks.stage? me = some s) (ho : s.Onward s' r) (hdrives : s.drives) :
    (u.park me s' r).Lands ls st (n + 1) :=
  hl.lands_retask (u.link.tasks.advance me s') htold rfl (Tasks.role_advance hs ho.duty?) (Turn.park_reports me s' r)
    (hl.tally_onward hs ho hdrives)

/-- Another task waits for something else. -/
theorem Phased.lands_aside {s' : Stage ρ} {r : Request ρ} (hl : Phased n u.link) (htold : u.Told ls st)
    (hs : u.link.tasks.stage? me = some s) (ho : s.Onward s' r) (hdrives : s.drives = false) :
    (u.park me s' r).Lands ls st n := by
  refine hl.lands_retask (u.link.tasks.advance me s') htold rfl (Tasks.role_advance hs ho.duty?)
    (Turn.park_reports me s' r) (hl.tally.exchange fun i v hv hvd => ?_)
  obtain ⟨-, rfl⟩ | ⟨-, hold⟩ := Tasks.stage?_of_advance hv
  · rw [Stage.drives, ho.part] at hvd
    exact absurd (hdrives.symm.trans hvd) Bool.false_ne_true
  · exact hold

/-- A task that has no duty ends. -/
theorem Phased.lands_finish (hl : Phased n u.link) (htold : u.Told ls st) (hs : u.link.tasks.stage? me = some s)
    (hduty : s.duty? = none) (e : Ending) : (u.finish me e).Lands ls st n := by
  have hnone : (u.link.tasks.stage? me).bind Stage.duty? = none := by rw [hs, Option.bind_some, hduty]
  exact hl.lands_retask (u.link.tasks.erase me) htold rfl (Tasks.role_erase hnone) (Turn.finish_reports me e)
    (hl.tally.exchange fun i v hv _ => (Tasks.stage?_of_erase hv).2)

/-- The task that drives the link takes it through its states. -/
theorem Phased.trying (hl : Phased n u.link) (htold : u.Told ls st) (hs : u.link.tasks.stage? me = some s)
    (hdrives : s.drives) (hcount : u.link.connections = 0 → s.ahead = 1 ∧ k ≤ n + s.left) : u.Trying me ls st k where
  alone := (hl.toSteady.alone hs hdrives).1
  stands := ⟨s, hs⟩
  told := htold
  within := hl.tally.within
  tried hnone := by
    obtain ⟨hclients, hleft⟩ := hl.tally.trying hnone me s hs hdrives
    obtain ⟨hahead, hk⟩ := hcount hnone
    exact ⟨hahead ▸ hclients, Nat.le_trans hk hleft⟩

/-- A handshake that fails takes the link down. -/
theorem Phased.lands_shaken (hl : Phased n u.link) (htold : u.Told ls st) (hs : u.link.tasks.stage? me = some s)
    (hp : s.part = .handshake) (luck : Luck) : (u.tearDown me luck).Lands ls st (n + 1) := by
  have hdrives : s.drives := Stage.drives_of_part hp rfl
  have hcount : s.ahead = 1 ∧ n + 1 + 1 ≤ n + s.left := by
    cases s with
    | opening | greeting | subscribing => exact ⟨rfl, by simp [Stage.left]⟩
    | _ => cases hp
  have hkeeper := hp ▸ (hl.toSteady.alone hs hdrives).2
  refine (hl.trying htold hs hdrives fun _ => hcount).tearDown ?_ (.inl (hl.handshake hs hp)) luck
  rw [hkeeper.2]
  nofun

/-- A reader that loses its connection takes the link down. -/
theorem Phased.lands_lost (hl : Phased n u.link) (htold : u.Told ls st) (hs : u.link.tasks.stage? me = some s)
    (hp : s.part = .reader) (luck : Luck) : (u.tearDown me luck).Lands ls st (n + 1) := by
  obtain ⟨hstate, hkeeper, hpos⟩ := hl.reader hs hp
  exact (hl.trying htold hs (Stage.drives_of_part hp rfl) fun hnone => absurd hnone (Nat.ne_of_gt hpos)).tearDown
    hkeeper (.inr hstate) luck

/-- The client is closed, and a retry is arranged or the link gives up. -/
theorem Phased.lands_closed {client : Nat} {next : AfterClose} (hl : Phased n u.link) (htold : u.Told ls st)
    (hs : u.link.tasks.stage? me = some (.closing client next)) : (u.afterClose me next).Lands ls st (n + 1) := by
  obtain ⟨rfl, hstate⟩ := hl.closing hs
  obtain ⟨-, hsub, hkeeper, -⟩ := hl.toSteady.alone hs rfl
  exact (hl.trying htold hs rfl fun _ => ⟨rfl, Nat.le_refl _⟩).rest hsub hkeeper hstate

end

/-- A record that is read is handed to a task of its own. -/
theorem Phased.lands_record (hl : Phased n l) {sub : Nat} (hs : l.tasks.stage? me = some (.reading sub))
    (r : Incoming ρ) : (Turn.recordRead ⟨l, []⟩ me sub r).Lands l.listeners l.state (n + 1) := by
  have hcounted : Phased n { l with received := l.received + 1 } :=
    { hl with phase := hl.phase.congr (fun _ => rfl) rfl rfl rfl, tally := { hl.tally with } }
  have hup : Tally (n + 1) l := hl.tally.of_up (hl.reader hs rfl).2.2
  have hstands := Tasks.stage?_spawn_of_some hl.ordered hs (.toProcess r)
  refine hcounted.lands_retask ((l.tasks.spawn (.toProcess r)).advance me (.reading sub))
    (u := Turn.change ⟨l, []⟩ fun l => { l with received := l.received + 1 })
    ((Turn.told_start l).quiet rfl rfl rfl) rfl (fun i => ?_) ?_ ?_
  · rw [Tasks.role_advance hstands rfl, Tasks.role_spawn hl.ordered rfl]
    rfl
  · rw [Turn.recordRead, Turn.park_reports, Turn.spawn_reports]
  · exact ⟨hup.within, fun hnone => absurd hnone (Nat.ne_of_gt (hl.reader hs rfl).2.2), hup.gaveUp⟩

/-- A retry that is due dials again. -/
theorem Phased.lands_retry (hl : Phased n l) (hs : l.tasks.stage? me = some .pausing) (luck : Luck) :
    ((Turn.enter ⟨l, []⟩ .disconnected).connect me luck).Lands l.listeners l.state (n + 1) := by
  obtain ⟨ha, hsub, hkeeper, -⟩ := hl.toSteady.alone hs rfl
  have hrest : Change l.state .disconnected := by
    rw [hl.retry hs rfl]
    exact .rest
  refine Turn.lands_connect ?_ ⟨.pausing, ?_⟩ ((Turn.told_start l).enter hrest) ?_ ?_ ?_ luck
  · rw [Turn.enter_link]
    exact { ha with subscription := hsub, keeper := hkeeper }
  · rw [Turn.enter_link]
    exact hs
  · rw [Turn.enter_link]
  · rw [Turn.enter_link]
    exact hl.tally.within
  · rw [Turn.enter_link]
    exact fun hnone => hl.tally.trying hnone me _ hs rfl

/-- What a task comes to in a phase that goes on, except that a call begins. -/
theorem Course.lands {s : Stage ρ} {o : Outcome ρ} {t : Turn ρ} (h : Course l me s o t) (hl : Phased n l)
    (hs : l.tasks.stage? me = some s) (hcall : s.call? = none) :
    t.Lands l.listeners l.state (n + if s.drives && !t.actions.isEmpty then 1 else 0) := by
  have hidle : ∀ {u : Turn ρ}, s.drives = false → u.Lands l.listeners l.state n →
      u.Lands l.listeners l.state (n + if s.drives && !u.actions.isEmpty then 1 else 0) := by
    intro u hd hu
    simpa [hd] using hu
  have hdriven : ∀ {u : Turn ρ}, u.Lands l.listeners l.state (n + 1) →
      u.Lands l.listeners l.state (n + if s.drives && !u.actions.isEmpty then 1 else 0) := by
    intro u hu
    refine hu.mono ?_
    split <;> omega
  have hnoted : ∀ {u : Turn ρ}, u.Noted l → u.Told l.listeners l.state ∧ Phased n u.link ∧
      u.link.tasks.stage? me = some s := fun hu => ⟨hu.told, hu.phased hl, hu.tasks.symm ▸ hs⟩
  cases h with
  | stay =>
    have hstart : (⟨l, []⟩ : Turn ρ).Lands l.listeners l.state n := ⟨hl.phase, Turn.told_start l, hl.tally⟩
    simpa using hstart
  | onward hu ho =>
    obtain ⟨htold, hphased, hstands⟩ := hnoted hu
    cases hd : s.drives with
    | true => exact hd ▸ hdriven (hphased.lands_onward htold hstands ho hd)
    | false => exact hd ▸ hidle hd (hphased.lands_aside htold hstands ho hd)
  | finish hu hp =>
    obtain ⟨htold, hphased, hstands⟩ := hnoted hu
    obtain hp | ⟨-, hstopping⟩ := hp
    · have hduty : s.drives = false ∧ s.duty? = none := by
        cases s with
        | toProcess | processing => exact ⟨rfl, rfl⟩
        | _ => cases hp
      exact hidle hduty.1 (hphased.lands_finish htold hstands hduty.2 .finished)
    · cases hl.going.symm.trans hstopping
  | record sub r => exact hdriven (hl.lands_record hs r)
  | lose luck hu hp =>
    obtain ⟨htold, hphased, hstands⟩ := hnoted hu
    rcases hp with hp | hp
    · exact hdriven (hphased.lands_shaken htold hstands hp luck)
    · exact hdriven (hphased.lands_lost htold hstands hp luck)
  | handedOver client luck =>
    exact hdriven
      (Turn.lands_subscribed (hl.toSteady.alone hs rfl).1 (Turn.told_start l) (hl.handshake hs rfl) luck client)
  | closed hu =>
    obtain ⟨htold, hphased, hstands⟩ := hnoted hu
    exact hdriven (hphased.lands_closed htold hstands)
  | retry o luck => exact hdriven (hl.lands_retry hs luck)
  | call => cases hcall

/-! ## Moves -/

/-- How many answers a move gives to a task that drives the link. -/
def Move.answers (l : Link ρ) (m : Move ρ) : Nat :=
  match m.goesOn? l with
  | some (s, _) => if s.drives && !(m.turn l).actions.isEmpty then 1 else 0
  | none => 0

theorem Move.answers_of_begins {m : Move ρ} {c : Call} (h : m.begins? l = some c) : m.answers l = 0 := by
  rw [Move.answers]
  split
  · rename_i s o hgo
    have hcalled : s.call? = some c := by
      cases m with
      | ask | askAtOnce => cases hgo
      | resume task turn now luck o' =>
        have hbegins : ((Move.resume task turn now luck o').goesOn? l).bind (·.1.call?) = some c := h
        rwa [hgo] at hbegins
    rw [Stage.call?_eq_some hcalled]
    rfl
  · rfl

theorem Phased.move (hl : Phased n l) {m : Move ρ} (hbegins : m.begins? l = none) :
    (m.turn l).Lands l.listeners l.state (n + m.answers l) := by
  have hstart : (⟨l, []⟩ : Turn ρ).Told l.listeners l.state := Turn.told_start l
  have hnone : m.goesOn? l = none → n + m.answers l = n := fun hgo => by rw [Move.answers, hgo, Nat.add_zero]
  obtain ⟨c, hturn, hgo, -⟩ | ⟨c, now, luck, -, -, hc⟩ | ⟨hturn, hgo, -⟩ | ⟨id, hid, hturn, hgo, -⟩ |
    ⟨id, s, o, hs, hcourse, hgo, hc⟩ := m.turn_cases l
  · rw [hnone hgo, hturn]
    refine hl.lands_retask (u := ⟨l, []⟩) (l.tasks.spawn (.called c)) hstart rfl (Tasks.role_spawn hl.ordered rfl)
      (Turn.spawn_reports _) (hl.tally.exchange fun i s hs hdrives => ?_)
    obtain ⟨-, rfl⟩ | hold := Tasks.stage?_of_spawn hl.ordered hs
    · cases hdrives
    · exact hold
  · exact absurd (hbegins.symm.trans hc) nofun
  · rw [hnone hgo, hturn]
    exact ⟨hl.phase, hstart, hl.tally⟩
  · have hduty : (l.tasks.stage? id).bind Stage.duty? = none := by rw [hid, Option.bind_none]
    rw [hnone hgo, hturn]
    exact hl.lands_retask (u := ⟨l, []⟩) (l.tasks.erase id) hstart rfl (Tasks.role_erase hduty)
      (Turn.finish_reports id _) (hl.tally.exchange fun i s hs _ => (Tasks.stage?_of_erase hs).2)
  · have hlands := hcourse.lands hl hs (hc.symm.trans hbegins)
    rwa [Move.answers, hgo]

/-! ## The first connection -/

/-- Before the first call begins nothing but tasks of callers come up. -/
theorem Fresh.rests (hl : Fresh l) {m : Move ρ} (hbegins : m.begins? l = none) :
    m.answers l = 0 ∧ (m.turn l).reports = [] ∧ ∃ ts, (m.turn l).link = { l with tasks := ts } := by
  have hnone : m.goesOn? l = none → m.answers l = 0 := fun hgo => by rw [Move.answers, hgo]
  obtain ⟨c, hturn, hgo, -⟩ | ⟨c, now, luck, -, -, hc⟩ | ⟨hturn, hgo, -⟩ | ⟨id, -, hturn, hgo, -⟩ |
    ⟨id, s, o, hs, -, -, hc⟩ := m.turn_cases l
  · rw [hturn]
    exact ⟨hnone hgo, Turn.spawn_reports _, _, rfl⟩
  · exact absurd (hbegins.symm.trans hc) nofun
  · rw [hturn]
    exact ⟨hnone hgo, rfl, l.tasks, rfl⟩
  · rw [hturn]
    exact ⟨hnone hgo, Turn.finish_reports id _, _, rfl⟩
  · obtain ⟨c, rfl⟩ : ∃ c, s = .called c := by
      have hpart := hl.callers id s hs
      cases s with
      | called c => exact ⟨c, rfl⟩
      | _ => cases hpart
    exact absurd (hbegins.symm.trans hc) nofun

/-- A call that asks for a connection. -/
def Call.asks (c : Call) : Prop := c = .start ∨ c = .connect

/-- The first call that begins asks for the first client. -/
theorem Fresh.dials {o : Options} {ls : List Listener} {ts : Tasks (Stage ρ)} {c : Call}
    (hl : Fresh ({ options := o, listeners := ls, tasks := ts } : Link ρ)) (hc : c.asks)
    (hs : ts.stage? me = some (.called c)) (now : Nat) (luck : Luck) :
    Steady (Turn.call ⟨{ options := o, listeners := ls, tasks := ts }, []⟩ me now luck c).link ∧
    (Turn.call ⟨{ options := o, listeners := ls, tasks := ts }, []⟩ me now luck c).Lands ls .disconnected 0 := by
  have hstart := Turn.told_start ({ options := o, listeners := ls, tasks := ts } : Link ρ)
  have hfirst : 0 + 4 ≤ 6 * (0 + 1) := by decide
  rcases hc with rfl | rfl
  · refine ⟨(hl.start hs now luck).link, ?_⟩
    obtain ⟨hup, -⟩ | ⟨u, component, b, hturn, hlink, hb, hnotes⟩ :=
      (⟨{ options := o, listeners := ls, tasks := ts }, []⟩ : Turn ρ).start_cases me now luck
    · exact absurd rfl hup
    · rw [Turn.call, hturn]
      refine Turn.lands_connect ?_ ⟨.called .start, ?_⟩ (hstart.quiet ?_ ?_ hnotes.reports) ?_ ?_ (fun _ => ?_) luck
      · rw [hlink, hb hl.going]
        exact { hl.down hs with going := rfl }
      · rw [hlink]
        exact hs
      · rw [hlink]
      · rw [hlink]
      · rw [hlink]
      · rw [hlink]
        exact Nat.zero_le _
      · rw [hlink]
        exact ⟨rfl, hfirst⟩
  · exact ⟨(hl.connect hs luck).link, Turn.lands_connect (t := ⟨_, []⟩) (hl.down hs) ⟨_, hs⟩ hstart rfl (Nat.zero_le _)
      (fun _ => ⟨rfl, hfirst⟩) luck⟩

/-! ## Runs -/

/-- An account of a run: what it has in its keeping, what it has told its listeners, and how often a task that drives
the link has got an answer. -/
structure Annals (ρ : Type) extends Custody ρ where
  reports : List Report := []
  answers : Nat := 0

def Annals.step (w : Annals ρ) (m : Move ρ) : Annals ρ where
  toCustody := w.toCustody.step m
  reports := w.reports ++ (m.turn w.link).reports
  answers := w.answers + m.answers w.link

/-- The account of a run of a new link. -/
def annals (o : Options) (ls : List Listener) (moves : List (Move ρ)) : Annals ρ :=
  moves.foldl Annals.step { link := { options := o, listeners := ls } }

theorem annals_concat (o : Options) (ls : List Listener) (moves : List (Move ρ)) (m : Move ρ) :
    annals o ls (moves ++ [m]) = (annals o ls moves).step m := by
  simp only [annals, List.foldl_append, List.foldl_cons, List.foldl_nil]

theorem annals_custody (o : Options) (ls : List Listener) (moves : List (Move ρ)) :
    (annals o ls moves).toCustody = custody o ls moves := by
  induction moves using List.reverseRecOn with
  | nil => rfl
  | append_singleton moves m ih =>
    rw [annals_concat, custody_concat, ← ih]
    rfl

/-- What the account says as long as at most one call has begun, one that asks for a connection. -/
structure Annals.Lawful (o : Options) (ls : List Listener) (w : Annals ρ) : Prop where
  fresh : w.calls = [] → Fresh w.link ∧ (∃ ts, w.link = { options := o, listeners := ls, tasks := ts }) ∧
    w.reports = [] ∧ w.answers = 0
  begun : ∀ c, c.asks → w.calls = [c] → Phased w.answers w.link ∧ w.link.listeners = ls ∧
    ∃ path, Path .disconnected path w.link.state ∧ w.reports = Link.reports ls path

/-- A move that begins no call. -/
theorem Annals.Lawful.goOn {o : Options} {ls : List Listener} {w : Annals ρ} (h : w.Lawful o ls) {m : Move ρ}
    (hbegins : m.begins? w.link = none) : (w.step m).Lawful o ls := by
  have hcalls : (w.step m).calls = w.calls := by
    show w.calls ++ (m.begins? w.link).toList = _
    rw [hbegins, Option.toList_none, List.append_nil]
  refine ⟨fun hc => ?_, fun c hasks hc => ?_⟩
  · obtain ⟨hfresh, ⟨ts, hlink⟩, hreports, hanswers⟩ := h.fresh (hcalls ▸ hc)
    obtain ⟨hnone, hquiet, ts', hlink'⟩ := hfresh.rests hbegins
    refine ⟨(hfresh.move hbegins).link, ⟨ts', ?_⟩, ?_, ?_⟩
    · show (m.turn w.link).link = _
      rw [hlink', hlink]
    · show w.reports ++ (m.turn w.link).reports = []
      rw [hreports, hquiet]
      rfl
    · show w.answers + m.answers w.link = 0
      rw [hanswers, hnone]
  · obtain ⟨hphased, hls, path, hpath, hreports⟩ := h.begun c hasks (hcalls ▸ hc)
    have hlands := hphased.move hbegins
    rw [hls] at hlands
    obtain ⟨hls', path', hpath', hreports'⟩ := hlands.told
    refine ⟨⟨(hphased.toSteady.move hbegins).link, hlands.phase, hlands.tally⟩, hls', path ++ path',
      hpath.append hpath', ?_⟩
    show w.reports ++ (m.turn w.link).reports = _
    rw [hreports, hreports', reports_append]

/-- A move that begins a call, the first one if it is to count. -/
theorem Annals.Lawful.begin {o : Options} {ls : List Listener} {w : Annals ρ} (h : w.Lawful o ls) {m : Move ρ} {c : Call}
    (hbegins : m.begins? w.link = some c) : (w.step m).Lawful o ls := by
  have hcalls : (w.step m).calls = w.calls ++ [c] := by
    show w.calls ++ (m.begins? w.link).toList = _
    rw [hbegins, Option.toList_some]
  refine ⟨fun hc => absurd (hcalls.symm.trans hc) (by simp), fun c' hasks hc => ?_⟩
  have hsplit : w.calls ++ [c] = [] ++ [c'] := hcalls.symm.trans hc
  obtain ⟨hnil, hone⟩ := List.append_inj' hsplit rfl
  cases hone
  obtain ⟨hfresh, ⟨ts, hlink⟩, hreports, hanswers⟩ := h.fresh hnil
  obtain ⟨l', id, now, luck, hturn, hs, hl', -⟩ := Move.begins_cases hfresh.ordered hbegins
  obtain ⟨ts', rfl, hfresh'⟩ : ∃ ts', l' = { options := o, listeners := ls, tasks := ts' } ∧ Fresh l' := by
    rcases hl' with rfl | rfl
    · exact ⟨ts, hlink, hfresh⟩
    · exact ⟨w.link.tasks.spawn (.called c), by rw [hlink], hfresh.spawn c⟩
  obtain ⟨hsteady, hphase, ⟨hls, path, hpath, htold⟩, htally⟩ := hfresh'.dials hasks hs now luck
  have hlink' : (w.step m).link = (m.turn w.link).link := rfl
  have hreports' : (w.step m).reports = (m.turn w.link).reports := by
    show w.reports ++ (m.turn w.link).reports = _
    rw [hreports, List.nil_append]
  have hanswers' : (w.step m).answers = 0 := by
    show w.answers + m.answers w.link = 0
    rw [hanswers, Move.answers_of_begins hbegins]
  rw [hlink', hreports', hanswers', hturn]
  exact ⟨⟨hsteady, hphase, htally⟩, hls, path, hpath, htold⟩

theorem Annals.Lawful.step {o : Options} {ls : List Listener} {w : Annals ρ} (h : w.Lawful o ls) (m : Move ρ) :
    (w.step m).Lawful o ls := by
  cases hbegins : m.begins? w.link with
  | none => exact h.goOn hbegins
  | some c => exact h.begin hbegins

theorem annals_lawful (o : Options) (ls : List Listener) (moves : List (Move ρ)) :
    (annals o ls moves).Lawful o ls := by
  induction moves using List.reverseRecOn with
  | nil =>
    have hfresh := (orderly_start o ls).fresh
      (rfl : ({ link := { options := o, listeners := ls } } : Custody ρ).calls = [])
    exact ⟨fun _ => ⟨hfresh.1, ⟨{}, rfl⟩, rfl, rfl⟩, nofun⟩
  | append_singleton moves m ih =>
    rw [annals_concat]
    exact ih.step m

end PoolFeed.Link
