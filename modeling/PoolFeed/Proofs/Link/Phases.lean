import PoolFeed.Proofs.Link.Steady
import PoolFeed.Proofs.Link.Tidings

/-!
# The phases of a connection

While nobody but the link itself drives its connection, its state names what is under way: a handshake, a
subscription with its reader and its keeper, a teardown that closes a client or a retry that waits, or nothing at all
(`Phase`). As long as no connection has come up, the clients asked for are counted by the retries (`Tally`). A turn goes
from phase to phase, and tells its listeners of the path it takes (`Lands`).
-/

namespace PoolFeed.Link

variable {ρ : Type} {l l' : Link ρ} {me n : Nat} {st : LinkState}

/-! ## Duties -/

/-- What a task does for the connection. -/
inductive Duty where
  | handshake
  | close (next : AfterClose)
  | retry
  | read (sub : Nat)
  | keep (sub : Nat)
  deriving DecidableEq

def Stage.duty? : Stage ρ → Option Duty
  | .opening _ | .greeting _ | .subscribing _ => some .handshake
  | .closing _ next => some (.close next)
  | .toRetry | .pausing => some .retry
  | .toRead sub | .reading sub => some (.read sub)
  | .toKeep sub | .keeping sub | .pinging sub => some (.keep sub)
  | .called _ | .toProcess _ | .processing _ => none

/-- The duty of a task, unless it has ended or been told to give up. -/
def duty? (l : Link ρ) (id : Nat) : Option Duty := (l.tasks.stage? id).bind Stage.duty?

def Duty.drives : Duty → Bool
  | .keep _ => false
  | _ => true

/-- The state that the link shows while a task has a duty. -/
def Duty.shows? : Duty → Option LinkState
  | .handshake => some .connecting
  | .close .teardown | .retry => some .reconnecting
  | .read _ => some .connected
  | .close _ | .keep _ => none

theorem Stage.duty?_of_drives {s : Stage ρ} (h : s.drives) : ∃ d, s.duty? = some d ∧ d.drives := by
  cases s with
  | opening | greeting | subscribing | closing | toRetry | pausing | toRead | reading => exact ⟨_, rfl, rfl⟩
  | called | toKeep | keeping | pinging | toProcess | processing => cases h

theorem Stage.drives_of_duty? {s : Stage ρ} {d : Duty} (h : s.duty? = some d) (hd : d.drives) : s.drives := by
  cases s with
  | opening | greeting | subscribing | closing | toRetry | pausing | toRead | reading => rfl
  | toKeep | keeping | pinging => cases h; cases hd
  | called | toProcess | processing => cases h

theorem Stage.Onward.duty? {s s' : Stage ρ} {r : Request ρ} (h : s.Onward s' r) : s'.duty? = s.duty? := by
  cases h <;> rfl

theorem duty?_of_stage? {s : Stage ρ} (hs : l.tasks.stage? me = some s) : l.duty? me = s.duty? := by
  rw [Link.duty?, hs, Option.bind_some]

/-- The task that goes on drives alone, so a duty that drives is its own. -/
theorem Alone.duty? (h : Alone me l) {s : Stage ρ} (hs : l.tasks.stage? me = some s) {id : Nat} {d : Duty}
    (hd : l.duty? id = some d) (hdrives : d.drives) : s.duty? = some d := by
  obtain ⟨u, hu, hud⟩ := Option.bind_eq_some_iff.1 hd
  by_cases hid : id = me
  · subst hid
    rw [hs] at hu
    cases hu
    exact hud
  · have hidle := h.vacant id u (fun e => hid (Option.some.inj e).symm) hu
    rw [Stage.drives_of_duty? hud hdrives] at hidle
    cases hidle

/-! ## Phases -/

/-- What is under way in a state. -/
inductive Phase (l : Link ρ) : LinkState → Prop
  | shaking {id} : l.duty? id = some .handshake → Phase l .connecting
  | up {sub reader keeper} : l.subscription = some sub → l.keeper = some keeper → l.duty? reader = some (.read sub) →
      l.duty? keeper = some (.keep sub) → 0 < l.connections → Phase l .connected
  | falling {id} : l.duty? id = some (.close .teardown) → Phase l .reconnecting
  | waiting {id} : l.duty? id = some .retry → Phase l .reconnecting
  | down : (∀ id d, l.duty? id = some d → d.drives = false) → l.subscription = none → l.keeper = none →
      Phase l .disconnected

theorem Phase.congr (h : Phase l st) (hduty : ∀ id, l'.duty? id = l.duty? id) (hsub : l'.subscription = l.subscription)
    (hkeeper : l'.keeper = l.keeper) (hconnections : l'.connections = l.connections) : Phase l' st := by
  cases h with
  | shaking h => exact .shaking ((hduty _).trans h)
  | up hs hk hread hkeep hpos =>
    exact .up (hsub.trans hs) (hkeeper.trans hk) ((hduty _).trans hread) ((hduty _).trans hkeep) (hconnections ▸ hpos)
  | falling h => exact .falling ((hduty _).trans h)
  | waiting h => exact .waiting ((hduty _).trans h)
  | down h hs hk => exact .down (fun id d hd => h id d ((hduty id).symm.trans hd)) (hsub.trans hs) (hkeeper.trans hk)

/-- The state is the one that the task that drives the link shows. -/
theorem Phase.shows (h : Phase l st) (ha : Alone me l) {s : Stage ρ} (hs : l.tasks.stage? me = some s)
    (hdrives : s.drives) : ∃ d, s.duty? = some d ∧ d.shows? = some st := by
  cases h with
  | shaking h => exact ⟨_, ha.duty? hs h rfl, rfl⟩
  | up _ _ h => exact ⟨_, ha.duty? hs h rfl, rfl⟩
  | falling h => exact ⟨_, ha.duty? hs h rfl, rfl⟩
  | waiting h => exact ⟨_, ha.duty? hs h rfl, rfl⟩
  | down h =>
    obtain ⟨d, hd, hdd⟩ := Stage.duty?_of_drives hdrives
    rw [h me d ((duty?_of_stage? hs).trans hd)] at hdd
    cases hdd

/-- A link that is connected knows its keeper, which does not drive it. -/
theorem Phase.connected (h : Phase l .connected) {s : Stage ρ} (hs : l.tasks.stage? me = some s) (hdrives : s.drives) :
    l.keeper ≠ some me ∧ 0 < l.connections := by
  cases h with
  | up _ hk _ hkeep hpos =>
    refine ⟨fun e => ?_, hpos⟩
    rw [hk] at e
    cases e
    rw [duty?_of_stage? hs] at hkeep
    obtain ⟨d, hd, hdd⟩ := Stage.duty?_of_drives hdrives
    rw [hkeep] at hd
    cases hd
    cases hdd

/-! ## The count of clients -/

/-- How many clients more than retries there are while a task drives the link. -/
def Stage.ahead (s : Stage ρ) : Nat := if s.part = .retry then 0 else 1

/-- How many answers a task may still get before a retry is arranged or the link gives up. -/
def Stage.left : Stage ρ → Nat
  | .toRetry => 6
  | .pausing => 5
  | .opening _ => 4
  | .greeting _ => 3
  | .subscribing _ => 2
  | .closing _ _ => 1
  | _ => 0

/-- As long as no connection has come up: each retry has asked for one client, and so has the first connection; and
after some answers to the tasks that drive the link, each of these had six at most. -/
structure Tally (answers : Nat) (l : Link ρ) : Prop where
  within : l.retries ≤ l.options.maxRetries
  trying : l.connections = 0 → ∀ id s, l.tasks.stage? id = some s → s.drives →
    l.clients = l.retries + s.ahead ∧ answers + s.left ≤ 6 * (l.retries + 1)
  gaveUp : l.connections = 0 → l.state = .disconnected →
    l.clients = l.options.maxRetries + 1 ∧ answers ≤ 6 * (l.options.maxRetries + 1)

theorem Tally.mono {fewer : Nat} (h : Tally n l) (hle : fewer ≤ n) : Tally fewer l where
  within := h.within
  trying hnone id s hs hdrives := by
    obtain ⟨hclients, hleft⟩ := h.trying hnone id s hs hdrives
    exact ⟨hclients, by omega⟩
  gaveUp hnone hstate := by
    obtain ⟨hclients, hanswers⟩ := h.gaveUp hnone hstate
    exact ⟨hclients, by omega⟩

/-- Tasks that do not drive the link do not count. -/
theorem Tally.exchange {ts : Tasks (Stage ρ)} (h : Tally n l)
    (hdrives : ∀ id s, ts.stage? id = some s → s.drives → l.tasks.stage? id = some s) : Tally n { l with tasks := ts } where
  within := h.within
  trying hnone id s hs hd := h.trying hnone id s (hdrives id s hs hd) hd
  gaveUp := h.gaveUp

/-! ## Turns -/

namespace Turn

variable {t u : Turn ρ} {ls : List Listener} {s : LinkState}

/-- A turn leaves a link in the phase that its state names, and has told its listeners of the path to it. -/
structure Lands (ls : List Listener) (s : LinkState) (n : Nat) (t : Turn ρ) : Prop where
  phase : Phase t.link t.link.state
  told : t.Told ls s
  tally : Tally n t.link

theorem Lands.mono {fewer : Nat} (h : t.Lands ls s n) (hle : fewer ≤ n) : t.Lands ls s fewer :=
  ⟨h.phase, h.told, h.tally.mono hle⟩

/-- In the course of the turn of the task that drives the link: a client has been asked for. -/
structure Trying (me : Nat) (ls : List Listener) (s : LinkState) (n : Nat) (t : Turn ρ) : Prop where
  alone : Alone me t.link
  stands : ∃ stage, t.link.tasks.stage? me = some stage
  told : t.Told ls s
  within : t.link.retries ≤ t.link.options.maxRetries
  tried : t.link.connections = 0 → t.link.clients = t.link.retries + 1 ∧ n ≤ 6 * (t.link.retries + 1)

/-- The task goes on to another stage. -/
theorem lands_park {stage : Stage ρ} {r : Request ρ} (ha : Alone me t.link) (hstands : ∃ s, t.link.tasks.stage? me = some s)
    (htold : t.Told ls s) (hphase : ∀ l' : Link ρ, l'.duty? me = stage.duty? → Phase l' t.link.state)
    (hwithin : t.link.retries ≤ t.link.options.maxRetries) (hstate : t.link.state ≠ .disconnected)
    (htrying : t.link.connections = 0 →
      t.link.clients = t.link.retries + stage.ahead ∧ n + stage.left ≤ 6 * (t.link.retries + 1)) :
    (t.park me stage r).Lands ls s n := by
  obtain ⟨old, hold⟩ := hstands
  have hnew : (t.link.tasks.advance me stage).stage? me = some stage := Tasks.stage?_advance_self hold stage
  refine ⟨hphase _ (duty?_of_stage? hnew), htold.park me stage r, hwithin, fun hnone i u hu hdrives => ?_,
    fun _ hdown => absurd hdown hstate⟩
  obtain ⟨-, rfl⟩ | ⟨hi, hother⟩ := Tasks.stage?_of_advance hu
  · exact htrying hnone
  · rw [ha.vacant i u (fun e => hi (Option.some.inj e).symm) hother] at hdrives
    cases hdrives

/-- The client has been closed, and the link retries or gives up. -/
theorem Trying.reconnect (h : t.Trying me ls s n) (hsub : t.link.subscription = none) (hkeeper : t.link.keeper = none)
    (hstate : t.link.state = .reconnecting) : ((t.reconnect (some me)).finish me).Lands ls s n := by
  have ha := h.alone
  have htold := (h.told.reconnect hstate (some me)).finish me .finished
  obtain ⟨hceiling, hlink, -⟩ | ⟨hlt, hlink, -⟩ := t.reconnect_cases (some me)
  · have hidle : ∀ i u, (t.link.tasks.erase me).stage? i = some u → u.drives = false :=
      fun i u hu => ha.vacant.erase i u nofun hu
    have hretries := Nat.le_antisymm h.within hceiling
    refine ⟨?_, htold, ?_⟩
    · rw [finish_link, hlink]
      refine .down (fun i d hd => Bool.eq_false_iff.2 fun hdrives => ?_) hsub hkeeper
      obtain ⟨u, hu, hud⟩ := Option.bind_eq_some_iff.1 hd
      exact Bool.false_ne_true ((hidle i u hu).symm.trans (Stage.drives_of_duty? hud hdrives))
    · rw [finish_link, hlink]
      refine ⟨h.within, fun _ i u hu hdrives => ?_, fun hnone _ => ?_⟩
      · rw [hidle i u hu] at hdrives
        cases hdrives
      · obtain ⟨hclients, hanswers⟩ := h.tried hnone
        rw [hretries] at hclients hanswers
        exact ⟨hclients, hanswers⟩
  · rw [armed_eq] at hlink
    have hord := ha.ordered.cancel? (if t.link.retry = some me then none else t.link.retry)
    have hnext : (((t.link.tasks.cancel? (if t.link.retry = some me then none else t.link.retry)).spawn
        Stage.toRetry).erase me).stage? t.link.tasks.next = some .toRetry := by
      rw [Tasks.stage?_erase, if_neg (Nat.ne_of_gt ha.lt_next), Tasks.stage?_spawn hord, Tasks.next_cancel?, if_pos rfl]
    refine ⟨?_, htold, ?_⟩
    · rw [finish_link, hlink]
      show Phase _ t.link.state
      rw [hstate]
      exact .waiting (duty?_of_stage? (s := .toRetry) hnext)
    · rw [finish_link, hlink]
      refine ⟨hlt, fun hnone i u hu hdrives => ?_, fun _ hdown => ?_⟩
      · obtain ⟨hne, hu⟩ := Tasks.stage?_of_erase hu
        obtain ⟨-, rfl⟩ | hu := Tasks.stage?_of_spawn hord hu
        · obtain ⟨hclients, hanswers⟩ := h.tried hnone
          exact ⟨hclients, show n + 6 ≤ 6 * (t.link.retries + 1 + 1) by omega⟩
        · rw [ha.vacant i u (fun e => hne (Option.some.inj e).symm) (Tasks.stage?_of_cancel? hu).2] at hdrives
          cases hdrives
      · cases hstate.symm.trans hdown

theorem Trying.rest (h : t.Trying me ls s n) (hsub : t.link.subscription = none) (hkeeper : t.link.keeper = none)
    (hstate : t.link.state = .reconnecting) : (t.afterClose me .teardown).Lands ls s n := by
  rw [Turn.afterClose, h.alone.going, if_neg Bool.false_ne_true]
  exact h.reconnect hsub hkeeper hstate

/-- The connection is taken down: a client is closed, or there is none. -/
theorem Trying.tearDown (h : t.Trying me ls s (n + 1)) (hkeeper : t.link.keeper ≠ some me)
    (hstate : t.link.state = .connecting ∨ t.link.state = .connected) (luck : Luck) :
    (t.tearDown me luck).Lands ls s n := by
  have hfall : t.tearDown me luck = (t.fall me luck).closeClient me .teardown := by
    obtain ⟨hdown, -⟩ | hturn := t.tearDown_cases me luck
    · rcases hstate with hs | hs <;> rw [hs] at hdown <;> rcases hdown with hdown | hdown <;> cases hdown
    · exact hturn
  have htrying : (t.fall me luck).Trying me ls s (n + 1) := by
    have hlast := h.alone.toManned.letGo (if t.link.reader = some me then none else t.link.reader)
    refine ⟨?_, ?_, h.told.fall hstate me luck, ?_, ?_⟩
    · rw [fall_link]
      refine ⟨{ hlast with }, ?_, (h.alone.vacant.cancel? _).cancel? _⟩
      simpa using h.alone.lt_next
    · obtain ⟨stage, hstage⟩ := h.stands
      refine ⟨stage, ?_⟩
      rw [fall_link, Tasks.stage?_cancel?, if_neg, Tasks.stage?_cancel?, if_neg hkeeper, hstage]
      split
      · exact nofun
      · assumption
    · rw [fall_link]
      exact h.within
    · rw [fall_link]
      exact h.tried
  have hfallen : (t.fall me luck).link.subscription = none ∧ (t.fall me luck).link.keeper = none ∧
      (t.fall me luck).link.state = .reconnecting := by
    rw [fall_link]
    exact ⟨rfl, rfl, rfl⟩
  obtain ⟨hsub, hnone, hreconnecting⟩ := hfallen
  rw [hfall]
  obtain ⟨-, hclose⟩ | ⟨client, -, hclose⟩ := (t.fall me luck).closeClient_cases me .teardown
  · rw [hclose]
    exact (htrying.rest hsub hnone hreconnecting).mono (Nat.le_succ n)
  · rw [hclose]
    have ha : Alone me { (t.fall me luck).link with client := none } := { htrying.alone with }
    refine lands_park ha htrying.stands (htrying.told.quiet rfl rfl rfl) (fun l' hd => ?_) htrying.within ?_
      htrying.tried
    · rw [change_link, hreconnecting]
      exact .falling hd
    · rw [change_link, hreconnecting]
      nofun

/-- A client is asked for. -/
theorem lands_connect (ha : Down me t.link) (hstands : ∃ s, t.link.tasks.stage? me = some s) (htold : t.Told ls s)
    (hstate : t.link.state = .disconnected) (hwithin : t.link.retries ≤ t.link.options.maxRetries)
    (hclients : t.link.connections = 0 → t.link.clients = t.link.retries ∧ n + 4 ≤ 6 * (t.link.retries + 1))
    (luck : Luck) : (t.connect me luck).Lands ls s n := by
  have hdial : t.dial.Trying me ls s (n + 4) := by
    refine ⟨?_, ?_, htold.dial hstate, ?_, ?_⟩
    · rw [dial_link]
      exact { ha.toAlone with going := rfl }
    · rw [dial_link]
      exact hstands
    · rw [dial_link]
      exact hwithin
    · rw [dial_link]
      intro hnone
      obtain ⟨hclients, hanswers⟩ := hclients hnone
      exact ⟨congrArg (· + 1) hclients, hanswers⟩
  have hdialed : t.dial.link.state = .connecting := by rw [dial_link]
  obtain ⟨hup, -⟩ | ⟨reason, -, hturn⟩ | ⟨-, hturn⟩ := t.connect_cases me luck
  · rw [hstate] at hup
    rcases hup with hup | hup <;> cases hup
  · rw [hturn]
    have htrying : (t.dial.noteFailure reason).Trying me ls s (n + 3 + 1) :=
      ⟨hdial.alone, hdial.stands, hdial.told.quiet rfl rfl (log_reports _), hdial.within, hdial.tried⟩
    refine (htrying.tearDown ?_ (.inl hdialed) luck).mono (Nat.le_add_right n 3)
    show t.dial.link.keeper ≠ some me
    rw [dial_link]
    show t.link.keeper ≠ some me
    rw [ha.keeper]
    nofun
  · rw [hturn]
    have hcreated : Alone me { t.dial.link with client := some (t.link.clients + 1) } := { hdial.alone with }
    refine lands_park hcreated hdial.stands (hdial.told.quiet rfl rfl rfl) (fun l' hd => ?_) hdial.within ?_ hdial.tried
    · rw [change_link, hdialed]
      exact .shaking hd
    · rw [change_link, hdialed]
      nofun

/-- A subscription is taken over. -/
theorem lands_subscribed (ha : Alone me t.link) (htold : t.Told ls s) (hstate : t.link.state = .connecting) (luck : Luck)
    (sub : Nat) : (t.subscribed me luck sub).Lands ls s n := by
  have hlink := (subscribed_link (t := t) me sub ha.going luck).2
  have hord := ha.ordered.spawn (.toKeep sub)
  have hlt := ha.lt_next
  have hkeeper : (((t.link.tasks.spawn (.toKeep sub)).spawn (.toRead sub)).erase me).stage? t.link.tasks.next =
      some (.toKeep sub) := by
    rw [Tasks.stage?_erase, if_neg (by omega), Tasks.stage?_spawn hord, if_neg, Tasks.stage?_spawn ha.ordered,
      if_pos rfl]
    exact Nat.ne_of_lt (Nat.lt_succ_self _)
  have hreader : (((t.link.tasks.spawn (.toKeep sub)).spawn (.toRead sub)).erase me).stage? (t.link.tasks.next + 1) =
      some (.toRead sub) := by
    rw [Tasks.stage?_erase, if_neg (by omega), Tasks.stage?_spawn hord]
    exact if_pos rfl
  refine ⟨?_, htold.subscribed hstate ha.going me sub luck, ?_⟩
  · rw [hlink]
    exact .up rfl rfl (duty?_of_stage? (s := .toRead sub) hreader) (duty?_of_stage? (s := .toKeep sub) hkeeper)
      (Nat.succ_pos _)
  · rw [hlink]
    exact ⟨Nat.zero_le _, fun hnone => absurd hnone (Nat.succ_ne_zero _), fun _ hdown => by cases hdown⟩

end Turn

end PoolFeed.Link
