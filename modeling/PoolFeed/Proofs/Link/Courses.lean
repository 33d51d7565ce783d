import PoolFeed.Proofs.Link.Deeds
import PoolFeed.Proofs.Link.Keeps

/-!
# What a task can do next

A resumed task does one of a few things: it waits for something else in the same part, it ends, it takes the
connection down, it closes, connects, takes a subscription over, or does what its caller asks. `Course` lists them
and `goOn_course` says that there are no others; `tearDown_cases`, `connect_cases` and so on say how each of them can
end a turn. What holds of every run is derived from these lists.
-/

namespace PoolFeed.Link

variable {ρ : Type}

/-! ## Parts -/

/-- The part a task plays while it stands at a stage. -/
inductive Part where
  | caller
  | handshake
  | closing
  | retry
  | reader
  | keeper
  | record
  deriving DecidableEq

def Stage.part : Stage ρ → Part
  | .called _ => .caller
  | .opening _ | .greeting _ | .subscribing _ => .handshake
  | .closing _ _ => .closing
  | .toRetry | .pausing => .retry
  | .toRead _ | .reading _ => .reader
  | .toKeep _ | .keeping _ | .pinging _ => .keeper
  | .toProcess _ | .processing _ => .record

/-- The call that begins when a task goes on from a stage. -/
def Stage.call? : Stage ρ → Option Call
  | .called c => some c
  | _ => none

theorem Stage.call?_eq_some {s : Stage ρ} {c : Call} (h : s.call? = some c) : s = .called c := by
  cases s with
  | called c' => exact congrArg _ (Option.some.inj h)
  | _ => cases h

/-- A stage that is followed by another in the same part, and what is waited for there. -/
inductive Stage.Onward : Stage ρ → Stage ρ → Request ρ → Prop
  | greet n : Onward (.opening n) (.greeting n) (.version n)
  | subscribe n : Onward (.greeting n) (.subscribing n) (.subscribed n)
  | pause ms : Onward .toRetry .pausing (.slept ms)
  | read sub : Onward (.toRead sub) (.reading sub) (.next sub)
  | keep sub ms : Onward (.toKeep sub) (.keeping sub) (.slept ms)
  | ping sub : Onward (.keeping sub) (.pinging sub) (.pinged sub)
  | pinged sub ms : Onward (.pinging sub) (.keeping sub) (.slept ms)
  | process r : Onward (.toProcess r) (.processing r) (.processed r)

theorem Stage.Onward.part {s s' : Stage ρ} {r : Request ρ} (h : s.Onward s' r) : s'.part = s.part := by
  cases h <;> rfl

namespace Turn

variable {t : Turn ρ}

/-! ## Taking the connection down -/

/-- The subscription is let go, with its keeper and its reader. -/
def letGo (t : Turn ρ) (me : Nat) (luck : Luck) : Turn ρ := (t.stopKeeper.dropSubscription luck).stopReader me

@[simp] theorem letGo_link (me : Nat) (luck : Luck) : (t.letGo me luck).link =
    { t.link with
      tasks := (t.link.tasks.cancel? t.link.keeper).cancel? (if t.link.reader = some me then none else t.link.reader)
      subscription := none, keeper := none, reader := none } := by
  simp [letGo]

@[simp] theorem letGo_deeds (me : Nat) (luck : Luck) :
    (t.letGo me luck).deeds = t.deeds ++ t.link.subscription.toList.map .cancel := by
  simp [letGo]

/-- How a teardown begins. -/
def fall (t : Turn ρ) (me : Nat) (luck : Luck) : Turn ρ :=
  ((t.enter .reconnecting).change fun l => { l with disconnects := l.disconnects + 1 }).letGo me luck

/-- How a stop begins. -/
def halt (t : Turn ρ) (me : Nat) (luck : Luck) : Turn ρ :=
  ((t.change fun l => { l with stopping := true }).stopRetry).letGo me luck

@[simp] theorem fall_deeds (me : Nat) (luck : Luck) :
    (t.fall me luck).deeds = t.deeds ++ t.link.subscription.toList.map .cancel := by
  simp [fall]

@[simp] theorem halt_deeds (me : Nat) (luck : Luck) :
    (t.halt me luck).deeds = t.deeds ++ t.link.subscription.toList.map .cancel := by
  simp [halt]

@[simp] theorem fall_link (me : Nat) (luck : Luck) : (t.fall me luck).link =
    { t.link with
      state := .reconnecting, disconnects := t.link.disconnects + 1
      tasks := (t.link.tasks.cancel? t.link.keeper).cancel? (if t.link.reader = some me then none else t.link.reader)
      subscription := none, keeper := none, reader := none } := by
  simp [fall]

@[simp] theorem halt_link (me : Nat) (luck : Luck) : (t.halt me luck).link =
    { t.link with
      stopping := true
      tasks := ((t.link.tasks.cancel? t.link.retry).cancel? t.link.keeper).cancel?
        (if t.link.reader = some me then none else t.link.reader)
      retry := none, subscription := none, keeper := none, reader := none } := by
  simp [halt]

/-- A client is closed, or there is none. -/
theorem closeClient_cases (t : Turn ρ) (me : Nat) (next : AfterClose) :
    (t.link.client = none ∧ t.closeClient me next = t.afterClose me next) ∨
    ∃ n, t.link.client = some n ∧
      t.closeClient me next = (t.change fun l => { l with client := none }).park me (.closing n next) (.closed n) := by
  unfold closeClient
  split
  · rename_i h
    exact .inl ⟨h, rfl⟩
  · rename_i n h
    exact .inr ⟨n, h, rfl⟩

/-- A connection that is down already is left alone. -/
theorem tearDown_cases (t : Turn ρ) (me : Nat) (luck : Luck) :
    ((t.link.state = .reconnecting ∨ t.link.state = .disconnected) ∧ t.tearDown me luck = t.finish me) ∨
    t.tearDown me luck = (t.fall me luck).closeClient me .teardown := by
  unfold tearDown
  cases h : t.link.state with
  | reconnecting => exact .inl ⟨.inl rfl, rfl⟩
  | disconnected => exact .inl ⟨.inr rfl, rfl⟩
  | connecting | connected => exact .inr rfl

theorem stop_eq (t : Turn ρ) (me : Nat) (luck : Luck) : t.stop me luck = (t.halt me luck).closeClient me .stop := rfl

/-! ## After closing -/

/-- What the link notes when it gives up. -/
def ceilingNote (retries : Nat) : Log.Entry :=
  Log.critical s!"Giving up on stream after {retries} reconnect attempts" [.attempt retries]

/-- The link of a retry that is arranged. The task that retries now is not told to give up. -/
def armed (l : Link ρ) (asker : Option Nat) : Link ρ :=
  let ts := if l.retry.isSome && l.retry = asker then l.tasks else l.tasks.cancel? l.retry
  { l with retries := l.retries + 1, tasks := ts.spawn .toRetry, retry := some ts.next }

theorem armed_eq (l : Link ρ) (asker : Option Nat) : armed l asker =
    { l with
      retries := l.retries + 1
      tasks := (l.tasks.cancel? (if l.retry = asker then none else l.retry)).spawn .toRetry
      retry := some l.tasks.next } := by
  by_cases h : l.retry = asker
  · cases hretry : l.retry <;> simp [armed, Tasks.cancel?, ← h, hretry]
  · simp [armed, h]

theorem reconnect_cases (t : Turn ρ) (asker : Option Nat) :
    (t.link.options.maxRetries ≤ t.link.retries ∧
      (t.reconnect asker).link = { t.link with state := .disconnected } ∧
      (t.reconnect asker).deeds = t.deeds ++ [.log (ceilingNote t.link.retries)]) ∨
    (t.link.retries < t.link.options.maxRetries ∧ (t.reconnect asker).link = armed t.link asker ∧
      (t.reconnect asker).deeds = t.deeds) := by
  by_cases h : t.link.options.maxRetries ≤ t.link.retries
  · refine .inl ⟨h, ?_, ?_⟩
    · simp [reconnect, h]
    · simp only [reconnect, if_pos h]
      rw [enter_deeds (s := .disconnected) (by decide), log, act_deeds rfl]
      rfl
  · refine .inr ⟨Nat.lt_of_not_le h, ?_, ?_⟩
    · simp only [reconnect, if_neg h, armed]
      split <;> simp
    · simp only [reconnect, if_neg h]
      split
      · rw [change_deeds, spawn_deeds, log_deeds rfl, change_deeds]
      · rw [change_deeds, spawn_deeds, log_deeds rfl, cancelTask_deeds, change_deeds]

/-- After a stop the link is down, and its component has stopped. -/
theorem afterClose_stop (t : Turn ρ) (me : Nat) : ∃ (u : Turn ρ) (c : Component),
    t.afterClose me .stop = u.finish me ∧ u.link = { t.link with state := .disconnected, component := c } ∧
    u.deeds = t.deeds := by
  have hplain : ∀ e ∈ t.link.component.stop.2, plainNote e := by
    unfold Component.stop
    split <;> exact fun e he => List.mem_singleton.1 he ▸ rfl
  simp only [afterClose]
  split
  · refine ⟨_, t.link.component.stop.1, rfl, ?_, ?_⟩
    · simp [foldl_log]
    · rw [foldl_log_deeds, change_deeds, enter_deeds (s := .disconnected) (by decide)]
      simpa using hplain
  · refine ⟨_, t.link.component, rfl, ?_, enter_deeds (by decide)⟩
    rw [enter_link]

/-! ## Connecting -/

/-- How a connection begins: a client is asked for. -/
def dial (t : Turn ρ) : Turn ρ :=
  (((t.change fun l => { l with stopping := false }).enter .connecting).change fun l =>
    { l with clients := t.link.clients + 1 }).act (.create (t.link.clients + 1))

@[simp] theorem dial_link : t.dial.link =
    { t.link with stopping := false, state := .connecting, clients := t.link.clients + 1 } := by
  simp [dial]

theorem dial_deeds (t : Turn ρ) : ∃ heralds, t.dial.deeds = t.deeds ++ heralds ++ [.create (t.link.clients + 1)] ∧
    ∀ a ∈ heralds, a.heralds := by
  obtain ⟨hs, hdeeds, hall⟩ := announces_enter (t.change fun l => { l with stopping := false }) .connecting
  refine ⟨hs, ?_, hall⟩
  rw [dial, act_deeds rfl, change_deeds, hdeeds, change_deeds]

/-- A step that fails is noted. -/
def noteFailure (t : Turn ρ) (reason : String) : Turn ρ :=
  t.log (Log.error s!"Stream connect failed: {reason}" [.attempt t.link.retries])

@[simp] theorem noteFailure_deeds (reason : String) : (t.noteFailure reason).deeds = t.deeds := log_deeds rfl

theorem connect_cases (t : Turn ρ) (me : Nat) (luck : Luck) :
    ((t.link.state = .connecting ∨ t.link.state = .connected) ∧ t.connect me luck = t.finish me) ∨
    (∃ reason, luck.create (t.link.clients + 1) = some reason ∧
      t.connect me luck = (t.dial.noteFailure reason).tearDown me luck) ∨
    (luck.create (t.link.clients + 1) = none ∧
      t.connect me luck = (t.dial.change fun l => { l with client := some (t.link.clients + 1) }).park me
        (.opening (t.link.clients + 1)) (.opened (t.link.clients + 1))) := by
  have hdial : ((t.change fun l => { l with stopping := false }).enter .connecting).link.clients = t.link.clients := by
    rw [enter_link]
    rfl
  unfold connect
  cases h : t.link.state with
  | connecting => exact .inl ⟨.inl rfl, rfl⟩
  | connected => exact .inl ⟨.inr rfl, rfl⟩
  | disconnected | reconnecting =>
    refine .inr ?_
    simp only [hdial]
    split
    · rename_i reason hreason
      exact .inl ⟨reason, hreason, rfl⟩
    · rename_i hnone
      exact .inr ⟨hnone, rfl⟩

/-- Starting starts the component and connects, if that is not so already. -/
theorem start_cases (t : Turn ρ) (me now : Nat) (luck : Luck) :
    (t.link.state ≠ .disconnected ∧ t.start me now luck = t.finish me) ∨ ∃ (u : Turn ρ) (c : Component) (b : Bool),
      t.start me now luck = u.connect me luck ∧ u.link = { t.link with component := c, stopping := b } ∧
      (t.link.stopping = false → b = false) ∧ t.Notes u := by
  have hplain : ∀ e ∈ (t.link.component.start now).2, plainNote e := by
    unfold Component.start
    split <;> exact fun e he => List.mem_singleton.1 he ▸ rfl
  unfold Turn.start
  split
  · split
    · exact .inr ⟨t, t.link.component, t.link.stopping, rfl, rfl, id, notes_refl t⟩
    · exact .inl ⟨‹_›, rfl⟩
  · let begun := t.change fun l => { l with component := (t.link.component.start now).1 }
    have hbegun : t.Notes begun := notes_refl t
    refine .inr ⟨((t.link.component.start now).2.foldl log begun).change fun l => { l with stopping := false },
      (t.link.component.start now).1, false, rfl, ?_, fun _ => rfl, hbegun.foldl_log hplain⟩
    rw [change_link, (foldl_log _ begun).1]
    rfl

/-- A link that is stopping does not keep what it is handed over. -/
theorem subscribed_cases (t : Turn ρ) (me : Nat) (luck : Luck) (sub : Nat) :
    (t.link.stopping = false ∧ (t.subscribed me luck sub).deeds = t.deeds) ∨
    (t.link.stopping = true ∧ ((∃ e, t.subscribed me luck sub = (t.act (.cancel sub)).finish me e) ∨
      t.subscribed me luck sub = (t.act (.cancel sub)).closeClient me .abandoned)) := by
  cases h : t.link.stopping with
  | false =>
    refine .inl ⟨rfl, ?_⟩
    simp only [subscribed, h, Bool.false_eq_true, if_false]
    rw [finish_deeds, log_deeds rfl]
    simp
  | true =>
    refine .inr ⟨rfl, ?_⟩
    simp only [subscribed, h, if_true]
    split
    · exact .inl ⟨_, rfl⟩
    · exact .inr rfl

/-! ## Going on -/

/-- So far a turn has noted and counted things, no more. -/
def Noted (u : Turn ρ) (l : Link ρ) : Prop :=
  Notes ⟨l, []⟩ u ∧ ∃ v p e f, u.link = { l with version := v, processed := p, processingErrors := e, pingFailures := f }

theorem noted_start (l : Link ρ) : Noted ⟨l, []⟩ l := ⟨notes_refl _, _, _, _, _, rfl⟩

theorem Noted.tasks {l : Link ρ} {u : Turn ρ} (h : u.Noted l) : u.link.tasks = l.tasks := by
  obtain ⟨-, v, p, e, f, hlink⟩ := h
  rw [hlink]

theorem Noted.log {l : Link ρ} {u : Turn ρ} (h : u.Noted l) {e : Log.Entry} (he : plainNote e) : (u.log e).Noted l :=
  ⟨h.1.log he, h.2⟩

end Turn

/-- What the turn of a task comes to that goes on from a stage with an outcome. -/
inductive Course (l : Link ρ) (me : Nat) : Stage ρ → Outcome ρ → Turn ρ → Prop
  | stay {s o} : s.call? = none → Course l me s o ⟨l, []⟩
  | onward {s s' o r} {u : Turn ρ} : u.Noted l → s.Onward s' r → Course l me s o (u.park me s' r)
  | finish {s o} {u : Turn ρ} : u.Noted l → s.part = .record ∨ s.part = .reader ∧ l.stopping → Course l me s o (u.finish me)
  | record sub r : Course l me (.reading sub) (.record r) (Turn.recordRead ⟨l, []⟩ me sub r)
  | lose {s o} {u : Turn ρ} luck : u.Noted l → s.part = .handshake ∨ s.part = .reader → Course l me s o (u.tearDown me luck)
  | handedOver n luck : Course l me (.subscribing n) .done (Turn.subscribed ⟨l, []⟩ me luck n)
  | closed {n next o} {u : Turn ρ} : u.Noted l → Course l me (.closing n next) o (u.afterClose me next)
  | retry o luck : Course l me .pausing o ((Turn.enter ⟨l, []⟩ .disconnected).connect me luck)
  | call c o now luck : Course l me (.called c) o (Turn.call ⟨l, []⟩ me now luck c)

theorem goOn_course (l : Link ρ) (me now : Nat) (luck : Luck) (s : Stage ρ) (o : Outcome ρ) :
    Course l me s o (Turn.goOn ⟨l, []⟩ me now luck s o) := by
  have hstart := Turn.noted_start l
  have hended : ∀ sub o (e : Log.Entry), plainNote e →
      Course l me (.reading sub) o (Turn.readingEnded ⟨l, []⟩ me luck e) := by
    intro sub o e he
    simp only [Turn.readingEnded]
    split
    · exact .finish (hstart.log he) (.inr ⟨rfl, ‹_›⟩)
    · exact .lose luck (hstart.log he) (.inr rfl)
  unfold Turn.goOn
  split
  · exact .call _ _ now luck
  · exact .onward hstart (.greet _)
  · exact .lose luck (hstart.log rfl) (.inl rfl)
  · exact .onward ⟨Turn.notes_refl _, _, _, _, _, rfl⟩ (.subscribe _)
  · exact .lose luck (hstart.log rfl) (.inl rfl)
  · exact .handedOver _ luck
  · exact .lose luck (hstart.log rfl) (.inl rfl)
  · exact .closed hstart
  · exact .closed (hstart.log rfl)
  · exact .onward hstart (.pause _)
  · exact .retry _ luck
  · exact .onward hstart (.read _)
  · exact .record _ _
  · exact hended _ _ _ rfl
  · exact hended _ _ _ rfl
  · exact .onward hstart (.keep _ _)
  · exact .onward hstart (.ping _)
  · exact .onward hstart (.pinged _ _)
  · refine .onward (Turn.Noted.log ?_ rfl) (.pinged _ _)
    exact ⟨Turn.notes_refl _, _, _, _, _, rfl⟩
  · exact .onward hstart (.process _)
  · exact .finish ⟨Turn.notes_refl _, _, _, _, _, rfl⟩ (.inl rfl)
  · refine .finish (Turn.Noted.log ?_ rfl) (.inl rfl)
    exact ⟨Turn.notes_refl _, _, _, _, _, rfl⟩
  · refine .stay ?_
    cases s with
    | called c => exact absurd rfl (‹∀ c', Stage.called c = .called c' → False› c)
    | _ => rfl

/-! ## Moves -/

namespace Move

/-- The call that begins. One that was asked for begins when its task is first resumed. -/
def begins? (l : Link ρ) : Move ρ → Option Call
  | .askAtOnce c _ _ => some c
  | m => (m.goesOn? l).bind (·.1.call?)

/-- A move asks for something, begins a call, comes too late, lets a task give up, or lets one go on. -/
theorem turn_cases (m : Move ρ) (l : Link ρ) :
    (∃ c, m.turn l = Turn.spawn ⟨l, []⟩ (.called c) ∧ m.goesOn? l = none ∧ m.begins? l = none) ∨
    (∃ c now luck, m.turn l = Turn.call ⟨{ l with tasks := l.tasks.spawn (.called c) }, []⟩ l.tasks.next now luck c ∧
      m.goesOn? l = none ∧ m.begins? l = some c) ∨
    (m.turn l = ⟨l, []⟩ ∧ m.goesOn? l = none ∧ m.begins? l = none) ∨
    (∃ id, l.tasks.stage? id = none ∧ m.turn l = Turn.finish ⟨l, []⟩ id .cancelled ∧ m.goesOn? l = none ∧
      m.begins? l = none) ∨
    ∃ id s o, l.tasks.stage? id = some s ∧ Course l id s o (m.turn l) ∧ m.goesOn? l = some (s, o) ∧
      m.begins? l = s.call? := by
  cases m with
  | ask c => exact .inl ⟨c, rfl, rfl, rfl⟩
  | askAtOnce c now luck => exact .inr (.inl ⟨c, now, luck, rfl, rfl, rfl⟩)
  | resume id turn now luck o =>
    have hbegins : (Move.resume id turn now luck o).begins? l =
        ((Move.resume id turn now luck o).goesOn? l).bind (·.1.call?) := rfl
    obtain ⟨hr, hgo⟩ | ⟨hr, hs, hgo⟩ | ⟨s, hr, hs, hgo⟩ := resume_cases l id turn now luck o
    · exact .inr (.inr (.inl ⟨hr, hgo, by rw [hbegins, hgo, Option.bind_none]⟩))
    · exact .inr (.inr (.inr (.inl ⟨id, hs, hr, hgo, by rw [hbegins, hgo, Option.bind_none]⟩)))
    · refine .inr (.inr (.inr (.inr ⟨id, s, o, hs, ?_, hgo, by rw [hbegins, hgo, Option.bind_some]⟩)))
      rw [Move.turn, hr]
      exact goOn_course l id now luck s o

end Move

end PoolFeed.Link
