import PoolFeed.Link.Turn

/-!
# What has been counted changes nothing

The numbers of records processed and of errors are there to be shown: no step reads them. So two links that differ in
them alone (`Link.credit`) do the same with every outcome, and differ in them alone afterwards (`resume_credited`).
-/

namespace PoolFeed.Link

variable {ρ : Type} {p e : Nat}

/-- The link that has counted some more records and errors. -/
def credit (l : Link ρ) (p e : Nat) : Link ρ :=
  { l with processed := l.processed + p, processingErrors := l.processingErrors + e }

namespace Turn

variable {t u : Turn ρ}

/-- One turn is another whose link has counted some more. -/
def Credited (p e : Nat) (t u : Turn ρ) : Prop := u = { t with link := t.link.credit p e }

theorem credited_start (p e : Nat) (l : Link ρ) : Credited p e ⟨l, []⟩ ⟨l.credit p e, []⟩ := rfl

/-! ## Notes and changes -/

/-- Whatever else is read of the link is the same. -/
theorem Credited.reads (h : Credited p e t u) {α : Type} (f : Link ρ → α) (hf : ∀ l, f (l.credit p e) = f l) :
    f u.link = f t.link := by
  subst h
  exact hf t.link

theorem Credited.act (h : Credited p e t u) (a : Action ρ) : Credited p e (t.act a) (u.act a) := by
  subst h
  rfl

theorem Credited.log (h : Credited p e t u) (n : Log.Entry) : Credited p e (t.log n) (u.log n) := h.act _

theorem Credited.foldl_log (h : Credited p e t u) (es : List Log.Entry) :
    Credited p e (es.foldl Turn.log t) (es.foldl Turn.log u) := by
  induction es generalizing t u with
  | nil => exact h
  | cons n es ih => exact ih (h.log n)

/-- A change that neither reads nor sets what has been counted. -/
theorem Credited.change (h : Credited p e t u) (f : Link ρ → Link ρ)
    (hf : ∀ l : Link ρ, f (l.credit p e) = (f l).credit p e) : Credited p e (t.change f) (u.change f) := by
  subst h
  simp only [Credited, Turn.change, hf]

theorem Credited.enter (h : Credited p e t u) (s : LinkState) : Credited p e (t.enter s) (u.enter s) := by
  have htell : ∀ (old : LinkState) (ls : List Listener) (t u : Turn ρ), Credited p e t u →
      Credited p e (ls.foldl (tell old s) t) (ls.foldl (tell old s) u) := by
    intro old ls
    induction ls with
    | nil => exact fun _ _ h => h
    | cons l ls ih =>
      intro t u h
      refine ih _ _ ?_
      cases l with
      | direct | deferred | broken reason => exact h.act _
  have hstate : u.link.state = t.link.state := h.reads (·.state) fun _ => rfl
  simp only [Turn.enter, hstate]
  split
  · exact h
  · have hset := (h.change (fun l => { l with state := s }) fun _ => rfl).log
      (Log.info s!"Stream state {t.link.state.name} -> {s.name}" [.state s.name])
    rw [hset.reads (·.listeners) fun _ => rfl]
    exact htell _ _ _ _ hset

/-! ## Tasks -/

theorem Credited.finish (h : Credited p e t u) (me : Nat) (n : Ending) :
    Credited p e (t.finish me n) (u.finish me n) := by
  subst h
  rfl

theorem Credited.park (h : Credited p e t u) (me : Nat) (s : Stage ρ) (r : Request ρ) :
    Credited p e (t.park me s r) (u.park me s r) := by
  subst h
  rfl

theorem Credited.spawn (h : Credited p e t u) (s : Stage ρ) : Credited p e (t.spawn s) (u.spawn s) := by
  subst h
  rfl

/-- A task is created and its number kept. -/
theorem Credited.employ (h : Credited p e t u) (s : Stage ρ) (f : Nat → Link ρ → Link ρ)
    (hf : ∀ n l, f n (l.credit p e) = (f n l).credit p e) :
    Credited p e ((t.spawn s).change (f t.link.tasks.next)) ((u.spawn s).change (f u.link.tasks.next)) := by
  have hnext : u.link.tasks.next = t.link.tasks.next := h.reads (·.tasks.next) fun _ => rfl
  rw [hnext]
  exact (h.spawn s).change _ (hf _)

theorem Credited.cancelTask (h : Credited p e t u) (id : Option Nat) :
    Credited p e (t.cancelTask id) (u.cancelTask id) := by
  have hfind : id.bind u.link.tasks.find? = id.bind t.link.tasks.find? :=
    h.reads (fun l => id.bind l.tasks.find?) fun _ => rfl
  unfold Turn.cancelTask
  rw [hfind]
  cases id.bind t.link.tasks.find? with
  | none => exact h
  | some task => exact (h.change (fun l => { l with tasks := l.tasks.cancel task.id }) fun _ => rfl).act _

/-! ## Closing and retrying -/

theorem Credited.stopKeeper (h : Credited p e t u) : Credited p e t.stopKeeper u.stopKeeper := by
  have hkeeper : u.link.keeper = t.link.keeper := h.reads (·.keeper) fun _ => rfl
  simp only [Turn.stopKeeper, hkeeper]
  exact (h.cancelTask _).change _ fun _ => rfl

theorem Credited.stopReader (h : Credited p e t u) (me : Nat) :
    Credited p e (t.stopReader me) (u.stopReader me) := by
  have hreader : u.link.reader = t.link.reader := h.reads (·.reader) fun _ => rfl
  simp only [Turn.stopReader, hreader]
  split
  · exact h.change _ fun _ => rfl
  · exact (h.cancelTask _).change _ fun _ => rfl

theorem Credited.stopRetry (h : Credited p e t u) : Credited p e t.stopRetry u.stopRetry := by
  have hretry : u.link.retry = t.link.retry := h.reads (·.retry) fun _ => rfl
  simp only [Turn.stopRetry, hretry]
  exact (h.cancelTask _).change _ fun _ => rfl

theorem Credited.dropSubscription (h : Credited p e t u) (luck : Luck) :
    Credited p e (t.dropSubscription luck) (u.dropSubscription luck) := by
  have hsub : u.link.subscription = t.link.subscription := h.reads (·.subscription) fun _ => rfl
  simp only [Turn.dropSubscription, hsub]
  split
  · exact h
  · split
    · exact ((h.act _).log _).change _ fun _ => rfl
    · exact (h.act _).change _ fun _ => rfl

theorem Credited.reconnect (h : Credited p e t u) (asker : Option Nat) :
    Credited p e (t.reconnect asker) (u.reconnect asker) := by
  have hoptions : u.link.options = t.link.options := h.reads (·.options) fun _ => rfl
  have hretries : u.link.retries = t.link.retries := h.reads (·.retries) fun _ => rfl
  have hretry : u.link.retry = t.link.retry := h.reads (·.retry) fun _ => rfl
  simp only [Turn.reconnect, hoptions, hretries, hretry]
  split
  · exact (h.log _).enter _
  · have hcount := h.change (fun l => { l with retries := t.link.retries + 1 }) fun _ => rfl
    split
    · exact (hcount.log _).employ .toRetry (fun n l => { l with retry := some n }) fun _ _ => rfl
    · exact ((hcount.cancelTask _).log _).employ .toRetry (fun n l => { l with retry := some n }) fun _ _ => rfl

theorem Credited.afterClose (h : Credited p e t u) (me : Nat) (next : AfterClose) :
    Credited p e (t.afterClose me next) (u.afterClose me next) := by
  cases next with
  | abandoned => exact h.finish _ _
  | teardown =>
    have hstopping : u.link.stopping = t.link.stopping := h.reads (·.stopping) fun _ => rfl
    simp only [Turn.afterClose, hstopping]
    split
    · exact (h.enter _).finish _ _
    · exact (h.reconnect _).finish _ _
  | stop =>
    have hdown := h.enter .disconnected
    have hstarted : (u.enter .disconnected).link.isStarted = (t.enter .disconnected).link.isStarted :=
      hdown.reads Link.isStarted fun _ => rfl
    have hcomponent : (u.enter .disconnected).link.component = (t.enter .disconnected).link.component :=
      hdown.reads (·.component) fun _ => rfl
    simp only [Turn.afterClose, hstarted, hcomponent]
    split
    · have hstopped := hdown.change
        (fun l => { l with component := (t.enter .disconnected).link.component.stop.1 }) fun _ => rfl
      exact (hstopped.foldl_log _).finish _ _
    · exact hdown.finish _ _

theorem Credited.closeClient (h : Credited p e t u) (me : Nat) (next : AfterClose) :
    Credited p e (t.closeClient me next) (u.closeClient me next) := by
  have hclient : u.link.client = t.link.client := h.reads (·.client) fun _ => rfl
  simp only [Turn.closeClient, hclient]
  split
  · exact h.afterClose _ _
  · exact (h.change _ fun _ => rfl).park _ _ _

theorem Credited.tearDown (h : Credited p e t u) (me : Nat) (luck : Luck) :
    Credited p e (t.tearDown me luck) (u.tearDown me luck) := by
  have hstate : u.link.state = t.link.state := h.reads (·.state) fun _ => rfl
  simp only [Turn.tearDown, hstate]
  cases t.link.state
  case reconnecting | disconnected => exact h.finish _ _
  case connecting | connected =>
    have hlost := (h.enter .reconnecting).change (fun l => { l with disconnects := l.disconnects + 1 }) fun _ => rfl
    exact ((hlost.stopKeeper.dropSubscription luck).stopReader me).closeClient _ _

/-! ## Connecting -/

theorem Credited.connectFailed (h : Credited p e t u) (me : Nat) (luck : Luck) (reason : String) :
    Credited p e (t.connectFailed me luck reason) (u.connectFailed me luck reason) := by
  have hretries : u.link.retries = t.link.retries := h.reads (·.retries) fun _ => rfl
  simp only [Turn.connectFailed, hretries]
  exact (h.log _).tearDown me luck

theorem Credited.connect (h : Credited p e t u) (me : Nat) (luck : Luck) :
    Credited p e (t.connect me luck) (u.connect me luck) := by
  have hstate : u.link.state = t.link.state := h.reads (·.state) fun _ => rfl
  have hopen := (h.change (fun l => { l with stopping := false }) fun _ => rfl).enter .connecting
  have hclients := hopen.reads (·.clients) fun _ => rfl
  simp only [Turn.connect, hstate]
  cases t.link.state
  case connecting | connected => exact h.finish _ _
  case disconnected | reconnecting =>
    simp only [hclients]
    have hasked : ∀ n, Credited p e _ _ := fun n =>
      (hopen.change (fun l => { l with clients := n }) fun _ => rfl).act (.create n)
    split
    · exact (hasked _).connectFailed me luck _
    · exact ((hasked _).change _ fun _ => rfl).park _ _ _

theorem Credited.subscribed (h : Credited p e t u) (me : Nat) (luck : Luck) (sub : Nat) :
    Credited p e (t.subscribed me luck sub) (u.subscribed me luck sub) := by
  have hstopping : u.link.stopping = t.link.stopping := h.reads (·.stopping) fun _ => rfl
  simp only [Turn.subscribed, hstopping]
  split
  · split
    · exact (h.act _).finish _ _
    · exact (h.act _).closeClient _ _
  · have hup := (h.change (fun l => { l with subscription := some sub }) fun _ => rfl).enter .connected
    have hcount := hup.change (fun l => { l with retries := 0, connections := l.connections + 1 }) fun _ => rfl
    have hkeep := hcount.employ (.toKeep sub) (fun n l => { l with keeper := some n }) fun _ _ => rfl
    have hread := hkeep.employ (.toRead sub) (fun n l => { l with reader := some n }) fun _ _ => rfl
    rw [hread.reads (·.options) fun _ => rfl]
    exact (hread.log _).finish _ _

/-! ## Going on -/

theorem Credited.call (h : Credited p e t u) (me now : Nat) (luck : Luck) (c : Call) :
    Credited p e (t.call me now luck c) (u.call me now luck c) := by
  cases c with
  | start =>
    have hstarted : u.link.isStarted = t.link.isStarted := h.reads Link.isStarted fun _ => rfl
    have hcomponent : u.link.component = t.link.component := h.reads (·.component) fun _ => rfl
    have hstate : u.link.state = t.link.state := h.reads (·.state) fun _ => rfl
    simp only [Turn.call, Turn.start, hstarted, hcomponent, hstate]
    split
    · split
      · exact h.connect me luck
      · exact h.finish _ _
    · have hbegun := h.change (fun l => { l with component := (t.link.component.start now).1 }) fun _ => rfl
      exact ((hbegun.foldl_log _).change (fun l => { l with stopping := false }) fun _ => rfl).connect me luck
  | stop =>
    have hstop := (h.change (fun l => { l with stopping := true }) fun _ => rfl).stopRetry
    exact ((hstop.stopKeeper.dropSubscription luck).stopReader me).closeClient _ _
  | connect => exact h.connect me luck
  | handleDisconnect => exact h.tearDown me luck

theorem Credited.readingEnded (h : Credited p e t u) (me : Nat) (luck : Luck) (n : Log.Entry) :
    Credited p e (t.readingEnded me luck n) (u.readingEnded me luck n) := by
  have hended := h.log n
  have hstopping : (u.log n).link.stopping = (t.log n).link.stopping := hended.reads (·.stopping) fun _ => rfl
  simp only [Turn.readingEnded, hstopping]
  split
  · exact hended.finish _ _
  · exact hended.tearDown me luck

theorem Credited.keep (h : Credited p e t u) (me sub : Nat) : Credited p e (t.keep me sub) (u.keep me sub) := by
  have hoptions : u.link.options = t.link.options := h.reads (·.options) fun _ => rfl
  simp only [Turn.keep, hoptions]
  exact h.park _ _ _

theorem Credited.goOn (h : Credited p e t u) (me now : Nat) (luck : Luck) (s : Stage ρ) (o : Outcome ρ) :
    Credited p e (t.goOn me now luck s o) (u.goOn me now luck s o) := by
  have hoptions : u.link.options = t.link.options := h.reads (·.options) fun _ => rfl
  unfold Turn.goOn
  split
  · exact h.call me now luck _
  · exact h.park _ _ _
  · exact h.connectFailed me luck _
  · exact (h.change _ fun _ => rfl).park _ _ _
  · exact h.connectFailed me luck _
  · exact h.subscribed me luck _
  · exact h.connectFailed me luck _
  · exact h.afterClose me _
  · exact (h.log _).afterClose me _
  · rw [hoptions]
    exact h.park _ _ _
  · exact (h.enter _).connect me luck
  · exact h.park _ _ _
  · exact ((h.change _ fun _ => rfl).spawn _).park _ _ _
  · exact h.readingEnded me luck _
  · exact h.readingEnded me luck _
  · exact h.keep me _
  · exact h.park _ _ _
  · exact h.keep me _
  · exact ((h.change _ fun _ => rfl).log _).keep me _
  · exact h.park _ _ _
  · exact (h.change _ fun _ => by simp only [credit, Nat.add_right_comm]).finish _ _
  · exact ((h.change _ fun _ => by simp only [credit, Nat.add_right_comm]).log _).finish _ _
  · exact h

end Turn

open Turn (Credited)

/-! ## Resuming and asking -/

theorem resume_credited (l : Link ρ) (id turn now : Nat) (luck : Luck) (o : Outcome ρ) :
    Credited p e (l.resume id turn now luck o) ((l.credit p e).resume id turn now luck o) := by
  have hstart := Turn.credited_start p e l
  simp only [Link.resume, show (l.credit p e).tasks = l.tasks from rfl]
  split
  · exact hstart
  · split
    · exact hstart
    · split
      · exact hstart.finish _ _
      · exact hstart.goOn id now luck _ o

theorem ask_credited (l : Link ρ) (c : Call) : Credited p e (l.ask c) ((l.credit p e).ask c) :=
  (Turn.credited_start p e l).spawn _

theorem askAtOnce_credited (l : Link ρ) (c : Call) (now : Nat) (luck : Luck) :
    Credited p e (l.askAtOnce c now luck) ((l.credit p e).askAtOnce c now luck) :=
  (Turn.credited_start p e { l with tasks := l.tasks.spawn (.called c) }).call l.tasks.next now luck c

theorem askRetry_credited (l : Link ρ) : Credited p e l.askRetry (l.credit p e).askRetry :=
  (Turn.credited_start p e l).reconnect none

end PoolFeed.Link
