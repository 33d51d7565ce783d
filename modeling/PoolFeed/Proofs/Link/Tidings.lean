import PoolFeed.Proofs.Link.Courses

/-!
# What listeners are told

Listeners are told of a change when the link enters another state, and never else; every one of them is told, also after
one that fails. So what a turn tells is read off the path of states that the link has taken in it. `Told` says that, and
that each change of the path is one of the five there are.
-/

namespace PoolFeed.Link

variable {ρ : Type}

/-! ## Paths -/

/-- The changes of state there are. -/
inductive Change : LinkState → LinkState → Prop
  | dial : Change .disconnected .connecting
  | connect : Change .connecting .connected
  | fail : Change .connecting .reconnecting
  | lose : Change .connected .reconnecting
  | rest : Change .reconnecting .disconnected

/-- A path from one state to another: every change begins where the one before it has ended. -/
inductive Path (s : LinkState) : List (LinkState × LinkState) → LinkState → Prop
  | nil : Path s [] s
  | snoc {path u v} : Path s path u → Change u v → Path s (path ++ [(u, v)]) v

theorem Path.append {s u v : LinkState} {path more : List (LinkState × LinkState)} (h : Path s path u)
    (hmore : Path u more v) : Path s (path ++ more) v := by
  induction hmore with
  | nil => simpa using h
  | snoc _ hchange ih =>
    rw [← List.append_assoc]
    exact ih.snoc hchange

/-! ## Reports -/

/-- A change of which a listener is told. -/
structure Report where
  listener : Listener
  old : LinkState
  new : LinkState
  deriving DecidableEq

def Action.report? : Action ρ → Option Report
  | .tell l old new => some ⟨l, old, new⟩
  | _ => none

/-- What comes of a listener's call: one that fails hears nothing. -/
def Listener.hears (old new : LinkState) : Listener → Option Report
  | .broken _ => none
  | l => some ⟨l, old, new⟩

/-- What listeners are told of the changes of a path. -/
def reports (ls : List Listener) (path : List (LinkState × LinkState)) : List Report :=
  path.flatMap fun change => ls.filterMap (Listener.hears change.1 change.2)

theorem reports_append (ls : List Listener) (path more : List (LinkState × LinkState)) :
    reports ls (path ++ more) = reports ls path ++ reports ls more := List.flatMap_append

namespace Turn

variable {t u : Turn ρ}

/-- What listeners have been told in a turn so far. -/
def reports (t : Turn ρ) : List Report := t.actions.filterMap Action.report?

theorem act_reports (a : Action ρ) : (t.act a).reports = t.reports ++ a.report?.toList := by
  simp only [reports, act, List.filterMap_append]
  cases h : a.report? <;> simp [h]

theorem act_reports_of_none {a : Action ρ} (h : a.report? = none) : (t.act a).reports = t.reports := by
  rw [act_reports, h, Option.toList_none, List.append_nil]

@[simp] theorem log_reports (e : Log.Entry) : (t.log e).reports = t.reports := act_reports_of_none rfl

@[simp] theorem change_reports (f : Link ρ → Link ρ) : (t.change f).reports = t.reports := rfl

theorem Notes.reports (h : t.Notes u) : u.reports = t.reports := by
  obtain ⟨es, -, hactions⟩ := h
  have hnone : (es.map (Action.log (ρ := ρ))).filterMap Action.report? = [] := by
    rw [List.filterMap_map]
    exact List.filterMap_eq_nil_iff.2 fun _ _ => rfl
  rw [Turn.reports, hactions, List.filterMap_append, hnone, List.append_nil]
  rfl

theorem tell_reports (old new : LinkState) (l : Listener) :
    (tell old new t l).reports = t.reports ++ (l.hears old new).toList := by
  cases l with
  | direct | deferred => exact act_reports _
  | broken reason => simp [tell, Listener.hears]

theorem foldl_tell_reports (old new : LinkState) (ls : List Listener) :
    ∀ t : Turn ρ, (ls.foldl (tell old new) t).reports = t.reports ++ ls.filterMap (Listener.hears old new) := by
  induction ls with
  | nil => simp
  | cons l ls ih =>
    intro t
    rw [List.foldl_cons, ih, tell_reports, List.append_assoc]
    cases h : l.hears old new <;> simp [h]

/-- Every listener is told of a change, whether or not others fail. -/
theorem enter_reports {s : LinkState} (h : t.link.state ≠ s) :
    (t.enter s).reports = t.reports ++ Link.reports t.link.listeners [(t.link.state, s)] := by
  simp only [enter, if_neg h, foldl_tell_reports, log_reports, change_reports]
  simp [Link.reports, log, act, change]

/-! ## Steps that tell nothing -/

@[simp] theorem finish_reports (me : Nat) (e : Ending) : (t.finish me e).reports = t.reports := act_reports_of_none rfl

@[simp] theorem park_reports (me : Nat) (s : Stage ρ) (r : Request ρ) : (t.park me s r).reports = t.reports :=
  act_reports_of_none rfl

@[simp] theorem spawn_reports (s : Stage ρ) : (t.spawn s).reports = t.reports := act_reports_of_none rfl

@[simp] theorem cancelTask_reports (id : Option Nat) : (t.cancelTask id).reports = t.reports := by
  simp only [cancelTask]
  split
  · rfl
  · exact act_reports_of_none rfl

@[simp] theorem dropSubscription_reports (luck : Luck) : (t.dropSubscription luck).reports = t.reports := by
  have hcancel : ∀ sub, (t.act (.cancel sub)).reports = t.reports := fun _ => act_reports_of_none rfl
  simp only [dropSubscription]
  split
  · rfl
  · split
    · rw [change_reports, log_reports, hcancel]
    · rw [change_reports, hcancel]

@[simp] theorem stopKeeper_reports : t.stopKeeper.reports = t.reports := by simp [stopKeeper]

@[simp] theorem stopReader_reports (me : Nat) : (t.stopReader me).reports = t.reports := by
  simp only [stopReader, change_reports]
  split <;> simp

@[simp] theorem letGo_reports (me : Nat) (luck : Luck) : (t.letGo me luck).reports = t.reports := by simp [letGo]

/-! ## Turns that take a path -/

/-- What a turn that began in a state has told its listeners is what there is to tell of a path to the present state. -/
structure Told (ls : List Listener) (s : LinkState) (t : Turn ρ) : Prop where
  listeners : t.link.listeners = ls
  path : ∃ path, Path s path t.link.state ∧ t.reports = Link.reports ls path

theorem told_start (l : Link ρ) : (⟨l, []⟩ : Turn ρ).Told l.listeners l.state := ⟨rfl, [], .nil, rfl⟩

variable {ls : List Listener} {s v : LinkState}

theorem Told.quiet (h : t.Told ls s) (hlisteners : u.link.listeners = t.link.listeners)
    (hstate : u.link.state = t.link.state) (hreports : u.reports = t.reports) : u.Told ls s := by
  obtain ⟨hls, path, hpath, htold⟩ := h
  exact ⟨hlisteners.trans hls, path, hstate.symm ▸ hpath, hreports.trans htold⟩

theorem Told.enter (h : t.Told ls s) (hchange : Change t.link.state v) : (t.enter v).Told ls s := by
  obtain ⟨hls, path, hpath, htold⟩ := h
  have hne : t.link.state ≠ v := by
    intro he
    rw [he] at hchange
    cases hchange
  refine ⟨?_, path ++ [(t.link.state, v)], ?_, ?_⟩
  · rw [enter_link]
    exact hls
  · rw [enter_link]
    exact hpath.snoc hchange
  · rw [enter_reports hne, htold, reports_append, hls]

theorem Told.finish (h : t.Told ls s) (me : Nat) (e : Ending) : (t.finish me e).Told ls s :=
  h.quiet rfl rfl (finish_reports me e)

theorem Told.park (h : t.Told ls s) (me : Nat) (s' : Stage ρ) (r : Request ρ) : (t.park me s' r).Told ls s :=
  h.quiet rfl rfl (park_reports me s' r)

/-- The connection is taken down. -/
theorem Told.fall (h : t.Told ls s) (hstate : t.link.state = .connecting ∨ t.link.state = .connected) (me : Nat)
    (luck : Luck) : (t.fall me luck).Told ls s := by
  have hchange : Change t.link.state .reconnecting := by
    rcases hstate with hs | hs <;> rw [hs]
    · exact .fail
    · exact .lose
  refine (h.enter hchange).quiet ?_ ?_ ?_
  · rw [fall_link, enter_link]
  · rw [fall_link, enter_link]
  · rw [Turn.fall, letGo_reports, change_reports]

/-- A client is asked for. -/
theorem Told.dial (h : t.Told ls s) (hstate : t.link.state = .disconnected) : t.dial.Told ls s := by
  have hgoing : (t.change fun l => { l with stopping := false }).Told ls s := h.quiet rfl rfl rfl
  have hchange : Change (t.change fun l => { l with stopping := false }).link.state .connecting := by
    rw [change_link, hstate]
    exact .dial
  refine (hgoing.enter hchange).quiet ?_ ?_ (act_reports_of_none rfl)
  · rw [dial_link, enter_link]
    rfl
  · rw [dial_link, enter_link]

/-- A retry is arranged, or the link gives up. -/
theorem Told.reconnect (h : t.Told ls s) (hstate : t.link.state = .reconnecting) (asker : Option Nat) :
    (t.reconnect asker).Told ls s := by
  by_cases hceiling : t.link.options.maxRetries ≤ t.link.retries
  · have hchange : Change (t.log (ceilingNote t.link.retries)).link.state .disconnected := by
      rw [log_link, hstate]
      exact .rest
    simp only [Turn.reconnect, if_pos hceiling]
    exact (h.quiet rfl rfl (log_reports _) : (t.log (ceilingNote t.link.retries)).Told ls s).enter hchange
  · simp only [Turn.reconnect, if_neg hceiling]
    split
    · refine h.quiet ?_ ?_ ?_ <;> simp
    · refine h.quiet ?_ ?_ ?_ <;> simp

/-- A subscription is taken over. -/
theorem Told.subscribed (h : t.Told ls s) (hstate : t.link.state = .connecting) (hgoing : t.link.stopping = false)
    (me sub : Nat) (luck : Luck) : (t.subscribed me luck sub).Told ls s := by
  have htaken : (t.change fun l => { l with subscription := some sub }).Told ls s := h.quiet rfl rfl rfl
  have hchange : Change (t.change fun l => { l with subscription := some sub }).link.state .connected := by
    rw [change_link, hstate]
    exact .connect
  refine (htaken.enter hchange).quiet ?_ ?_ ?_
  · rw [(subscribed_link me sub hgoing luck).2, enter_link]
    rfl
  · rw [(subscribed_link me sub hgoing luck).2, enter_link]
  · simp only [Turn.subscribed, hgoing, Bool.false_eq_true, if_false]
    simp

theorem Noted.told {l : Link ρ} (hu : u.Noted l) : u.Told l.listeners l.state := by
  obtain ⟨hnotes, v, p, e, f, hlink⟩ := hu
  refine (told_start l).quiet ?_ ?_ hnotes.reports <;> rw [hlink]

end Turn

end PoolFeed.Link
