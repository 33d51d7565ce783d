import PoolFeed.Proofs.Link.Turns

/-!
# What a turn does to the world outside

Most of what a turn leaves are notes, and changes that listeners are told of. Its deeds are the rest: what it
asks of the world outside, together with two notes of weight, that the link connects and that it gives up. Each step
of a turn adds the deeds that are listed here, and no others.
-/

namespace PoolFeed

theorem LinkState.name_inj {s u : LinkState} : s.name = u.name ↔ s = u := by
  cases s <;> cases u <;> decide

namespace Link

variable {ρ : Type}

/-! ## Deeds -/

/-- A note that says neither that the link connects nor that it gives up. -/
def plainNote (e : Log.Entry) : Bool := e.level != .critical && !e.tags.contains (.state LinkState.connecting.name)

/-- Whether an action asks nothing of the world outside and tells of nothing of weight. -/
def Action.isPlain : Action ρ → Bool
  | .log e => plainNote e
  | .tell _ _ new => new != .connecting
  | .wake _ _ | .ended _ _ => true
  | .create _ | .cancel _ | .await _ _ _ => false

/-- The link connects: a client is asked for, or the change is noted or told. -/
def Action.connects : Action ρ → Bool
  | .create _ => true
  | .log e => e.tags.contains (.state LinkState.connecting.name)
  | .tell _ _ new => new == .connecting
  | _ => false

/-- The link gives up: no other note is that grave. -/
def Action.givesUp : Action ρ → Bool
  | .log e => e.level == .critical
  | _ => false

/-- A note or a call of a listener, but not that the link gives up. -/
def Action.heralds : Action ρ → Bool
  | .log e => e.level != .critical
  | .tell _ _ _ => true
  | _ => false

theorem Action.not_connects_of_isPlain {a : Action ρ} (h : a.isPlain) : a.connects = false := by
  cases a with
  | log e =>
    simp only [isPlain, plainNote, Bool.and_eq_true, Bool.not_eq_true'] at h
    exact h.2
  | tell l old new => simpa [isPlain, connects] using h
  | create n | cancel n | await i k r => cases h
  | wake i k | ended i e => rfl

theorem Action.not_givesUp_of_isPlain {a : Action ρ} (h : a.isPlain) : a.givesUp = false := by
  cases a with
  | log e =>
    simp only [isPlain, plainNote, Bool.and_eq_true, bne_iff_ne, ne_eq] at h
    simpa [givesUp] using h.1
  | _ => rfl

namespace Turn

variable {t : Turn ρ}

def deeds (t : Turn ρ) : List (Action ρ) := t.actions.filter (!·.isPlain)

theorem mem_deeds {a : Action ρ} : a ∈ t.deeds ↔ a ∈ t.actions ∧ a.isPlain = false := by
  rw [deeds, List.mem_filter, Bool.not_eq_true']

section
variable {u : Turn ρ} {f : Action ρ → Bool}

/-- No deed of a turn is of some kind. -/
def Lacks (f : Action ρ → Bool) (t : Turn ρ) : Prop := ∀ a ∈ t.deeds, f a = false

theorem lacks_start (f : Action ρ → Bool) (l : Link ρ) : (⟨l, []⟩ : Turn ρ).Lacks f := nofun

theorem Lacks.of_deeds (h : t.Lacks f) (hdeeds : u.deeds = t.deeds) : u.Lacks f := by
  rwa [Lacks, hdeeds]

theorem Lacks.append {as : List (Action ρ)} (h : t.Lacks f) (hdeeds : u.deeds = t.deeds ++ as)
    (has : ∀ a ∈ as, f a = false) : u.Lacks f := by
  rw [Lacks, hdeeds]
  exact List.forall_mem_append.2 ⟨h, has⟩

theorem Lacks.append_one {a : Action ρ} (h : t.Lacks f) (hdeeds : u.deeds = t.deeds ++ [a]) (ha : f a = false) :
    u.Lacks f := h.append hdeeds fun _ hb => List.mem_singleton.1 hb ▸ ha

theorem Lacks.append_cancels {sub : Option Nat} (h : t.Lacks f)
    (hdeeds : u.deeds = t.deeds ++ sub.toList.map .cancel) (hcancel : ∀ n, f (.cancel n) = false) : u.Lacks f :=
  h.append hdeeds (List.forall_mem_map.2 fun n _ => hcancel n)

/-- If no plain action is of that kind either, no action at all is. -/
theorem lacks_iff (hplain : ∀ a : Action ρ, a.isPlain → f a = false) :
    t.Lacks f ↔ ∀ a ∈ t.actions, f a = false := by
  refine ⟨fun h a ha => ?_, fun h a ha => h a (mem_deeds.1 ha).1⟩
  cases hp : a.isPlain with
  | true => exact hplain a hp
  | false => exact h a (mem_deeds.2 ⟨ha, hp⟩)

end

/-! ## Notes and states -/

theorem act_deeds_of_plain {a : Action ρ} (h : a.isPlain) : (t.act a).deeds = t.deeds := by
  simp [deeds, act, h]

theorem act_deeds {a : Action ρ} (h : a.isPlain = false) : (t.act a).deeds = t.deeds ++ [a] := by
  simp [deeds, act, h]

@[simp] theorem change_deeds (f : Link ρ → Link ρ) : (t.change f).deeds = t.deeds := rfl

@[simp] theorem log_deeds {e : Log.Entry} (h : plainNote e) : (t.log e).deeds = t.deeds := act_deeds_of_plain h

theorem foldl_log_deeds {es : List Log.Entry} (h : ∀ e ∈ es, plainNote e) (t : Turn ρ) :
    (es.foldl log t).deeds = t.deeds := by
  induction es generalizing t with
  | nil => rfl
  | cons e es ih =>
    rw [List.forall_mem_cons] at h
    rw [List.foldl_cons, ih h.2, log_deeds h.1]

theorem tell_deeds {old new : LinkState} (h : new ≠ .connecting) (l : Listener) :
    (tell old new t l).deeds = t.deeds := by
  cases l with
  | direct | deferred => exact act_deeds_of_plain (by simpa [Action.isPlain] using h)
  | broken reason => exact log_deeds rfl

theorem foldl_tell_deeds {old new : LinkState} (h : new ≠ .connecting) (ls : List Listener) (t : Turn ρ) :
    (ls.foldl (tell old new) t).deeds = t.deeds := by
  induction ls generalizing t with
  | nil => rfl
  | cons l ls ih => rw [List.foldl_cons, ih, tell_deeds h]

/-- The note of a change is plain unless the link connects. -/
theorem plainNote_change (message : String) {s : LinkState} (h : s ≠ .connecting) :
    plainNote (Log.info message [.state s.name]) := by
  have hname : s.name ≠ LinkState.connecting.name := fun e => h (LinkState.name_inj.1 e)
  simp [plainNote, Log.info, hname.symm]

@[simp] theorem enter_deeds {s : LinkState} (h : s ≠ .connecting) : (t.enter s).deeds = t.deeds := by
  simp only [enter]
  split
  · rfl
  · rw [foldl_tell_deeds h, log_deeds (plainNote_change _ h), change_deeds]

/-- A turn has gone on with nothing but notes and calls of listeners. -/
def Announces (t u : Turn ρ) : Prop := ∃ heralds, u.deeds = t.deeds ++ heralds ∧ ∀ a ∈ heralds, a.heralds

theorem Announces.act {u : Turn ρ} (h : t.Announces u) {a : Action ρ} (ha : a.heralds) : t.Announces (u.act a) := by
  obtain ⟨hs, hdeeds, hall⟩ := h
  cases hp : a.isPlain with
  | true => exact ⟨hs, (act_deeds_of_plain hp).trans hdeeds, hall⟩
  | false =>
    refine ⟨hs ++ [a], by rw [act_deeds hp, hdeeds, List.append_assoc], ?_⟩
    exact List.forall_mem_append.2 ⟨hall, by simpa using ha⟩

/-- Whatever state is entered. -/
theorem announces_enter (t : Turn ρ) (s : LinkState) : t.Announces (t.enter s) := by
  have hrefl : t.Announces t := ⟨[], (List.append_nil _).symm, nofun⟩
  have htell : ∀ (old : LinkState) (ls : List Listener) (u : Turn ρ), t.Announces u →
      t.Announces (ls.foldl (tell old s) u) := by
    intro old ls
    induction ls with
    | nil => exact fun _ h => h
    | cons l ls ih =>
      intro u h
      refine ih _ ?_
      cases l with
      | direct | deferred | broken reason => exact h.act rfl
  simp only [enter]
  split
  · exact hrefl
  · exact htell _ _ _ (Announces.act (u := t.change fun l => { l with state := s }) hrefl rfl)

/-- A turn has gone on with nothing but plain notes. -/
def Notes (t u : Turn ρ) : Prop := ∃ es : List Log.Entry, (∀ e ∈ es, plainNote e) ∧ u.actions = t.actions ++ es.map .log

theorem notes_refl (t : Turn ρ) : t.Notes t := ⟨[], nofun, (List.append_nil _).symm⟩

theorem Notes.log {u : Turn ρ} (h : t.Notes u) {e : Log.Entry} (he : plainNote e) : t.Notes (u.log e) := by
  obtain ⟨es, hes, hactions⟩ := h
  refine ⟨es ++ [e], List.forall_mem_append.2 ⟨hes, by simpa using he⟩, ?_⟩
  simp [Turn.log, act, hactions]

theorem Notes.foldl_log {es : List Log.Entry} (hes : ∀ e ∈ es, plainNote e) {u : Turn ρ} (h : t.Notes u) :
    t.Notes (es.foldl Turn.log u) := by
  induction es generalizing u with
  | nil => exact h
  | cons e es ih =>
    rw [List.forall_mem_cons] at hes
    exact ih hes.2 (h.log hes.1)

theorem Notes.deeds {u : Turn ρ} (h : t.Notes u) : u.deeds = t.deeds := by
  obtain ⟨es, hes, hactions⟩ := h
  have hplain : (es.map (Action.log (ρ := ρ))).filter (!·.isPlain) = [] := by
    simpa [List.filter_eq_nil_iff, Action.isPlain] using hes
  rw [Turn.deeds, hactions, List.filter_append, hplain, List.append_nil]
  rfl

/-! ## Tasks -/

@[simp] theorem finish_deeds (me : Nat) (e : Ending) : (t.finish me e).deeds = t.deeds := act_deeds_of_plain rfl

@[simp] theorem park_deeds (me : Nat) (s : Stage ρ) (r : Request ρ) :
    (t.park me s r).deeds = t.deeds ++ [.await me (t.link.tasks.nextTurn me) r] := act_deeds rfl

@[simp] theorem spawn_deeds (s : Stage ρ) : (t.spawn s).deeds = t.deeds := act_deeds_of_plain rfl

@[simp] theorem cancelTask_deeds (id : Option Nat) : (t.cancelTask id).deeds = t.deeds := by
  simp only [cancelTask]
  split
  · rfl
  · exact act_deeds_of_plain rfl

/-! ## Closing -/

@[simp] theorem stopKeeper_deeds : t.stopKeeper.deeds = t.deeds := by simp [stopKeeper]

@[simp] theorem stopRetry_deeds : t.stopRetry.deeds = t.deeds := by simp [stopRetry]

@[simp] theorem stopReader_deeds (me : Nat) : (t.stopReader me).deeds = t.deeds := by
  simp only [stopReader, change_deeds]
  split <;> simp

@[simp] theorem dropSubscription_deeds (luck : Luck) :
    (t.dropSubscription luck).deeds = t.deeds ++ t.link.subscription.toList.map .cancel := by
  simp only [dropSubscription]
  split
  · rename_i h
    simp [h]
  · rename_i sub h
    have hcancel : (t.act (.cancel sub)).deeds = t.deeds ++ t.link.subscription.toList.map .cancel := by
      rw [act_deeds rfl, h]
      rfl
    split
    · rw [change_deeds, log_deeds rfl, hcancel]
    · rw [change_deeds, hcancel]

end Turn

end Link

end PoolFeed
