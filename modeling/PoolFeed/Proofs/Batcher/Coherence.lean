import PoolFeed.Proofs.Batcher.Oversight

/-!
# Starts and stops that overlap

| here | there |
| --- | --- |
| `Coherent` | "component whose work is a single loop task" (`AlwaysOnComponent`), `is_running` and `is_started` |
| `Off`, `On`, `Closing` | `AlwaysOnComponent` before `start`, after it, and while `stop` awaits |
| `Crossed`, `Torn` | while `stop` awaits and a `start` has come, and when that `stop` has returned |

Between its calls the batcher is coherent (`Coherent`) if it runs exactly when it counts as started, and has one loop then
and none otherwise. It stays so as long as nobody starts it while a stop is under way: a start that comes then begins a
loop of its own and does not count, for the component is still started, and the stop that returns later takes the count
away and leaves the batcher running (`coherent_iff`).
-/

namespace PoolFeed.Batcher

variable {ρ : Type}

/-- Between its calls: the batcher runs exactly when it counts as started, and exactly then it has a loop; there are
never two, and a batcher that does not run has one again when it is started. -/
structure Coherent (b : Batcher ρ) : Prop where
  started : b.running = b.component.isStarted
  alive : b.running = true ↔ b.tasks.countAt Stage.isLoop = 1
  single : b.tasks.countAt Stage.isLoop ≤ 1
  again : ∀ now, b.running = false → (b.start now).batcher.tasks.countAt Stage.isLoop = 1

/-! ## Phases -/

/-- The batcher is stopped. -/
structure Off (b : Batcher ρ) : Prop where
  halted : b.running = false
  started : b.component.isStarted = false
  loops : b.tasks.Only Stage.isLoop none
  stops : b.tasks.Only Stage.isStop none

/-- The batcher runs its loop. -/
structure On (loop : Nat) (b : Batcher ρ) : Prop where
  running : b.running = true
  started : b.component.isStarted = true
  present : b.loop = some loop
  stands : ∃ s, b.tasks.stage? loop = some s ∧ s.isLoop = true
  loops : b.tasks.Only Stage.isLoop (some loop)
  stops : b.tasks.Only Stage.isStop none

/-- A stop waits for a loop that nobody has told to give up. -/
structure Awaits (loop stop : Nat) (w : Overseen ρ) : Prop where
  waits : w.batcher.tasks.stage? stop = some (.stopping loop)
  other : loop ≠ stop
  kept : ∀ t, w.batcher.tasks.find? loop = some t → t.cancelled = false
  ending : ∀ e, (loop, e) ∈ w.endings → e = .finished

/-- The batcher is being stopped. -/
structure Closing (loop stop : Nat) (w : Overseen ρ) : Prop where
  halted : w.batcher.running = false
  started : w.batcher.component.isStarted = true
  present : w.batcher.loop = some loop
  waits : Awaits loop stop w ∨ w.batcher.tasks.stage? stop = some (.expiring loop)
  loops : w.batcher.tasks.Only Stage.isLoop (some loop)
  stops : w.batcher.tasks.Only Stage.isStop (some stop)

/-- The batcher has been started again before a stop returned. -/
structure Crossed (stop : Nat) (w : Overseen ρ) : Prop where
  running : w.batcher.running = true
  present : ∃ loop, w.batcher.loop = some loop ∧ loop ≠ stop
  waits : (∃ loop, Awaits loop stop w) ∨ ∃ s loop, w.batcher.tasks.stage? stop = some s ∧ (s = .expiring loop ∨ s = .dropping loop)
  stops : w.batcher.tasks.Only Stage.isStop (some stop)

/-- The batcher runs and does not count as started. -/
structure Torn (b : Batcher ρ) : Prop where
  running : b.running = true
  started : b.component.isStarted = false
  stops : b.tasks.Only Stage.isStop none

section Aside

variable {w w' : Overseen ρ} {loop stop : Nat}

theorem Off.aside (h : Off w.batcher) (hord : w.batcher.tasks.Ordered) (ha : Aside w w') : Off w'.batcher where
  halted := ha.running.trans h.halted
  started := by rw [ha.component, h.started]
  loops := ha.shifts.loops hord h.loops
  stops := ha.shifts.stops hord h.stops

theorem On.aside (h : On loop w.batcher) (hord : w.batcher.tasks.Ordered) (ha : Aside w w') : On loop w'.batcher where
  running := ha.running.trans h.running
  started := by rw [ha.component, h.started]
  present := ha.loop.trans h.present
  stands := by
    obtain ⟨s, hs, hloop⟩ := h.stands
    exact ha.shifts.loop_lives hord h.running hs hloop
  loops := ha.shifts.loops hord h.loops
  stops := ha.shifts.stops hord h.stops

theorem Awaits.aside (h : Awaits loop stop w) (hord : w.batcher.tasks.Ordered) (ha : Aside w w') :
    Awaits loop stop w' := by
  have hwaits := ha.shifts.stop_stays hord h.waits rfl
  obtain ⟨b', es'⟩ := w'
  obtain ⟨-, -, -, hshifts⟩ := ha
  have hfinished : ∀ (me : Nat) (e : Ending), (loop, e) ∈ w.endings ++ [(me, .finished)] → e = .finished := by
    intro me e he
    obtain he | he := List.mem_append.1 he
    · exact h.ending e he
    · exact (Prod.mk.inj (List.mem_singleton.1 he)).2
  have herase : ∀ (ts : Tasks Stage) (me : Nat), (∀ t, ts.find? loop = some t → t.cancelled = false) →
      ∀ t, (ts.erase me).find? loop = some t → t.cancelled = false := fun ts me hkept t ht =>
    hkept t (Tasks.find?_of_erase ht).2
  have hspawn : ∀ s t, (w.batcher.tasks.spawn s).find? loop = some t → t.cancelled = false := by
    intro s t ht
    obtain ⟨-, rfl⟩ | hold := Tasks.find?_of_spawn hord ht
    · rfl
    · exact h.kept t hold
  refine ⟨hwaits, h.other, ?_, ?_⟩
  · show ∀ t, b'.tasks.find? loop = some t → t.cancelled = false
    generalize b'.tasks = ts at hshifts
    cases hshifts with
    | none => exact h.kept
    | spawns s _ _ => exact hspawn s
    | goes _ _ _ _ =>
      intro t ht
      rw [Tasks.find?_advance] at ht
      split at ht
      · obtain ⟨u, hu, rfl⟩ := Option.map_eq_some_iff.1 ht
        exact h.kept u hu
      · exact h.kept t ht
    | ends _ _ _ => exact herase _ _ h.kept
    | givesUp _ _ => exact herase _ _ h.kept
    | returns s => exact herase _ _ (hspawn s)
  · show ∀ e, (loop, e) ∈ es' → e = .finished
    generalize b'.tasks = ts at hshifts
    cases hshifts with
    | none => exact h.ending
    | spawns _ _ _ => exact h.ending
    | goes _ _ _ _ => exact h.ending
    | ends _ _ _ => exact hfinished _
    | @givesUp me t ht hcancelled =>
      intro e he
      obtain he | he := List.mem_append.1 he
      · exact h.ending e he
      · obtain ⟨rfl, -⟩ := Prod.mk.inj (List.mem_singleton.1 he)
        rw [h.kept t ht] at hcancelled
        cases hcancelled
    | returns s => exact hfinished _

theorem Closing.aside (h : Closing loop stop w) (hord : w.batcher.tasks.Ordered) (ha : Aside w w') :
    Closing loop stop w' where
  halted := ha.running.trans h.halted
  started := by rw [ha.component, h.started]
  present := ha.loop.trans h.present
  waits := h.waits.imp (fun haw => haw.aside hord ha) fun hex => ha.shifts.stop_stays hord hex rfl
  loops := ha.shifts.loops hord h.loops
  stops := ha.shifts.stops hord h.stops

theorem Crossed.aside (h : Crossed stop w) (hord : w.batcher.tasks.Ordered) (ha : Aside w w') : Crossed stop w' where
  running := ha.running.trans h.running
  present := by
    rw [ha.loop]
    exact h.present
  waits := by
    refine h.waits.imp (fun ⟨l, haw⟩ => ⟨l, haw.aside hord ha⟩) ?_
    rintro ⟨s, l, hs, hkind⟩
    refine ⟨s, l, ha.shifts.stop_stays hord hs ?_, hkind⟩
    obtain rfl | rfl := hkind <;> rfl
  stops := ha.shifts.stops hord h.stops

theorem Torn.aside (h : Torn w.batcher) (hord : w.batcher.tasks.Ordered) (ha : Aside w w') : Torn w'.batcher where
  running := ha.running.trans h.running
  started := by rw [ha.component, h.started]
  stops := ha.shifts.stops hord h.stops

end Aside

/-! ## From phase to phase -/

section Phases

variable {w : Overseen ρ} {b : Batcher ρ} {m : Move ρ} {loop stop now : Nat} {s : Stage} {o : Outcome} {u : Turn ρ}

theorem step_of_turn (h : m.turn w.batcher = u) : w.step m = ⟨u.batcher, w.endings ++ u.endings⟩ := by
  rw [Overseen.step, h]

theorem Off.start (h : Off b) (hord : b.tasks.Ordered) (now : Nat) : On b.tasks.next (b.start now).batcher := by
  rw [start_halted h.halted]
  exact {
    running := rfl
    started := Component.isStarted_start _ now
    present := rfl
    stands := ⟨.begun, Tasks.stage?_spawn_self hord _, rfl⟩
    loops := (h.loops.weaken _).spawn hord fun _ => rfl
    stops := h.stops.spawn hord nofun }

/-- A stop begins to wait for the loop. -/
theorem On.ask (h : On loop w.batcher) (hsane : Sane w) (now : Nat) :
    Closing loop w.batcher.tasks.next (w.step (.ask .stop now)) := by
  obtain ⟨s, hs, hloop⟩ := h.stands
  obtain ⟨t, ht, -, hkept⟩ := Tasks.find?_of_stage? hs
  have hne : loop ≠ w.batcher.tasks.next := Nat.ne_of_lt (Tasks.lt_next_of_stage? hsane.ordered hs)
  have hlive : (w.batcher.tasks.spawn (.called .stop)).isLive loop = true := by
    rw [Tasks.isLive, Tasks.find?_spawn hsane.ordered, if_neg hne, ht]
    rfl
  have hturn : Move.turn w.batcher (.ask .stop now) = Turn.park ⟨{ w.batcher with
      running := false, tasks := w.batcher.tasks.spawn (.called .stop) }, []⟩ w.batcher.tasks.next (.stopping loop)
      (.exited (some w.batcher.patience)) := by
    show Turn.stop ⟨_, _⟩ _ = _
    rw [Turn.stop, if_pos h.running]
    simp only [Turn.change, h.present]
    rw [if_pos hlive]
    rfl
  have hgone : ∀ e, (loop, e) ∉ w.endings := fun e he => by
    rw [(hsane.past _ he).2] at ht
    cases ht
  rw [step_of_turn hturn, Turn.park_endings]
  refine {
    halted := rfl
    started := h.started
    present := h.present
    waits := .inl ⟨?_, hne, ?_, ?_⟩
    loops := ?_
    stops := ?_ }
  · exact Tasks.stage?_advance_self (Tasks.stage?_spawn_self hsane.ordered _) _
  · intro t' ht'
    change ((w.batcher.tasks.spawn (.called .stop)).advance w.batcher.tasks.next (.stopping loop)).find? loop = some t' at ht'
    rw [Tasks.find?_advance, if_neg hne, Tasks.find?_spawn hsane.ordered, if_neg hne, ht] at ht'
    obtain rfl := Option.some.inj ht'
    exact hkept
  · intro e he
    exact absurd ((List.append_nil w.endings).subst he) (hgone e)
  · have hspawn : (w.batcher.tasks.spawn (.called .stop)).Only Stage.isLoop (some loop) :=
      h.loops.spawn hsane.ordered fun hs => by cases hs
    exact hspawn.advance fun hs => by cases hs
  · exact ((h.stops.weaken _).spawn hsane.ordered fun _ => rfl).advance fun _ => rfl

/-- A task is left standing when another one is told to give up, or none. -/
theorem stage?_of_given {ts : Tasks Stage} {id other : Nat} {given : Option Nat} (hs : ts.stage? id = some s)
    (hne : other ≠ id) (hgiven : given ∈ [none, some other]) : (ts.cancel? given).stage? id = some s := by
  have hother : given ≠ some id := by
    simp only [List.mem_cons, List.not_mem_nil, or_false] at hgiven
    obtain rfl | rfl := hgiven
    · nofun
    · exact fun h => hne (Option.some.inj h)
  rw [Tasks.stage?_cancel?, if_neg hother]
  exact hs

/-- What a stop is told of the end of a loop is written down. -/
theorem told_of_honest {e : Ending} (hhonest : w.honest m = true) (hgoes : m.goesOn? w.batcher = some (stop, s, .exited e))
    (hloop : s.awaited? = some loop) : (loop, e) ∈ w.endings := by
  simpa only [Overseen.honest, hgoes, hloop, Option.all_some, List.contains_iff_mem] using hhonest

/-- A stop returns when its loop is gone. -/
theorem Closing.returns (h : Closing loop stop w) (hu : u.batcher = w.batcher) (hgone : w.batcher.tasks.find? loop = none) :
    Off (u.loopGone stop).batcher := by
  rw [(u.loopGone_eq stop).1, hu]
  exact ⟨h.halted, Component.isStarted_stop _, (h.loops.of_gone hgone).erase stop, h.stops.erase_self⟩

/-- A stop loses its patience and tells its loop to give up. -/
theorem Closing.expires (h : Closing loop stop w) (hst : w.batcher.tasks.stage? stop = some s) (hne : loop ≠ stop)
    (r : Request ρ) :
    Closing loop stop ⟨((Turn.cancelTask ⟨w.batcher, []⟩ loop).park stop (.expiring loop) r).batcher,
      w.endings ++ ((Turn.cancelTask ⟨w.batcher, []⟩ loop).park stop (.expiring loop) r).endings⟩ := by
  obtain ⟨given, hgiven, hb, hes⟩ := Turn.cancelTask_park ⟨w.batcher, []⟩ stop loop (.expiring loop) r
  rw [hb, hes]
  exact {
    halted := h.halted
    started := h.started
    present := h.present
    waits := .inr (Tasks.stage?_advance_self (stage?_of_given hst hne hgiven) _)
    loops := (h.loops.cancel? given).advance nofun
    stops := (h.stops.cancel? given).advance fun _ => rfl }

/-- A stop that waits for a loop is told that it has ended, loses its patience, or goes on waiting. -/
theorem Closing.goesOn (h : Closing loop stop w) (hsane : Sane w) (hhonest : w.honest m = true) (hm : StopGoesOn w m) :
    Closing loop stop (w.step m) ∨ Off (w.step m).batcher := by
  obtain ⟨stop', now, s, o, hst, hs, hgoes, hturn⟩ := hm
  obtain ⟨t, ht, rfl, -⟩ := Tasks.find?_of_stage? hst
  obtain rfl : stop = stop' := Option.some.inj (h.stops _ t ht hs)
  rw [step_of_turn hturn]
  have hstays : Closing loop stop ⟨w.batcher, w.endings ++ []⟩ := (List.append_nil w.endings).symm ▸ h
  rcases h.waits with haw | hex
  · obtain hstage : t.stage = .stopping loop := Option.some.inj (hst.symm.trans haw.waits)
    rw [hstage] at hgoes ⊢
    cases o with
    | done => exact .inl hstays
    | failed reason => exact .inl hstays
    | expired => exact .inl (h.expires hst haw.other _)
    | exited e =>
      have htold := told_of_honest hhonest hgoes rfl
      obtain rfl := haw.ending e htold
      exact .inr (h.returns (u := ⟨w.batcher, []⟩) rfl (hsane.past _ htold).2)
  · obtain hstage : t.stage = .expiring loop := Option.some.inj (hst.symm.trans hex)
    rw [hstage] at hgoes ⊢
    cases o with
    | done => exact .inl hstays
    | failed reason => exact .inl hstays
    | expired => exact .inl hstays
    | exited e =>
      have hgone := (hsane.past _ (told_of_honest hhonest hgoes rfl)).2
      obtain ⟨entry, he⟩ := Turn.giveUp_eq (t := ⟨w.batcher, []⟩) h.present stop
      have hlive : ¬w.batcher.tasks.isLive loop = true := by
        rw [Tasks.isLive, hgone]
        nofun
      rw [if_neg hlive] at he
      refine .inr ?_
      show Off (Turn.giveUp _ _).batcher
      rw [he]
      exact h.returns rfl hgone

/-- A start while a stop is under way begins another loop. -/
theorem Closing.start (h : Closing loop stop w) (hsane : Sane w) (now : Nat) : Crossed stop (w.step (.start now)) := by
  have hstop : stop < w.batcher.tasks.next := by
    obtain haw | hex := h.waits
    · exact Tasks.lt_next_of_stage? hsane.ordered haw.waits
    · exact Tasks.lt_next_of_stage? hsane.ordered hex
  show Crossed stop ⟨(w.batcher.start now).batcher, w.endings ++ (w.batcher.start now).endings⟩
  rw [start_endings, List.append_nil, start_halted h.halted]
  refine {
    running := rfl
    present := ⟨_, rfl, Nat.ne_of_gt hstop⟩
    waits := ?_
    stops := h.stops.spawn hsane.ordered nofun }
  refine h.waits.imp (fun haw => ⟨loop, ?_, haw.other, fun t ht => ?_, haw.ending⟩) fun hex => ⟨_, loop, ?_, .inl rfl⟩
  · exact Tasks.stage?_spawn_of_some hsane.ordered haw.waits _
  · obtain ⟨-, rfl⟩ | hold := Tasks.find?_of_spawn hsane.ordered ht
    · rfl
    · exact haw.kept t hold
  · exact Tasks.stage?_spawn_of_some hsane.ordered hex _

/-- The stop that was crossed takes the count away when it returns. -/
theorem Crossed.returns (h : Crossed stop w) (hu : u.batcher = w.batcher) : Torn (u.loopGone stop).batcher := by
  rw [(u.loopGone_eq stop).1, hu]
  exact ⟨h.running, Component.isStarted_stop _, h.stops.erase_self⟩

/-- The stop that was crossed tells a loop to give up and waits on. -/
theorem Crossed.waitsOn (h : Crossed stop w) {s' : Stage} (hst : w.batcher.tasks.stage? stop = some s)
    (hu : u.batcher = w.batcher) (hne : loop ≠ stop) (hkind : s' = .expiring loop ∨ s' = .dropping loop) (r : Request ρ) :
    Crossed stop ⟨((u.cancelTask loop).park stop s' r).batcher, w.endings ++ ((u.cancelTask loop).park stop s' r).endings⟩ := by
  obtain ⟨given, hgiven, hb, -⟩ := u.cancelTask_park stop loop s' r
  rw [hb, hu]
  exact {
    running := h.running
    present := h.present
    waits := .inr ⟨s', loop, Tasks.stage?_advance_self (stage?_of_given hst hne hgiven) _, hkind⟩
    stops := (h.stops.cancel? given).advance fun _ => rfl }

/-- The stop that was crossed goes on waiting, also for the new loop, or returns and leaves the batcher torn. -/
theorem Crossed.goesOn (h : Crossed stop w) (hhonest : w.honest m = true) (hm : StopGoesOn w m) :
    Crossed stop (w.step m) ∨ Torn (w.step m).batcher := by
  obtain ⟨stop', now, s, o, hst, hs, hgoes, hturn⟩ := hm
  obtain ⟨t, ht, rfl, -⟩ := Tasks.find?_of_stage? hst
  obtain rfl : stop = stop' := Option.some.inj (h.stops _ t ht hs)
  rw [step_of_turn hturn]
  have hstays : Crossed stop ⟨w.batcher, w.endings ++ []⟩ := (List.append_nil w.endings).symm ▸ h
  have htorn := h.returns (u := ⟨w.batcher, []⟩) rfl
  obtain ⟨present, hpresent, hother⟩ := h.present
  rcases h.waits with ⟨loop, haw⟩ | ⟨s, loop, hs', rfl | rfl⟩
  · obtain hstage : t.stage = .stopping loop := Option.some.inj (hst.symm.trans haw.waits)
    rw [hstage] at hgoes ⊢
    cases o with
    | done => exact .inl hstays
    | failed reason => exact .inl hstays
    | expired => exact .inl (h.waitsOn hst rfl haw.other (.inl rfl) _)
    | exited e =>
      obtain rfl := haw.ending e (told_of_honest hhonest hgoes rfl)
      exact .inr htorn
  · obtain hstage : t.stage = .expiring loop := Option.some.inj (hst.symm.trans hs')
    rw [hstage]
    cases o with
    | done => exact .inl hstays
    | failed reason => exact .inl hstays
    | expired => exact .inl hstays
    | exited e =>
      obtain ⟨entry, he⟩ := Turn.giveUp_eq (t := ⟨w.batcher, []⟩) hpresent stop
      show Crossed stop ⟨(Turn.giveUp _ _).batcher, w.endings ++ (Turn.giveUp _ _).endings⟩ ∨ Torn (Turn.giveUp _ _).batcher
      rw [he]
      split
      · exact .inl (h.waitsOn hst rfl hother (.inr rfl) _)
      · exact .inr (h.returns rfl)
  · obtain hstage : t.stage = .dropping loop := Option.some.inj (hst.symm.trans hs')
    rw [hstage]
    cases o with
    | done => exact .inl hstays
    | failed reason => exact .inl hstays
    | expired => exact .inl hstays
    | exited e => exact .inr htorn

theorem stopping_of_stage? (hs : w.batcher.tasks.stage? stop = some s) (hstop : s.isStop = true) : w.stopping = true := by
  obtain ⟨t, ht, rfl, -⟩ := Tasks.find?_of_stage? hs
  exact List.any_eq_true.2 ⟨t, Tasks.mem_of_find? ht, hstop⟩

theorem Closing.stopping (h : Closing loop stop w) : w.stopping = true := by
  obtain haw | hex := h.waits
  · exact stopping_of_stage? haw.waits rfl
  · exact stopping_of_stage? hex rfl

theorem Crossed.stopping (h : Crossed stop w) : w.stopping = true := by
  obtain ⟨loop, haw⟩ | ⟨s, loop, hs, hkind⟩ := h.waits
  · exact stopping_of_stage? haw.waits rfl
  · refine stopping_of_stage? hs ?_
    obtain rfl | rfl := hkind <;> rfl

/-- No stop goes on where there is none. -/
theorem not_stopGoesOn (h : w.batcher.tasks.Only Stage.isStop none) : ¬StopGoesOn w m := by
  rintro ⟨stop, now, s, o, hst, hs, -⟩
  obtain ⟨t, ht, rfl, -⟩ := Tasks.find?_of_stage? hst
  cases h _ t ht hs

/-- The batcher is stopped, runs, or is being stopped. -/
def Phase (w : Overseen ρ) : Prop := Off w.batcher ∨ (∃ loop, On loop w.batcher) ∨ ∃ loop stop, Closing loop stop w

theorem Phase.aside {w' : Overseen ρ} (h : Phase w) (hord : w.batcher.tasks.Ordered) (ha : Aside w w') : Phase w' :=
  h.imp (fun hoff => hoff.aside hord ha) fun h => h.imp (fun ⟨loop, hon⟩ => ⟨loop, hon.aside hord ha⟩)
    fun ⟨loop, stop, hclosing⟩ => ⟨loop, stop, hclosing.aside hord ha⟩

/-- A move that is no start during a stop leads from phase to phase. -/
theorem Phase.step (h : Phase w) (hsane : Sane w) (hhonest : w.honest m = true) (hapart : w.apart m = true) :
    Phase (w.step m) := by
  rcases step_cases hsane m with ⟨now, rfl⟩ | ⟨now, rfl, hrunning⟩ | hm | ⟨w₁, ha, hsane', ha'⟩
  · rcases h with hoff | ⟨loop, hon⟩ | ⟨loop, stop, hclosing⟩
    · exact .inr (.inl ⟨_, hoff.start hsane.ordered now⟩)
    · refine .inr (.inl ⟨loop, ?_⟩)
      show On loop (w.batcher.start now).batcher
      rw [start_running hon.running]
      exact hon
    · rw [Overseen.apart, hclosing.stopping] at hapart
      cases hapart
  · rcases h with hoff | ⟨loop, hon⟩ | ⟨loop, stop, hclosing⟩
    · cases hoff.halted.symm.trans hrunning
    · exact .inr (.inr ⟨loop, _, hon.ask hsane now⟩)
    · cases hclosing.halted.symm.trans hrunning
  · rcases h with hoff | ⟨loop, hon⟩ | ⟨loop, stop, hclosing⟩
    · exact absurd hm (not_stopGoesOn hoff.stops)
    · exact absurd hm (not_stopGoesOn hon.stops)
    · rcases hclosing.goesOn hsane hhonest hm with hclosing' | hoff
      · exact .inr (.inr ⟨loop, stop, hclosing'⟩)
      · exact .inl hoff
  · exact (h.aside hsane.ordered ha).aside hsane'.ordered ha'

/-- A stop has been crossed, and may have returned since. -/
def Broken (w : Overseen ρ) : Prop := (∃ stop, Crossed stop w) ∨ Torn w.batcher

theorem Broken.aside {w' : Overseen ρ} (h : Broken w) (hord : w.batcher.tasks.Ordered) (ha : Aside w w') : Broken w' :=
  h.imp (fun ⟨stop, hcrossed⟩ => ⟨stop, hcrossed.aside hord ha⟩) fun htorn => htorn.aside hord ha

/-- Only another stop mends what a start has broken. -/
theorem Broken.step (h : Broken w) (hsane : Sane w) (hhonest : w.honest m = true) (hstop : m.isStop = false) :
    Broken (w.step m) := by
  rcases step_cases hsane m with ⟨now, rfl⟩ | ⟨now, rfl, -⟩ | hm | ⟨w₁, ha, hsane', ha'⟩
  · have hrunning : w.batcher.running = true := h.elim (fun ⟨_, hcrossed⟩ => hcrossed.running) Torn.running
    have hsame : w.step (.start now) = w := by
      show (⟨(w.batcher.start now).batcher, w.endings ++ (w.batcher.start now).endings⟩ : Overseen ρ) = w
      rw [start_endings, List.append_nil, start_running hrunning]
    rwa [hsame]
  · cases hstop
  · rcases h with ⟨stop, hcrossed⟩ | htorn
    · exact (hcrossed.goesOn hhonest hm).imp (fun hcrossed => ⟨stop, hcrossed⟩) id
    · exact absurd hm (not_stopGoesOn htorn.stops)
  · exact (h.aside hsane.ordered ha).aside hsane'.ordered ha'

/-- A start that comes apart from stops keeps the phases; the first one that does not breaks them. -/
theorem step_apart_cases (h : Phase w) (hsane : Sane w) (hhonest : w.honest m = true) :
    (w.apart m = true ∧ Phase (w.step m)) ∨ (w.apart m = false ∧ Broken (w.step m)) := by
  cases hapart : w.apart m with
  | true => exact .inl ⟨rfl, h.step hsane hhonest hapart⟩
  | false =>
    refine .inr ⟨rfl, ?_⟩
    simp only [Overseen.apart, Bool.not_eq_false', Bool.and_eq_true] at hapart
    obtain ⟨now, rfl⟩ := Move.exists_start hapart.1
    obtain ⟨t, ht, hs⟩ := List.any_eq_true.1 hapart.2
    have hfind := Tasks.find?_of_mem hsane.ordered ht
    rcases h with hoff | ⟨loop, hon⟩ | ⟨loop, stop, hclosing⟩
    · cases hoff.stops _ t hfind hs
    · cases hon.stops _ t hfind hs
    · exact .inl ⟨stop, hclosing.start hsane now⟩

/-! ## Runs -/

theorem sane_after (hsane : Sane w) (moves : List (Move ρ)) : Sane (w.after moves) := by
  induction moves generalizing w with
  | nil => exact hsane
  | cons m moves ih => exact ih (hsane.step m)

theorem phase_after {moves : List (Move ρ)} (h : Phase w) (hsane : Sane w)
    (hmoves : Overseen.each (fun w m => w.honest m && w.apart m) w moves = true) : Phase (w.after moves) := by
  induction moves generalizing w with
  | nil => exact h
  | cons m moves ih =>
    rw [Overseen.each, Bool.and_eq_true, Bool.and_eq_true] at hmoves
    exact ih (h.step hsane hmoves.1.1 hmoves.1.2) (hsane.step m) hmoves.2

theorem broken_after {moves : List (Move ρ)} (h : Broken w) (hsane : Sane w)
    (hmoves : Overseen.each Overseen.honest w moves = true) (hstops : ∀ m ∈ moves, m.isStop = false) :
    Broken (w.after moves) := by
  induction moves generalizing w with
  | nil => exact h
  | cons m moves ih =>
    rw [Overseen.each, Bool.and_eq_true] at hmoves
    rw [List.forall_mem_cons] at hstops
    exact ih (h.step hsane hmoves.1 hstops.1) (hsane.step m) hmoves.2 hstops.2

/-- Along moves that are no stops the phases are kept as long as no start comes during a stop. -/
theorem after_cases {moves : List (Move ρ)} (h : Phase w) (hsane : Sane w)
    (hmoves : Overseen.each Overseen.honest w moves = true) (hstops : ∀ m ∈ moves, m.isStop = false) :
    (Overseen.each Overseen.apart w moves = true ∧ Phase (w.after moves)) ∨
      (Overseen.each Overseen.apart w moves = false ∧ Broken (w.after moves)) := by
  induction moves generalizing w with
  | nil => exact .inl ⟨rfl, h⟩
  | cons m moves ih =>
    rw [Overseen.each, Bool.and_eq_true] at hmoves
    rw [List.forall_mem_cons] at hstops
    simp only [Overseen.each]
    rcases step_apart_cases h hsane hmoves.1 with ⟨hapart, hphase⟩ | ⟨hapart, hbroken⟩
    · rw [hapart, Bool.true_and]
      exact ih hphase (hsane.step m) hmoves.2 hstops.2
    · rw [hapart, Bool.false_and]
      have hafter : Broken ((w.step m).after moves) := broken_after hbroken (hsane.step m) hmoves.2 hstops.2
      exact .inr ⟨rfl, hafter⟩

theorem On.count (h : On loop b) (hord : b.tasks.Ordered) : b.tasks.countAt Stage.isLoop = 1 := by
  obtain ⟨s, hs, hloop⟩ := h.stands
  exact h.loops.countAt_eq_one hord hs hloop

theorem Off.coherent (h : Off b) (hord : b.tasks.Ordered) : Coherent b := by
  have hcount : b.tasks.countAt Stage.isLoop = 0 := h.loops.countAt_eq_zero hord
  refine ⟨h.halted.trans h.started.symm, ?_, by omega, fun now _ => ?_⟩
  · rw [h.halted, hcount]
    exact iff_of_false Bool.false_ne_true Nat.zero_ne_one
  · refine (h.start hord now).count ?_
    rw [start_halted h.halted]
    exact hord.spawn .begun

theorem On.coherent (h : On loop b) (hord : b.tasks.Ordered) : Coherent b := by
  have hcount := h.count hord
  refine ⟨h.running.trans h.started.symm, iff_of_true h.running hcount, by omega, fun now hhalted => ?_⟩
  cases h.running.symm.trans hhalted

theorem Torn.not_coherent (h : Torn b) : ¬Coherent b := fun hcoherent => by
  have hstarted := hcoherent.started
  rw [h.running, h.started] at hstarted
  cases hstarted

/-- A new batcher under oversight. -/
def overseen (interval : Nat) (limit : Option Int) : Overseen ρ :=
  ⟨{ interval := interval, batches := { limit := limit } }, []⟩

theorem overseen_sane (interval : Nat) (limit : Option Int) : Sane (overseen interval limit : Overseen ρ) :=
  ⟨Tasks.ordered_empty, nofun⟩

theorem overseen_off (interval : Nat) (limit : Option Int) : Off (overseen interval limit : Overseen ρ).batcher :=
  ⟨rfl, rfl, nofun, nofun⟩

/-- **When starts and stops are coherent.** Take a run in which no start comes during a stop, with any number of starts,
stops and flushes and whatever the emissions and loops do, and let it go on without another stop until no stop is under
way. Then the batcher is coherent if no start has come during a stop, and only then. -/
theorem coherent_iff (interval : Nat) (limit : Option Int) (before more : List (Move ρ))
    (hbefore : Overseen.each (fun w m => w.honest m && w.apart m) (overseen interval limit) before = true)
    (hmore : Overseen.each Overseen.honest ((overseen interval limit).after before) more = true)
    (hstops : ∀ m ∈ more, m.isStop = false)
    (hquiet : (((overseen interval limit).after before).after more).stopping = false) :
    Coherent (((overseen interval limit).after before).after more).batcher ↔
      Overseen.each Overseen.apart ((overseen interval limit).after before) more = true := by
  have hsane := sane_after (overseen_sane interval limit) before
  have hphase := phase_after (.inl (overseen_off interval limit)) (overseen_sane interval limit) hbefore
  have hord := (sane_after hsane more).ordered
  rcases after_cases hphase hsane hmore hstops with ⟨hapart, hphase⟩ | ⟨hapart, hbroken⟩
  · refine iff_of_true ?_ hapart
    rcases hphase with hoff | ⟨loop, hon⟩ | ⟨loop, stop, hclosing⟩
    · exact hoff.coherent hord
    · exact hon.coherent hord
    · cases hclosing.stopping.symm.trans hquiet
  · refine iff_of_false ?_ (Bool.eq_false_iff.1 hapart)
    rcases hbroken with ⟨stop, hcrossed⟩ | htorn
    · cases hcrossed.stopping.symm.trans hquiet
    · exact htorn.not_coherent

/-- A batcher is asked to stop, twice, while its loop emits, and the stop returns when the emission is over. -/
def stopsAt250 : List (Move Nat) := [.start 0, .resume 0 0 0 .done, .enqueue "P" 1, .resume 0 1 200 .done, .ask .stop 210,
  .ask .stop 215, .resume 0 2 250 .done, .resume 1 1 250 (.exited .finished)]

/-- A start when the stop has returned gives the batcher a loop, and another one changes nothing. -/
theorem coherent_restarted :
    Overseen.each (fun w m => w.honest m && w.apart m) (overseen 200 none) stopsAt250 = true ∧
    Overseen.each Overseen.honest ((overseen 200 none).after stopsAt250) [.start 260, .start 270] = true ∧
    (∀ m ∈ ([.start 260, .start 270] : List (Move Nat)), m.isStop = false) ∧
    (((overseen 200 none).after stopsAt250).after [.start 260, .start 270]).stopping = false ∧
    Coherent (((overseen 200 none).after stopsAt250).after [.start 260, .start 270]).batcher := by
  have hbefore : Overseen.each (fun w m => w.honest m && w.apart m) (overseen 200 none) stopsAt250 = true := by
    decide +kernel
  have hmore : Overseen.each Overseen.honest ((overseen 200 none).after stopsAt250) [.start 260, .start 270] = true := by
    decide +kernel
  have hstops : ∀ m ∈ ([.start 260, .start 270] : List (Move Nat)), m.isStop = false := by decide +kernel
  have hquiet : (((overseen 200 none).after stopsAt250).after [.start 260, .start 270]).stopping = false := by
    decide +kernel
  exact ⟨hbefore, hmore, hstops, hquiet, (coherent_iff 200 none _ _ hbefore hmore hstops hquiet).2 (by decide +kernel)⟩

/-- A batcher is asked to stop while its loop rests. -/
def stoppingAt100 : List (Move Nat) := [.start 0, .resume 0 0 0 .done, .enqueue "P" 1, .ask .stop 100]

/-- A start comes before the loop has woken, which then goes on beside the new one; the emissions of both take long. -/
def startedAt150 : List (Move Nat) := [.start 150, .resume 2 0 150 .done, .resume 0 1 200 .done, .enqueue "Q" 2,
  .resume 2 1 350 .done]

/-- After a second the stop tells its loop to give up, and then the loop that it finds, the new one. -/
def returnsAt1100 : List (Move Nat) := [.resume 1 1 1100 .expired, .resume 0 2 1100 .done,
  .resume 1 2 1100 (.exited .cancelled), .resume 2 2 1100 .done, .resume 1 3 1100 (.exited .cancelled)]

/-- Here two loops live beside each other, and in the end the batcher runs, does not count as started and has no loop. -/
theorem running_without_loop :
    Overseen.each Overseen.honest (overseen 200 none) (stoppingAt100 ++ startedAt150 ++ returnsAt1100) = true ∧
    ((overseen 200 none).after (stoppingAt100 ++ startedAt150)).batcher.tasks.countAt Stage.isLoop = 2 ∧
    ((overseen 200 none).after (stoppingAt100 ++ startedAt150 ++ returnsAt1100)).stopping = false ∧
    ((overseen 200 none).after (stoppingAt100 ++ startedAt150 ++ returnsAt1100)).batcher.running = true ∧
    ((overseen 200 none).after (stoppingAt100 ++ startedAt150 ++ returnsAt1100)).batcher.component.isStarted = false ∧
    ((overseen 200 none).after (stoppingAt100 ++ startedAt150 ++ returnsAt1100)).batcher.tasks.countAt Stage.isLoop = 0 := by
  decide +kernel

end Phases

end PoolFeed.Batcher
