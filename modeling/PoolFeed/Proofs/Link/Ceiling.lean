import PoolFeed.Proofs.Link.Carries

/-!
# Giving up

| here | there |
| --- | --- |
| `GivesUp` | the branch of `reconnect` at `max_reconnect_attempts`, after which the manager is to stay disconnected until `connect` is called |
| `Stage.revives` | a task in `_delayed_connect`, or in a `connect` under way |

After so many retries in a row the link gives up: it is down, and should connect no more until somebody asks it to.
Giving up leaves the other tasks alone, though, and those that stand where the link can come up from may still bring it
up: a retry that waits already, or a handshake that another connection has begun. `gaveUp_final_iff` says that the link
stays down exactly if there is no such task. There can be one: connecting while a retry waits does not take the retry
back, which outlives the link's giving up (`not_final_giveUpWhileRetrying`).
-/

namespace PoolFeed.Link

variable {ρ : Type} {l : Link ρ} {me : Nat}

/-! ## Connecting and giving up -/

/-- The link gives up in a turn. -/
def Turn.GivesUp (t : Turn ρ) : Prop := ∃ a ∈ t.actions, a.givesUp

/-- The link does not connect in a turn: it asks for no client, and enters another state than that. -/
def Turn.Calm (t : Turn ρ) : Prop := ∀ a ∈ t.actions, a.connects = false

/-- In none of some moves a start or a connection begins that was asked for. -/
def Unasked : Link ρ → List (Move ρ) → Prop
  | _, [] => True
  | l, m :: ms => m.begins? l ≠ some .start ∧ m.begins? l ≠ some .connect ∧ Unasked (m.turn l).link ms

/-- The link connects in none of some moves. -/
def Rests : Link ρ → List (Move ρ) → Prop
  | _, [] => True
  | l, m :: ms => (m.turn l).Calm ∧ Rests (m.turn l).link ms

instance (t : Turn ρ) : Decidable t.GivesUp := inferInstanceAs (Decidable (∃ a ∈ t.actions, a.givesUp))

instance (t : Turn ρ) : Decidable t.Calm := inferInstanceAs (Decidable (∀ a ∈ t.actions, a.connects = false))

instance decidableUnasked : ∀ (l : Link ρ) (ms : List (Move ρ)), Decidable (Unasked l ms)
  | _, [] => isTrue trivial
  | l, m :: ms =>
    have := decidableUnasked (m.turn l).link ms
    inferInstanceAs (Decidable (_ ∧ _ ∧ _))

instance decidableRests : ∀ (l : Link ρ) (ms : List (Move ρ)), Decidable (Rests l ms)
  | _, [] => isTrue trivial
  | l, m :: ms =>
    have := decidableRests (m.turn l).link ms
    inferInstanceAs (Decidable (_ ∧ _))

/-- Whether a task can bring the link up again from a stage. A handshake can if it may be followed by a retry. -/
def Stage.revives (maxRetries : Nat) (s : Stage ρ) : Bool :=
  match s.part with
  | .retry => true
  | .handshake => 0 < maxRetries
  | _ => false

/-! ## What a link is like that has given up -/

/-- The link has come to the ceiling. -/
structure AtCeiling (l : Link ρ) : Prop where
  ceiling : l.options.maxRetries ≤ l.retries
  down : l.state = .disconnected
  going : l.stopping = false

namespace Turn

variable {t : Turn ρ} {luck : Luck}

/-- If the link gives up in a turn, it has come to the ceiling. -/
def Truthful (t : Turn ρ) : Prop := t.GivesUp → AtCeiling t.link

/-- A turn in which the link does not give up. -/
theorem truthful_of_lacks (h : t.Lacks Action.givesUp) : t.Truthful := by
  rintro ⟨a, ha, hgives⟩
  rw [(lacks_iff fun _ => Action.not_givesUp_of_isPlain).1 h a ha] at hgives
  cases hgives

theorem truthful_finish (h : t.Lacks Action.givesUp) (e : Ending) : (t.finish me e).Truthful :=
  truthful_of_lacks (h.of_deeds (finish_deeds me e))

theorem truthful_park (h : t.Lacks Action.givesUp) (s : Stage ρ) (r : Request ρ) : (t.park me s r).Truthful :=
  truthful_of_lacks (h.append_one (park_deeds me s r) rfl)

/-- The link gives up where it would otherwise arrange a retry, and nowhere else. -/
theorem carries_truthful (me : Nat) : Carries (ρ := ρ) me (Lacks Action.givesUp) Truthful where
  alike h halike := h.of_deeds halike.deeds
  letGo h luck := h.append_cancels (letGo_deeds me luck) fun _ => rfl
  stopRetry h := h.of_deeds stopRetry_deeds
  finish h e := truthful_finish h e
  close h n next := truthful_park h _ _
  reconnect {t} h hgoing := by
    obtain ⟨hceiling, hlink, -⟩ | ⟨-, -, hdeeds⟩ := t.reconnect_cases (some me)
    · refine fun _ => ?_
      rw [finish_link, hlink]
      exact ⟨hceiling, rfl, hgoing⟩
    · exact truthful_finish (h.of_deeds hdeeds) _
  dial {t} h := by
    obtain ⟨hs, hdeeds, hall⟩ := t.dial_deeds
    refine h.append (hdeeds.trans (List.append_assoc ..)) (List.forall_mem_append.2 ⟨fun a ha => ?_, fun a ha => ?_⟩)
    · have hherald := hall a ha
      cases a with
      | log e => simpa [Action.heralds, Action.givesUp] using hherald
      | _ => rfl
    · rw [List.mem_singleton.1 ha]
      rfl
  opening h n := truthful_park h _ _
  onward h _ := truthful_park h _ _
  spawn h r := h.of_deeds (spawn_deeds _)
  cancel h sub := h.append_one (act_deeds rfl) rfl
  keep {t} h hgoing luck sub := by
    obtain ⟨-, hdeeds⟩ | ⟨hstop, -⟩ := t.subscribed_cases me luck sub
    · exact truthful_of_lacks (h.of_deeds hdeeds)
    · cases hgoing.symm.trans hstop

end Turn

theorem Move.truthful (m : Move ρ) (l : Link ρ) : (m.turn l).Truthful := by
  have hstart : ∀ l : Link ρ, (⟨l, []⟩ : Turn ρ).Lacks Action.givesUp := Turn.lacks_start _
  refine m.carried Turn.carries_truthful (hstart l) (Turn.truthful_of_lacks (hstart l)) (fun _ => hstart _) fun c => ?_
  exact Turn.truthful_of_lacks ((hstart l).of_deeds (Turn.spawn_deeds _))

/-! ## Staying down -/

/-- Nobody but perhaps one task can bring the link up, and no retry is left. -/
structure Dormant (me : Option Nat) (l : Link ρ) : Prop where
  ordered : l.tasks.Ordered
  ceiling : l.options.maxRetries ≤ l.retries
  vacant : l.tasks.Vacant (Stage.revives l.options.maxRetries) me

namespace Turn

variable {t : Turn ρ} {me : Option Nat} {id : Nat} {luck : Luck}

/-- A turn leaves the link dormant and has not connected so far. -/
structure Sleeps (me : Option Nat) (t : Turn ρ) : Prop where
  dormant : Dormant me t.link
  calm : t.Lacks Action.connects

theorem Sleeps.finish (h : t.Sleeps (some id)) (e : Ending) : (t.finish id e).Sleeps none where
  dormant := ⟨h.dormant.ordered.erase id, h.dormant.ceiling, h.dormant.vacant.erase⟩
  calm := h.calm.of_deeds (finish_deeds id e)

theorem Sleeps.park (h : t.Sleeps (some id)) {s : Stage ρ} (hs : s.revives t.link.options.maxRetries = false)
    (r : Request ρ) : (t.park id s r).Sleeps none where
  dormant := ⟨h.dormant.ordered.advance id s, h.dormant.ceiling, h.dormant.vacant.advance hs⟩
  calm := h.calm.append_one (park_deeds id s r) rfl

theorem Sleeps.spawn (h : t.Sleeps me) {s : Stage ρ} (hs : s.revives t.link.options.maxRetries = false) :
    (t.spawn s).Sleeps me where
  dormant := ⟨h.dormant.ordered.spawn s, h.dormant.ceiling, h.dormant.vacant.spawn h.dormant.ordered hs⟩
  calm := h.calm.of_deeds (spawn_deeds s)

/-- Closing brings nothing up: where a retry might be arranged, the link gives up again. -/
theorem closes_sleeps (id : Nat) : Closes (ρ := ρ) id (Sleeps (some id)) (Sleeps none) where
  alike h halike := by
    refine ⟨⟨?_, ?_, ?_⟩, h.calm.of_deeds halike.deeds⟩
    · rw [halike.tasks]
      exact h.dormant.ordered
    · rw [halike.options, halike.retries]
      exact h.dormant.ceiling
    · rw [halike.tasks, halike.options]
      exact h.dormant.vacant
  letGo h luck := by
    refine ⟨?_, h.calm.append_cancels (letGo_deeds id luck) fun _ => rfl⟩
    rw [letGo_link]
    exact ⟨(h.dormant.ordered.cancel? _).cancel? _, h.dormant.ceiling, (h.dormant.vacant.cancel? _).cancel? _⟩
  stopRetry h := by
    refine ⟨?_, h.calm.of_deeds stopRetry_deeds⟩
    rw [stopRetry_link]
    exact ⟨h.dormant.ordered.cancel? _, h.dormant.ceiling, h.dormant.vacant.cancel? _⟩
  finish h e := h.finish e
  close h n next := h.park rfl _
  reconnect {t} h _ := by
    obtain ⟨-, hlink, hdeeds⟩ | ⟨hlt, -⟩ := t.reconnect_cases (some id)
    · refine Sleeps.finish ⟨?_, h.calm.append_one hdeeds rfl⟩ _
      rw [hlink]
      exact { h.dormant with }
    · exact absurd h.dormant.ceiling (Nat.not_le_of_lt hlt)

/-- A handshake that comes to its end cannot be followed by a retry, or else the link would not sleep. -/
theorem Sleeps.subscribed (h : t.Sleeps (some id)) {sub : Nat} (hnone : t.link.options.maxRetries = 0) :
    (t.subscribed id luck sub).Sleeps none := by
  have hcancel : (t.act (.cancel sub)).Sleeps (some id) :=
    ⟨h.dormant, h.calm.append_one (act_deeds rfl) rfl⟩
  obtain ⟨hgoing, hdeeds⟩ | ⟨-, ⟨e, hturn⟩ | hturn⟩ := t.subscribed_cases id luck sub
  · refine ⟨?_, h.calm.of_deeds hdeeds⟩
    rw [(subscribed_link id sub hgoing luck).2]
    have hord := h.dormant.ordered.spawn (.toKeep sub)
    exact ⟨(hord.spawn _).erase id, Nat.le_of_eq hnone,
      ((h.dormant.vacant.spawn h.dormant.ordered rfl).spawn hord rfl).erase⟩
  · rw [hturn]
    exact hcancel.finish e
  · rw [hturn]
    exact (closes_sleeps id).closeClient hcancel .abandoned

end Turn

theorem Stage.revives_congr {s s' : Stage ρ} (h : s'.part = s.part) (maxRetries : Nat) :
    s'.revives maxRetries = s.revives maxRetries := by
  rw [revives, revives, h]

/-- A task that cannot bring the link up does not, whatever it comes to. -/
theorem Course.sleeps {s : Stage ρ} {o : Outcome ρ} {t : Turn ρ} (h : Course l me s o t) (hl : Dormant none l)
    (hs : l.tasks.stage? me = some s) (hstart : s.call? ≠ some .start) (hconnect : s.call? ≠ some .connect) :
    t.Sleeps none := by
  have hrev : s.revives l.options.maxRetries = false := hl.vacant me s nofun hs
  have hnoted : ∀ {u : Turn ρ}, u.Noted l → u.Sleeps (some me) := by
    intro u hu
    obtain ⟨-, v, p, e, f, hlink⟩ := id hu
    refine ⟨?_, (Turn.lacks_start _ l).of_deeds hu.1.deeds⟩
    rw [hlink]
    exact { hl with vacant := hl.vacant.except _ }
  have hbegin := hnoted (Turn.noted_start l)
  cases h with
  | stay => exact ⟨hl, Turn.lacks_start _ l⟩
  | onward hu ho =>
    refine (hnoted hu).park ?_ _
    obtain ⟨-, v, p, e, f, hlink⟩ := hu
    rw [hlink, Stage.revives_congr ho.part]
    exact hrev
  | finish hu _ => exact (hnoted hu).finish _
  | record sub r =>
    have hcount : (Turn.change ⟨l, []⟩ fun l => { l with received := l.received + 1 }).Sleeps (some me) :=
      ⟨{ hl with vacant := hl.vacant.except _ }, Turn.lacks_start _ _⟩
    exact (hcount.spawn (s := .toProcess r) rfl).park rfl _
  | lose luck hu _ => exact (Turn.closes_sleeps me).tearDown (hnoted hu) luck
  | handedOver n luck =>
    refine hbegin.subscribed (Nat.eq_zero_of_not_pos fun hpos => ?_)
    rw [Stage.revives, Stage.part, decide_eq_true hpos] at hrev
    cases hrev
  | closed hu => exact (Turn.closes_sleeps me).afterClose (hnoted hu) _
  | retry => cases hrev
  | call c o now luck =>
    cases c with
    | start => exact absurd rfl hstart
    | connect => exact absurd rfl hconnect
    | stop => exact (Turn.closes_sleeps me).stop hbegin luck
    | handleDisconnect => exact (Turn.closes_sleeps me).tearDown hbegin luck

theorem Move.sleeps {m : Move ρ} (hl : Dormant none l) (hstart : m.begins? l ≠ some .start)
    (hconnect : m.begins? l ≠ some .connect) : (m.turn l).Sleeps none := by
  have hbegin : ∀ me, (⟨l, []⟩ : Turn ρ).Sleeps me := fun me =>
    ⟨{ hl with vacant := hl.vacant.except me }, Turn.lacks_start _ l⟩
  obtain ⟨c, hturn, -⟩ | ⟨c, now, luck, hturn, -, hc⟩ | ⟨hturn, -⟩ | ⟨id, -, hturn, -⟩ |
    ⟨id, s, o, hs, hcourse, -, hc⟩ := m.turn_cases l
  · rw [hturn]
    exact (hbegin none).spawn rfl
  · rw [hturn]
    rw [hc] at hstart hconnect
    have hme : (⟨{ l with tasks := l.tasks.spawn (.called c) }, []⟩ : Turn ρ).Sleeps (some l.tasks.next) :=
      ⟨⟨hl.ordered.spawn _, hl.ceiling, (hl.vacant.except _).spawn hl.ordered rfl⟩, Turn.lacks_start _ _⟩
    cases c with
    | start => exact absurd rfl hstart
    | connect => exact absurd rfl hconnect
    | stop => exact (Turn.closes_sleeps _).stop hme luck
    | handleDisconnect => exact (Turn.closes_sleeps _).tearDown hme luck
  · rw [hturn]
    exact hbegin none
  · rw [hturn]
    exact (hbegin _).finish _
  · rw [hc] at hstart hconnect
    exact hcourse.sleeps hl hs hstart hconnect

theorem Dormant.rests (ms : List (Move ρ)) : ∀ {l : Link ρ}, Dormant none l → Unasked l ms → Rests l ms := by
  induction ms with
  | nil => exact fun _ _ => trivial
  | cons m ms ih =>
    rintro l hl ⟨hstart, hconnect, hms⟩
    have hturn := Move.sleeps hl hstart hconnect
    exact ⟨(Turn.lacks_iff fun _ => Action.not_connects_of_isPlain).1 hturn.calm, ih hturn.dormant hms⟩

/-! ## Coming up again -/

/-- The link may connect although nobody asks. -/
def Wakes (l : Link ρ) : Prop := ∃ ms, Unasked l ms ∧ ¬Rests l ms

theorem Wakes.of_turn {m : Move ρ} (h : Wakes (m.turn l).link) (hm : m.begins? l = none) : Wakes l := by
  obtain ⟨ms, hasked, hrests⟩ := h
  refine ⟨m :: ms, ⟨?_, ?_, hasked⟩, fun hr => hrests hr.2⟩
  · rw [hm]
    nofun
  · rw [hm]
    nofun

/-- A task that nobody has told to give up can go on with any outcome. -/
theorem resume_stage? {id : Nat} {s : Stage ρ} (hs : l.tasks.stage? id = some s) (luck : Luck) (o : Outcome ρ) :
    ∃ m : Move ρ, m.turn l = Turn.goOn ⟨l, []⟩ id 0 luck s o ∧ m.begins? l = s.call? := by
  rw [Tasks.stage?] at hs
  obtain ⟨task, htask, hc⟩ := Option.bind_eq_some_iff.1 hs
  split at hc
  · cases hc
  · rename_i hn
    cases hc
    refine ⟨.resume id task.turn 0 luck o, ?_, ?_⟩
    · simp [Move.turn, resume, htask, hn]
    · simp [Move.begins?, Move.goesOn?, Tasks.waitsAt, Tasks.stage?, htask, hn]

section
variable {id n : Nat}

/-- What a task comes to that goes on. -/
theorem Wakes.of_goOn {s : Stage ρ} (o : Outcome ρ) (hs : l.tasks.stage? id = some s) (hcall : s.call? = none)
    (h : Wakes (Turn.goOn ⟨l, []⟩ id 0 {} s o).link) : Wakes l := by
  obtain ⟨m, hturn, hbegins⟩ := resume_stage? hs {} o
  refine Wakes.of_turn (m := m) ?_ (hbegins.trans hcall)
  rwa [hturn]

theorem wakes_pausing (hs : l.tasks.stage? id = some .pausing) : Wakes l := by
  obtain ⟨m, hturn, hbegins⟩ := resume_stage? hs {} .done
  refine ⟨[m], ⟨by rw [hbegins]; nofun, by rw [hbegins]; nofun, trivial⟩, fun hr => ?_⟩
  have hcalm := (Turn.lacks_iff fun _ => Action.not_connects_of_isPlain).2 hr.1
  rw [hturn, Turn.goOn] at hcalm
  obtain ⟨hstate, -⟩ | ⟨reason, hreason, -⟩ | ⟨-, hconnect⟩ :=
    (Turn.enter ⟨l, []⟩ .disconnected).connect_cases id {}
  · rw [Turn.enter_link] at hstate
    rcases hstate with hstate | hstate <;> cases hstate
  · cases hreason
  · obtain ⟨heralds, hdeeds, -⟩ := (Turn.enter ⟨l, []⟩ .disconnected).dial_deeds
    rw [hconnect, Turn.Lacks, Turn.park_deeds, Turn.change_deeds, hdeeds] at hcalm
    have hcreates := hcalm (.create _) (List.mem_append_left _ (List.mem_append_right _ (List.mem_singleton_self _)))
    cases hcreates

theorem wakes_toRetry (hs : l.tasks.stage? id = some .toRetry) : Wakes l :=
  Wakes.of_goOn .done hs rfl (wakes_pausing (Tasks.stage?_advance_self hs _))

/-- A retry that is arranged will come. -/
theorem wakes_reconnect {t : Turn ρ} (hord : t.link.tasks.Ordered) (hid : id < t.link.tasks.next)
    (hretries : t.link.retries < t.link.options.maxRetries) : Wakes ((t.reconnect (some id)).finish id).link := by
  obtain ⟨hceiling, -⟩ | ⟨-, hlink, -⟩ := t.reconnect_cases (some id)
  · exact absurd hceiling (Nat.not_le_of_lt hretries)
  · have harmed : (Turn.armed t.link (some id)).tasks.stage? t.link.tasks.next = some .toRetry := by
      simp only [Turn.armed]
      split
      · rw [Tasks.stage?_spawn hord, if_pos rfl]
      · rw [Tasks.stage?_spawn (hord.cancel? _), Tasks.next_cancel?, if_pos rfl]
    have hstands : ((t.reconnect (some id)).finish id).link.tasks.stage? t.link.tasks.next = some .toRetry := by
      rw [Turn.finish_link, Tasks.stage?_erase, if_neg (Nat.ne_of_gt hid), hlink]
      exact harmed
    exact wakes_toRetry hstands

/-- The link is up, or a teardown is under way, and retries are left: nothing keeps it from retrying. -/
structure Retries (id : Nat) (s : Stage ρ) (l : Link ρ) : Prop where
  ordered : l.tasks.Ordered
  stands : l.tasks.stage? id = some s
  going : l.stopping = false
  left : l.retries < l.options.maxRetries

theorem Retries.afterClose {s : Stage ρ} {t : Turn ρ} (h : Retries id s t.link) :
    Wakes (t.afterClose id .teardown).link := by
  rw [Turn.afterClose, h.going, if_neg Bool.false_ne_true]
  exact wakes_reconnect h.ordered (Tasks.lt_next_of_stage? h.ordered h.stands) h.left

theorem Retries.closing (h : Retries id (.closing n .teardown) l) : Wakes l :=
  Wakes.of_goOn .done h.stands rfl (Retries.afterClose (t := ⟨l, []⟩) h)

theorem Retries.tearDown {s : Stage ρ} {t : Turn ρ} (h : Retries id s t.link) (hstate : t.link.state = .connected)
    (hkeeper : t.link.keeper ≠ some id) (luck : Luck) : Wakes (t.tearDown id luck).link := by
  obtain ⟨hdown | hdown, -⟩ | hturn := t.tearDown_cases id luck
  · rw [hstate] at hdown
    cases hdown
  · rw [hstate] at hdown
    cases hdown
  -- neither the keeper nor another reader is the task whose turn it is
  have hstands : (t.fall id luck).link.tasks.stage? id = some s := by
    rw [Turn.fall_link, Tasks.stage?_cancel?, if_neg, Tasks.stage?_cancel?, if_neg hkeeper]
    · exact h.stands
    · split
      · nofun
      · assumption
  have hfall : Retries id s (t.fall id luck).link := by
    refine ⟨?_, hstands, ?_, ?_⟩
    · rw [Turn.fall_link]
      exact (h.ordered.cancel? _).cancel? _
    · rw [Turn.fall_link]
      exact h.going
    · rw [Turn.fall_link]
      exact h.left
  rw [hturn]
  obtain ⟨-, hclose⟩ | ⟨k, -, hclose⟩ := (t.fall id luck).closeClient_cases id .teardown
  · rw [hclose]
    exact hfall.afterClose
  · rw [hclose]
    exact Retries.closing
      ⟨hfall.ordered.advance id _, Tasks.stage?_advance_self hfall.stands _, hfall.going, hfall.left⟩

theorem Retries.reading (h : Retries id (.reading n) l) (hstate : l.state = .connected) (hkeeper : l.keeper ≠ some id) :
    Wakes l := by
  refine Wakes.of_goOn .ended h.stands rfl ?_
  have hgoing : (Turn.log ⟨l, []⟩ (Log.warning "Stream ended")).link.stopping = false := h.going
  rw [Turn.goOn, Turn.readingEnded, hgoing, if_neg Bool.false_ne_true]
  exact Retries.tearDown (t := Turn.log ⟨l, []⟩ (Log.warning "Stream ended")) h hstate hkeeper {}

theorem Retries.toRead (h : Retries id (.toRead n) l) (hstate : l.state = .connected) (hkeeper : l.keeper ≠ some id) :
    Wakes l :=
  Wakes.of_goOn .done h.stands rfl
    (Retries.reading ⟨h.ordered.advance id _, Tasks.stage?_advance_self h.stands _, h.going, h.left⟩ hstate hkeeper)

/-- A handshake that is completed brings the link up, which retries once its stream ends. -/
theorem wakes_subscribing (hord : l.tasks.Ordered) (hs : l.tasks.stage? id = some (.subscribing n))
    (hgoing : l.stopping = false) (hmax : 0 < l.options.maxRetries) : Wakes l := by
  have hid := Tasks.lt_next_of_stage? hord hs
  refine Wakes.of_goOn .done hs rfl ?_
  rw [Turn.goOn, (Turn.subscribed_link (t := ⟨l, []⟩) id n hgoing {}).2]
  -- the reader is the second of the two tasks that are begun
  have hstands : (((l.tasks.spawn (.toKeep n)).spawn (.toRead n)).erase id).stage? (l.tasks.next + 1) =
      some (.toRead n) := by
    rw [Tasks.stage?_erase, if_neg (by omega), Tasks.stage?_spawn (hord.spawn _)]
    exact if_pos rfl
  exact Retries.toRead ⟨((hord.spawn _).spawn _).erase id, hstands, hgoing, hmax⟩ rfl
    fun e => absurd (Option.some.inj e) (by simp)

theorem wakes_greeting (hord : l.tasks.Ordered) (hs : l.tasks.stage? id = some (.greeting n))
    (hgoing : l.stopping = false) (hmax : 0 < l.options.maxRetries) : Wakes l :=
  Wakes.of_goOn (.version "") hs rfl
    (wakes_subscribing (hord.advance id _) (Tasks.stage?_advance_self hs _) hgoing hmax)

theorem wakes_opening (hord : l.tasks.Ordered) (hs : l.tasks.stage? id = some (.opening n))
    (hgoing : l.stopping = false) (hmax : 0 < l.options.maxRetries) : Wakes l :=
  Wakes.of_goOn .done hs rfl (wakes_greeting (hord.advance id _) (Tasks.stage?_advance_self hs _) hgoing hmax)

/-- Every task that can bring the link up does so in some run. -/
theorem wakes_of_revives {s : Stage ρ} (hord : l.tasks.Ordered) (hgoing : l.stopping = false)
    (hs : l.tasks.stage? id = some s) (hrev : s.revives l.options.maxRetries) : Wakes l := by
  have hmax : s.part = .handshake → 0 < l.options.maxRetries := fun hp => by
    rw [Stage.revives, hp] at hrev
    exact of_decide_eq_true hrev
  cases s with
  | toRetry => exact wakes_toRetry hs
  | pausing => exact wakes_pausing hs
  | opening n => exact wakes_opening hord hs hgoing (hmax rfl)
  | greeting n => exact wakes_greeting hord hs hgoing (hmax rfl)
  | subscribing n => exact wakes_subscribing hord hs hgoing (hmax rfl)
  | called | closing | toRead | reading | toKeep | keeping | pinging | toProcess | processing => cases hrev

end

/-! ## Runs -/

/-- **A link that gives up has come to the ceiling and is down. It then connects no more until somebody asks it to,
whatever else happens, exactly if no task stands where it can bring the link up: none that retries and, where
retries are allowed at all, none that has begun a handshake.** -/
theorem gaveUp_final_iff (o : Options) (ls : List Listener) (moves : List (Move ρ)) (m : Move ρ)
    (hgives : (m.turn (run o ls moves).link).GivesUp) :
    AtCeiling (run o ls (moves ++ [m])).link ∧
    ((∀ more, Unasked (run o ls (moves ++ [m])).link more → Rests (run o ls (moves ++ [m])).link more) ↔
      ∀ id s, (run o ls (moves ++ [m])).link.tasks.stage? id = some s →
        s.revives (run o ls (moves ++ [m])).link.options.maxRetries = false) := by
  have hceiling : AtCeiling (run o ls (moves ++ [m])).link := by
    rw [run_concat]
    exact m.truthful _ hgives
  have hord := run_ordered o ls (moves ++ [m])
  refine ⟨hceiling, fun hfinal id s hs => ?_, fun hvacant more hasked => ?_⟩
  · refine Bool.eq_false_iff.2 fun hrev => ?_
    obtain ⟨more, hasked, hrests⟩ := wakes_of_revives hord hceiling.going hs hrev
    exact hrests (hfinal more hasked)
  · exact Dormant.rests more ⟨hord, hceiling.ceiling, fun id s _ => hvacant id s⟩ hasked

/-- A connection fails and its retry begins to wait. -/
def unreachable : List (Move Unit) :=
  [.askAtOnce .connect 0 {}, .resume 0 1 0 {} (.failed "unreachable"), .resume 0 2 0 {} .done, .resume 1 0 0 {} .done]

/-- The retry fails as well: at its ceiling of one retry the link gives up, once the client is closed. -/
def unreachableTwice : List (Move Unit) :=
  unreachable ++ [.resume 1 1 0 {} .done, .resume 1 2 0 {} (.failed "unreachable")]

/-- The link that gives up after its retry stays down. -/
theorem final_unreachableTwice :
    (Move.turn (run { programs := [], maxRetries := 1 } [] unreachableTwice).link (.resume 1 3 0 {} .done)).GivesUp ∧
    ∀ more,
      Unasked (run { programs := [], maxRetries := 1 } [] (unreachableTwice ++ [.resume 1 3 0 {} .done])).link more →
      Rests (run { programs := [], maxRetries := 1 } [] (unreachableTwice ++ [.resume 1 3 0 {} .done])).link more := by
  have hgives : (Move.turn (run { programs := [], maxRetries := 1 } [] unreachableTwice).link
      (.resume 1 3 0 {} .done)).GivesUp := by decide +kernel
  obtain ⟨-, hfinal⟩ :=
    gaveUp_final_iff { programs := [], maxRetries := 1 } [] unreachableTwice (.resume 1 3 0 {} .done) hgives
  have hlive : (run { programs := [], maxRetries := 1 } []
      (unreachableTwice ++ [.resume 1 3 0 {} .done])).link.tasks.live = [] := by decide +kernel
  refine ⟨hgives, hfinal.2 fun id s hs => ?_⟩
  rw [Tasks.stage?, Tasks.find?, hlive] at hs
  cases hs

/-- While the retry waits a caller connects, which fails as well: at its ceiling the link gives up. -/
def giveUpWhileRetrying : List (Move Unit) :=
  unreachable ++ [.askAtOnce .connect 0 {}, .resume 2 1 0 {} (.failed "unreachable")]

/-- The retry waits on and connects, although nobody has asked. -/
theorem not_final_giveUpWhileRetrying :
    (Move.turn (run { programs := [], maxRetries := 1 } [] giveUpWhileRetrying).link (.resume 2 2 0 {} .done)).GivesUp ∧
    Unasked (run { programs := [], maxRetries := 1 } [] (giveUpWhileRetrying ++ [.resume 2 2 0 {} .done])).link
      [.resume 1 1 0 {} .done] ∧
    ¬Rests (run { programs := [], maxRetries := 1 } [] (giveUpWhileRetrying ++ [.resume 2 2 0 {} .done])).link
      [.resume 1 1 0 {} .done] := by
  refine ⟨by decide +kernel, by decide +kernel, by decide +kernel⟩

end PoolFeed.Link
