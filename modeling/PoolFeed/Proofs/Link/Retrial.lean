import PoolFeed.Proofs.Link.Carries

/-!
# Who waits to retry

Whoever calls, and in whatever order tasks are resumed, the link knows the one task that waits to retry (`Lone`): a
retry that is arranged takes the place of the one before it, unless that one has stopped waiting. `Move.retrial` lists
what a move can do to the retries: it keeps those there are, lets one begin to wait, or arranges a new one.
-/

namespace PoolFeed.Link

variable {ρ : Type} {l : Link ρ} {me : Nat}

/-! ## Waiting -/

/-- A task waits to retry. -/
def Waits (l : Link ρ) (id : Nat) (s : Stage ρ) : Prop := l.tasks.stage? id = some s ∧ s.part = .retry

/-- The link knows whoever waits to retry. -/
def Lone (l : Link ρ) : Prop := ∀ id s, l.Waits id s → l.retry = some id

theorem Lone.unique (h : Lone l) {i j : Nat} {s u : Stage ρ} (hi : l.Waits i s) (hj : l.Waits j u) : i = j ∧ s = u := by
  obtain rfl := Option.some.inj ((h i s hi).symm.trans (h j u hj))
  exact ⟨rfl, Option.some.inj (hi.1.symm.trans hj.1)⟩

/-! ## Sleeping -/

/-- How long a task asks to sleep. -/
def Action.sleep? (id : Nat) : Action ρ → Option Nat
  | .await i _ (.slept ms) => if i = id then some ms else none
  | _ => none

/-- How long a task asks to sleep in a turn. -/
def Turn.sleep? (t : Turn ρ) (id : Nat) : Option Nat := t.actions.findSome? (Action.sleep? id)

theorem Action.sleep?_of_ne {i k : Nat} (h : me ≠ i) (r : Request ρ) : (Action.await me k r).sleep? i = none := by
  cases r with
  | slept ms => exact if_neg h
  | _ => rfl

namespace Turn

variable {t : Turn ρ} {i : Nat}

/-- Nobody asks to sleep in the turn of another task. -/
theorem carries_sleepless (hi : me ≠ i) : Carries (ρ := ρ) me (Lacks fun a => (a.sleep? i).isSome)
    (Lacks fun a => (a.sleep? i).isSome) := by
  have hpark : ∀ {t : Turn ρ} s r, t.Lacks (fun a => (a.sleep? i).isSome) →
      (t.park me s r).Lacks fun a => (a.sleep? i).isSome := by
    intro t s r h
    refine h.append_one (park_deeds me s r) ?_
    rw [Action.sleep?_of_ne hi]
    rfl
  constructor
  case toDials =>
    constructor
    case toCloses =>
      constructor
      case alike => exact fun h halike => h.of_deeds halike.deeds
      case letGo => exact fun h luck => h.append_cancels (letGo_deeds me luck) fun _ => rfl
      case stopRetry => exact fun h => h.of_deeds stopRetry_deeds
      case finish => exact fun h e => h.of_deeds (finish_deeds me e)
      case close => exact fun h _ _ => hpark _ _ h
      case reconnect =>
        intro t h _
        obtain ⟨-, -, hdeeds⟩ | ⟨-, -, hdeeds⟩ := t.reconnect_cases (some me)
        · exact (h.append_one hdeeds rfl).of_deeds (finish_deeds me _)
        · exact (h.of_deeds hdeeds).of_deeds (finish_deeds me _)
    case dial =>
      intro t h
      obtain ⟨hs, hdeeds, hall⟩ := t.dial_deeds
      refine (h.append (hdeeds.trans (List.append_assoc ..)) (List.forall_mem_append.2 ⟨fun a ha => ?_, fun a ha => ?_⟩))
      · have hherald := hall a ha
        cases a with
        | log | tell => rfl
        | create | cancel | wake | await | ended => cases hherald
      · rw [List.mem_singleton.1 ha]
        rfl
    case opening => exact fun h _ => hpark _ _ h
  case onward => exact fun h _ => hpark _ _ h
  case spawn => exact fun h _ => h.of_deeds (spawn_deeds _)
  case cancel => exact fun h _ => h.append_one (act_deeds rfl) rfl
  case keep =>
    intro t h hgoing luck sub
    obtain ⟨-, hdeeds⟩ | ⟨hstop, -⟩ := t.subscribed_cases me luck sub
    · exact h.of_deeds hdeeds
    · cases hgoing.symm.trans hstop

theorem sleep?_eq_none (h : t.Lacks fun a => (a.sleep? i).isSome) : t.sleep? i = none := by
  have hplain : ∀ a : Action ρ, a.isPlain → (a.sleep? i).isSome = false := by
    intro a ha
    cases a with
    | log | tell | wake | ended => rfl
    | create | cancel | await => cases ha
  refine List.findSome?_eq_none_iff.2 fun a ha => ?_
  simpa using (lacks_iff hplain).1 h a ha

/-! ## Turns -/

/-- In the course of a turn: nothing has been arranged so far, and others wait as they did before. -/
structure Unarmed (l : Link ρ) (me : Nat) (t : Turn ρ) : Prop where
  ordered : t.link.tasks.Ordered
  lt_next : me < t.link.tasks.next
  options : t.link.options = l.options
  retries : t.link.retries = l.retries
  waits : ∀ id s, id ≠ me → t.link.Waits id s → l.Waits id s ∧ t.link.retry = some id

/-- What a turn leaves: those who waited before, one perhaps left out, or one retry that is new. -/
inductive Leftover (l : Link ρ) (me : Nat) (l' : Link ρ) : Prop
  | kept : l'.retries = l.retries → (∀ id s, l'.Waits id s → id ≠ me ∧ l.Waits id s ∧ l'.retry = some id) →
      Leftover l me l'
  | armed (new : Nat) : l.retries < l.options.maxRetries → l'.retries = l.retries + 1 →
      (∀ id s, l'.Waits id s → id = new ∧ s = .toRetry ∧ l'.retry = some new) → Leftover l me l'

theorem Unarmed.finish (h : t.Unarmed l me) (e : Ending) : Leftover l me (t.finish me e).link := by
  refine .kept h.retries fun id s ⟨hs, hp⟩ => ?_
  obtain ⟨hne, hold⟩ := Tasks.stage?_of_erase hs
  exact ⟨hne, h.waits id s hne ⟨hold, hp⟩⟩

/-- The task goes on to something else. -/
theorem Unarmed.park (h : t.Unarmed l me) {s' : Stage ρ} (hs' : s'.part ≠ .retry) (r : Request ρ) :
    Leftover l me (t.park me s' r).link := by
  refine .kept h.retries fun id s ⟨hs, hp⟩ => ?_
  obtain ⟨-, rfl⟩ | ⟨hne, hold⟩ := Tasks.stage?_of_advance hs
  · exact absurd hp hs'
  · exact ⟨hne, h.waits id s hne ⟨hold, hp⟩⟩

theorem Unarmed.reconnect (h : t.Unarmed l me) : Leftover l me ((t.reconnect (some me)).finish me).link := by
  obtain ⟨-, hlink, -⟩ | ⟨hlt, hlink, -⟩ := t.reconnect_cases (some me)
  · have hdown : (t.reconnect (some me)).Unarmed l me := by
      constructor
      all_goals rw [hlink]
      · exact h.ordered
      · exact h.lt_next
      · exact h.options
      · exact h.retries
      · exact h.waits
    exact hdown.finish _
  · rw [finish_link, hlink, armed_eq]
    rw [h.options, h.retries] at hlt
    refine .armed t.link.tasks.next hlt (congrArg (· + 1) h.retries) fun id s ⟨hs, hp⟩ => ?_
    obtain ⟨hne, hs⟩ := Tasks.stage?_of_erase hs
    obtain ⟨rfl, rfl⟩ | hold := Tasks.stage?_of_spawn (h.ordered.cancel? _) hs
    · rw [Tasks.next_cancel?]
      exact ⟨rfl, rfl, rfl⟩
    · -- Whoever waited before has been told to give up.
      obtain ⟨hother, hold⟩ := Tasks.stage?_of_cancel? hold
      obtain ⟨-, hknown⟩ := h.waits id s hne ⟨hold, hp⟩
      rw [hknown, if_neg (fun e => hne (Option.some.inj e))] at hother
      exact absurd rfl hother

theorem Unarmed.alike {u : Turn ρ} (h : t.Unarmed l me) (halike : t.Alike u) : u.Unarmed l me := by
  constructor
  · rw [halike.tasks]
    exact h.ordered
  · rw [halike.tasks]
    exact h.lt_next
  · exact halike.options.trans h.options
  · exact halike.retries.trans h.retries
  · intro id s hne hw
    rw [Waits, halike.tasks] at hw
    rw [halike.retry]
    exact h.waits id s hne hw

theorem Unarmed.letGo (h : t.Unarmed l me) (luck : Luck) : (t.letGo me luck).Unarmed l me := by
  constructor
  all_goals rw [letGo_link]
  · exact (h.ordered.cancel? _).cancel? _
  · simpa using h.lt_next
  · exact h.options
  · exact h.retries
  · rintro id s hne ⟨hs, hp⟩
    exact h.waits id s hne ⟨(Tasks.stage?_of_cancel? (Tasks.stage?_of_cancel? hs).2).2, hp⟩

/-- Whoever waited is told to give up. -/
theorem Unarmed.stopRetry (h : t.Unarmed l me) : t.stopRetry.Unarmed l me := by
  constructor
  all_goals rw [stopRetry_link]
  · exact h.ordered.cancel? _
  · simpa using h.lt_next
  · exact h.options
  · exact h.retries
  · rintro id s hne ⟨hs, hp⟩
    obtain ⟨hother, hold⟩ := Tasks.stage?_of_cancel? hs
    exact absurd (h.waits id s hne ⟨hold, hp⟩).2 hother

theorem Unarmed.dial (h : t.Unarmed l me) : t.dial.Unarmed l me := by
  constructor
  all_goals rw [dial_link]
  · exact h.ordered
  · exact h.lt_next
  · exact h.options
  · exact h.retries
  · exact h.waits

theorem dials_unarmed (l : Link ρ) (me : Nat) : Dials me (Unarmed l me) fun t => Leftover l me t.link where
  alike h halike := h.alike halike
  letGo h luck := h.letGo luck
  stopRetry h := h.stopRetry
  finish h e := h.finish e
  close h _ _ := h.park (by nofun) _
  reconnect h _ := h.reconnect
  dial h := h.dial
  opening h _ := h.park (by nofun) _

theorem unarmed_start (hord : l.tasks.Ordered) (hl : Lone l) {s : Stage ρ} (hs : l.tasks.stage? me = some s) :
    (⟨l, []⟩ : Turn ρ).Unarmed l me where
  ordered := hord
  lt_next := Tasks.lt_next_of_stage? hord hs
  options := rfl
  retries := rfl
  waits id s _ hw := ⟨hw, hl id s hw⟩

theorem Noted.unarmed {u : Turn ρ} (hu : u.Noted l) (h : (⟨l, []⟩ : Turn ρ).Unarmed l me) : u.Unarmed l me := by
  obtain ⟨-, v, p, e, f, hlink⟩ := hu
  constructor
  all_goals rw [hlink]
  · exact h.ordered
  · exact h.lt_next
  · exact h.waits

/-- A subscription that is taken over leaves those who wait. -/
theorem Unarmed.subscribed (h : t.Unarmed l me) (luck : Luck) (sub : Nat) :
    Leftover l me (t.subscribed me luck sub).link ∨ (t.subscribed me luck sub).link.retries = 0 ∧
      ∀ id s, (t.subscribed me luck sub).link.Waits id s →
        id ≠ me ∧ l.Waits id s ∧ (t.subscribed me luck sub).link.retry = some id := by
  have hcancel : (t.act (.cancel sub)).Unarmed l me := ⟨h.ordered, h.lt_next, h.options, h.retries, h.waits⟩
  obtain ⟨hgoing, -⟩ | ⟨-, ⟨e, hturn⟩ | hturn⟩ := t.subscribed_cases me luck sub
  · right
    rw [(subscribed_link me sub hgoing luck).2]
    refine ⟨rfl, fun id s ⟨hs, hp⟩ => ?_⟩
    obtain ⟨hne, hs⟩ := Tasks.stage?_of_erase hs
    obtain ⟨-, rfl⟩ | hs := Tasks.stage?_of_spawn (h.ordered.spawn _) hs
    · cases hp
    obtain ⟨-, rfl⟩ | hs := Tasks.stage?_of_spawn h.ordered hs
    · cases hp
    · exact ⟨hne, h.waits id s hne ⟨hs, hp⟩⟩
  · left
    rw [hturn]
    exact hcancel.finish e
  · left
    rw [hturn]
    exact (dials_unarmed l me).closeClient hcancel .abandoned

end Turn

open Turn (Leftover)

/-- Whatever a task comes to that does not wait to retry itself. -/
theorem Course.leftover {s : Stage ρ} {o : Outcome ρ} {t : Turn ρ} (h : Course l me s o t) (hord : l.tasks.Ordered)
    (hl : Lone l) (hs : l.tasks.stage? me = some s) (hp : s.part ≠ .retry) :
    Leftover l me t.link ∨ (∃ n, s = .subscribing n ∧ o = .done) ∧ t.link.retries = 0 ∧
      ∀ id s', t.link.Waits id s' → id ≠ me ∧ l.Waits id s' ∧ t.link.retry = some id := by
  have hstart := Turn.unarmed_start hord hl hs
  have hdials := Turn.dials_unarmed l me
  cases h with
  | stay =>
    refine .inl (.kept rfl fun id s' hw => ⟨?_, hw, hl id s' hw⟩)
    rintro rfl
    exact hp (Option.some.inj (hs.symm.trans hw.1) ▸ hw.2)
  | onward hu ho => exact .inl ((hu.unarmed hstart).park (ho.part ▸ hp) _)
  | finish hu _ => exact .inl ((hu.unarmed hstart).finish _)
  | record sub r =>
    have hcounted : (Turn.spawn (Turn.change ⟨l, []⟩ fun l => { l with received := l.received + 1 })
        (.toProcess r)).Unarmed l me := by
      refine ⟨hord.spawn _, Nat.lt_succ_of_lt hstart.lt_next, rfl, rfl, fun id s' _ ⟨hs', hp'⟩ => ?_⟩
      obtain ⟨-, rfl⟩ | hold := Tasks.stage?_of_spawn hord hs'
      · cases hp'
      · exact ⟨⟨hold, hp'⟩, hl id s' ⟨hold, hp'⟩⟩
    exact .inl (hcounted.park (by nofun) _)
  | lose luck hu _ => exact .inl (hdials.tearDown (hu.unarmed hstart) luck)
  | handedOver n luck => exact (hstart.subscribed luck n).imp_right fun h => ⟨⟨n, rfl, rfl⟩, h⟩
  | closed hu => exact .inl (hdials.afterClose (hu.unarmed hstart) _)
  | retry => exact absurd rfl hp
  | call c o now luck => exact .inl (hdials.call hstart now luck c)

/-! ## Moves -/

/-- An automatic attempt begins: a task has waited to retry. -/
def Move.retries (l : Link ρ) (m : Move ρ) : Bool :=
  match m.goesOn? l with
  | some (.pausing, _) => true
  | _ => false

/-- What a move does to the retries. -/
inductive Retrial (l : Link ρ) (m : Move ρ) : Prop
  /-- A retry that has been arranged begins to wait. -/
  | pauses (id : Nat) : l.Waits id .toRetry → m.retries l = false → (m.turn l).link.retries = l.retries →
      (∀ i s, (m.turn l).link.Waits i s → i = id ∧ s = .pausing ∧ (m.turn l).link.retry = some id) →
      (m.turn l).sleep? id = some l.options.retryDelay → Retrial l m
  /-- Nobody waits who did not wait before, and nobody at all if a retry has waited long enough. -/
  | keeps : (m.turn l).link.retries = l.retries ∨ (m.opens? l).isSome ∧ (m.turn l).link.retries = 0 →
      (∀ i s, (m.turn l).link.Waits i s → l.Waits i s ∧ (m.turn l).link.retry = some i ∧ (m.turn l).sleep? i = none ∧
        m.retries l = false) → Retrial l m
  /-- A retry is arranged. -/
  | arms (new : Nat) : l.retries < l.options.maxRetries → (m.turn l).link.retries = l.retries + 1 →
      (∀ i s, (m.turn l).link.Waits i s → i = new ∧ s = .toRetry ∧ (m.turn l).link.retry = some new) → Retrial l m

theorem Move.retries_cases {m : Move ρ} (h : m.retries l) :
    ∃ id turn now luck o, m = .resume id turn now luck o ∧ l.Waits id .pausing := by
  rw [Move.retries] at h
  split at h
  · rename_i hgo
    cases m with
    | ask | askAtOnce => cases hgo
    | resume id turn now luck o =>
      obtain ⟨-, hno⟩ | ⟨-, -, hno⟩ | ⟨s, -, hs, hyes⟩ := resume_cases l id turn now luck o
      · cases hno.symm.trans hgo
      · cases hno.symm.trans hgo
      · cases hyes.symm.trans hgo
        exact ⟨id, turn, now, luck, _, rfl, hs, rfl⟩
  · cases h

section
variable {m : Move ρ}

/-- The turn of a task leaves those who waited before, the task itself left out, or one retry that is new. -/
theorem Retrial.of_kept (hl : Lone l) (hretries : m.retries l → l.Waits me .pausing)
    (hsleep : ∀ i, me ≠ i → (m.turn l).sleep? i = none)
    (hcount : (m.turn l).link.retries = l.retries ∨ (m.opens? l).isSome ∧ (m.turn l).link.retries = 0)
    (hkept : ∀ i s, (m.turn l).link.Waits i s → i ≠ me ∧ l.Waits i s ∧ (m.turn l).link.retry = some i) :
    Retrial l m := by
  refine .keeps hcount fun i s hi => ?_
  obtain ⟨hne, hold, hknown⟩ := hkept i s hi
  refine ⟨hold, hknown, hsleep i hne.symm, Bool.eq_false_iff.2 fun hm => ?_⟩
  exact hne (hl.unique hold (hretries hm)).1

theorem Retrial.of_leftover (hl : Lone l) (hretries : m.retries l → l.Waits me .pausing)
    (hsleep : ∀ i, me ≠ i → (m.turn l).sleep? i = none) (h : Leftover l me (m.turn l).link) : Retrial l m := by
  cases h with
  | kept hcount hkept => exact .of_kept hl hretries hsleep (.inl hcount) hkept
  | armed new hlt hcount hnew => exact .arms new hlt hcount hnew

theorem Retrial.lone (h : Retrial l m) : Lone (m.turn l).link := by
  intro i s hi
  cases h with
  | pauses id _ _ _ hnew _ =>
    obtain ⟨rfl, -, hknown⟩ := hnew i s hi
    exact hknown
  | keeps _ hkept => exact (hkept i s hi).2.1
  | arms new _ _ hnew =>
    obtain ⟨rfl, -, hknown⟩ := hnew i s hi
    exact hknown

theorem Retrial.within (h : Retrial l m) (hl : l.retries ≤ l.options.maxRetries) :
    (m.turn l).link.retries ≤ l.options.maxRetries := by
  cases h with
  | pauses id _ _ hcount _ _ => omega
  | keeps hcount _ => obtain hcount | ⟨-, hcount⟩ := hcount <;> omega
  | arms new hlt hcount _ => omega

/-- A new task does not wait to retry. -/
theorem Lone.asked (hl : Lone l) (hord : l.tasks.Ordered) (c : Call) {i : Nat} {s : Stage ρ}
    (h : ({ l with tasks := l.tasks.spawn (.called c) } : Link ρ).Waits i s) : l.Waits i s ∧ l.retry = some i := by
  obtain ⟨hs, hp⟩ := h
  obtain ⟨-, rfl⟩ | hold := Tasks.stage?_of_spawn hord hs
  · cases hp
  · exact ⟨⟨hold, hp⟩, hl i s ⟨hold, hp⟩⟩

theorem retrial_ask (hord : l.tasks.Ordered) (hl : Lone l) (c : Call) : Retrial l (.ask c) := by
  refine .keeps (.inl rfl) fun i s hi => ?_
  obtain ⟨hold, hknown⟩ := hl.asked hord c hi
  exact ⟨hold, hknown, rfl, rfl⟩

theorem retrial_askAtOnce (hord : l.tasks.Ordered) (hl : Lone l) (c : Call) (now : Nat) (luck : Luck) :
    Retrial l (.askAtOnce c now luck) := by
  have hasked : (⟨{ l with tasks := l.tasks.spawn (.called c) }, []⟩ : Turn ρ).Unarmed l l.tasks.next :=
    ⟨hord.spawn _, Nat.lt_succ_self _, rfl, rfl, fun i s _ hi => hl.asked hord c hi⟩
  have hleft : Leftover l l.tasks.next ((Move.askAtOnce c now luck).turn l).link :=
    (Turn.dials_unarmed l _).call hasked now luck c
  refine .of_leftover hl (by nofun) (fun i hi => ?_) hleft
  exact Turn.sleep?_eq_none ((Turn.carries_sleepless hi).call (Turn.lacks_start _ _) now luck c)

section
variable {id turn now : Nat} {luck : Luck} {o o' : Outcome ρ} {s : Stage ρ}

/-- A retry that has been arranged goes on to wait. -/
theorem retrial_toRetry (hl : Lone l) (hs : l.tasks.stage? id = some .toRetry)
    (hr : l.resume id turn now luck o = Turn.goOn ⟨l, []⟩ id now luck .toRetry o')
    (hgo : (Move.resume id turn now luck o).goesOn? l = some (.toRetry, o')) :
    Retrial l (.resume id turn now luck o) := by
  have hturn : (Move.resume id turn now luck o).turn l = Turn.goOn ⟨l, []⟩ id now luck .toRetry o' := hr
  refine .pauses id ⟨hs, rfl⟩ (by rw [Move.retries, hgo]) (by rw [hturn]; rfl) (fun i u hi => ?_) ?_
  · rw [hturn] at hi ⊢
    obtain ⟨rfl, rfl⟩ | ⟨hne, hold⟩ := Tasks.stage?_of_advance hi.1
    · exact ⟨rfl, rfl, hl i _ ⟨hs, rfl⟩⟩
    · exact absurd (hl.unique ⟨hold, hi.2⟩ ⟨hs, rfl⟩).1 hne
  · rw [hturn]
    show ([] ++ [Action.await id (l.tasks.nextTurn id) (.slept l.options.retryDelay)]).findSome? (Action.sleep? id) =
      some l.options.retryDelay
    simp [Action.sleep?]

/-- A task goes on. -/
theorem retrial_goOn (hord : l.tasks.Ordered) (hl : Lone l) (hs : l.tasks.stage? id = some s)
    (hr : l.resume id turn now luck o = Turn.goOn ⟨l, []⟩ id now luck s o')
    (hgo : (Move.resume id turn now luck o).goesOn? l = some (s, o')) : Retrial l (.resume id turn now luck o) := by
  have hturn : (Move.resume id turn now luck o).turn l = Turn.goOn ⟨l, []⟩ id now luck s o' := hr
  have hsleep : ∀ i, id ≠ i → ((Move.resume id turn now luck o).turn l).sleep? i = none := by
    intro i hi
    rw [hturn]
    exact Turn.sleep?_eq_none ((goOn_course l id now luck s o').carried (Turn.carries_sleepless hi)
      (Turn.lacks_start _ _) (Turn.lacks_start _ _))
  by_cases hp : s.part = .retry
  · cases s with
    | toRetry => exact retrial_toRetry hl hs hr hgo
    | pausing =>
      have hdown : (Turn.enter ⟨l, []⟩ .disconnected).Unarmed l id :=
        (Turn.dials_unarmed l id).alike (Turn.unarmed_start hord hl hs) (Turn.alike_enter _ (by decide))
      have hleft : Leftover l id ((Move.resume id turn now luck o).turn l).link := by
        rw [hturn]
        exact (Turn.dials_unarmed l id).connect hdown luck
      exact .of_leftover hl (fun _ => ⟨hs, rfl⟩) hsleep hleft
    | _ => cases hp
  · have hnever : (Move.resume id turn now luck o).retries l → l.Waits id .pausing := by
      intro hretries
      rw [Move.retries, hgo] at hretries
      cases s with
      | pausing => exact absurd rfl hp
      | _ => cases hretries
    obtain hleft | ⟨⟨n, rfl, rfl⟩, hcount, hkept⟩ := (goOn_course l id now luck s o').leftover hord hl hs hp
    · exact .of_leftover hl hnever hsleep (by rw [hturn]; exact hleft)
    · have hopens : ((Move.resume id turn now luck o).opens? l).isSome := by
        rw [Move.opens?, hgo]
        rfl
      rw [← hturn] at hcount hkept
      exact .of_kept hl hnever hsleep (.inr ⟨hopens, hcount⟩) hkept

end

/-- Every move leaves one retry at most, and says what has become of it. -/
theorem Move.retrial (hord : l.tasks.Ordered) (hl : Lone l) (m : Move ρ) : Retrial l m := by
  cases m with
  | ask c => exact retrial_ask hord hl c
  | askAtOnce c now luck => exact retrial_askAtOnce hord hl c now luck
  | resume id turn now luck o =>
    obtain ⟨hr, hgo⟩ | ⟨hr, hnone, hgo⟩ | ⟨s, hr, hs, hgo⟩ := resume_cases l id turn now luck o
    · have hretries : (Move.resume id turn now luck o).retries l = false := by rw [Move.retries, hgo]
      refine .keeps (.inl (by rw [Move.turn, hr])) fun i s hi => ?_
      rw [Move.turn, hr] at hi ⊢
      exact ⟨hi, hl i s hi, rfl, hretries⟩
    · have hretries : (Move.resume id turn now luck o).retries l = false := by rw [Move.retries, hgo]
      refine .keeps (.inl (by rw [Move.turn, hr]; rfl)) fun i s hi => ?_
      rw [Move.turn, hr] at hi ⊢
      have hold : l.Waits i s := ⟨(Tasks.stage?_of_erase hi.1).2, hi.2⟩
      exact ⟨hold, hl i s hold, rfl, hretries⟩
    · exact retrial_goOn hord hl hs hr hgo

end

end PoolFeed.Link
