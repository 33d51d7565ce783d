import PoolFeed.Proofs.Link.Annals
import PoolFeed.Proofs.Link.Retrial

/-!
# Retries are bounded and paced

| here | there |
| --- | --- |
| `Paced` | `reconnect_delay` in `_delayed_connect`, and `max_reconnect_attempts` in `reconnect` |

A chronicle follows a run by the clock: time passes between moves, and a task that sleeps does not go on before its time
has come. It notes when each automatic attempt begins. `retries_bounded_and_paced` says, of every run, that there are no
more retries than the options allow, that one at most waits at any moment, and that attempts keep their distance; and of a
link that is connected once, and never with success, that it makes one attempt more than it may retry.
-/

namespace PoolFeed.Link

variable {ρ : Type} {l : Link ρ} {m : Move ρ}

/-! ## Time -/

/-- A task sleeps while it stands at a stage. -/
def Stage.sleeps : Stage ρ → Bool
  | .pausing | .keeping _ => true
  | _ => false

/-- A move comes too early for the task that it would let go on. -/
def Move.early (l : Link ρ) (now : Nat) (wakes : Nat → Nat) (m : Move ρ) : Bool :=
  match m with
  | .resume id _ _ _ _ => (m.goesOn? l).any fun (s, _) => s.sleeps && decide (now < wakes id)
  | _ => false

/-- An account of a run by the clock. -/
structure Chronicle (ρ : Type) extends Annals ρ where
  /-- Milliseconds since the beginning. -/
  now : Nat := 0
  /-- Until when each task has asked to sleep. -/
  wakes : Nat → Nat := fun _ => 0
  /-- When each automatic attempt has begun. -/
  attempts : List Nat := []
  /-- How many subscriptions have been handed over. -/
  subscribes : Nat := 0

namespace Chronicle

/-- Some time passes, and then a move takes place unless it comes too early. -/
def step (w : Chronicle ρ) (e : Nat × Move ρ) : Chronicle ρ :=
  if e.2.early w.link (w.now + e.1) w.wakes then { w with now := w.now + e.1 }
  else
    { toAnnals := w.toAnnals.step e.2
      now := w.now + e.1
      wakes := fun id => ((e.2.turn w.link).sleep? id).elim (w.wakes id) (w.now + e.1 + ·)
      attempts := w.attempts ++ if e.2.retries w.link then [w.now + e.1] else []
      subscribes := w.subscribes + if (e.2.opens? w.link).isSome then 1 else 0 }

end Chronicle

/-- The chronicle of a new link. -/
def chronicle (o : Options) (ls : List Listener) (entries : List (Nat × Move ρ)) : Chronicle ρ :=
  entries.foldl Chronicle.step { link := { options := o, listeners := ls } }

theorem chronicle_concat (o : Options) (ls : List Listener) (entries : List (Nat × Move ρ)) (e : Nat × Move ρ) :
    chronicle o ls (entries ++ [e]) = (chronicle o ls entries).step e := by
  simp only [chronicle, List.foldl_append, List.foldl_cons, List.foldl_nil]

/-- A chronicle is an account of those moves that did not come too early. -/
theorem chronicle_annals (o : Options) (ls : List Listener) (entries : List (Nat × Move ρ)) :
    ∃ moves, (chronicle o ls entries).toAnnals = annals o ls moves := by
  induction entries using List.reverseRecOn with
  | nil => exact ⟨[], rfl⟩
  | append_singleton entries e ih =>
    obtain ⟨moves, hmoves⟩ := ih
    rw [chronicle_concat, Chronicle.step]
    split
    · exact ⟨moves, hmoves⟩
    · refine ⟨moves ++ [e.2], ?_⟩
      rw [annals_concat, ← hmoves]

/-! ## Attempts -/

/-- An attempt that does not come too early is made by a task whose time has come. -/
theorem Move.retries_due {now : Nat} {wakes : Nat → Nat} (h : m.retries l) (hearly : m.early l now wakes = false) :
    ∃ id, l.Waits id .pausing ∧ wakes id ≤ now := by
  obtain ⟨id, turn, t, luck, o, rfl, hw⟩ := Move.retries_cases h
  refine ⟨id, hw, Nat.le_of_not_lt fun hlt => ?_⟩
  rw [Move.retries] at h
  split at h
  · rename_i hgo
    rw [Move.early, hgo] at hearly
    simp [Stage.sleeps, hlt] at hearly
  · cases h

/-- What a chronicle says of the retries at every moment. -/
structure Chronicle.Regular (o : Options) (w : Chronicle ρ) : Prop where
  options : w.link.options = o
  ordered : w.link.tasks.Ordered
  lone : Lone w.link
  within : w.link.retries ≤ o.maxRetries
  counted : w.attempts.length ≤ o.maxRetries * w.subscribes + w.link.retries
  waiting : ∀ id s, w.link.Waits id s → w.attempts.length < o.maxRetries * w.subscribes + w.link.retries
  past : ∀ a ∈ w.attempts, a ≤ w.now
  apart : w.attempts.Pairwise fun a b => a + o.retryDelay ≤ b
  due : ∀ id, w.link.Waits id .pausing → ∀ a ∈ w.attempts, a + o.retryDelay ≤ w.wakes id

namespace Chronicle

variable {o : Options} {w : Chronicle ρ}

/-- Time passes. -/
theorem Regular.wait (h : w.Regular o) (ms : Nat) : Regular o { w with now := w.now + ms } :=
  { h with past := fun a ha => Nat.le_trans (h.past a ha) (Nat.le_add_right _ _) }

/-- The chronicle after a move that takes place. -/
def acted (w : Chronicle ρ) (ms : Nat) (m : Move ρ) : Chronicle ρ where
  toAnnals := w.toAnnals.step m
  now := w.now + ms
  wakes id := ((m.turn w.link).sleep? id).elim (w.wakes id) (w.now + ms + ·)
  attempts := w.attempts ++ if m.retries w.link then [w.now + ms] else []
  subscribes := w.subscribes + if (m.opens? w.link).isSome then 1 else 0

variable {ms : Nat}

theorem attempts_acted (hm : m.retries w.link = false) : (w.acted ms m).attempts = w.attempts := by
  simp [acted, hm]

/-- What is noted has happened by now. -/
theorem Regular.past_acted (h : w.Regular o) : ∀ a ∈ (w.acted ms m).attempts, a ≤ w.now + ms := by
  intro a ha
  rcases List.mem_append.1 ha with ha | ha
  · exact Nat.le_trans (h.past a ha) (Nat.le_add_right _ _)
  · split at ha
    · exact Nat.le_of_eq (List.mem_singleton.1 ha)
    · cases ha

theorem Regular.apart_acted (h : w.Regular o) (hearly : m.early w.link (w.now + ms) w.wakes = false) :
    (w.acted ms m).attempts.Pairwise fun a b => a + o.retryDelay ≤ b := by
  refine List.pairwise_append.2 ⟨h.apart, ?_, fun a ha b hb => ?_⟩
  · split
    · exact List.pairwise_singleton _ _
    · exact List.Pairwise.nil
  · split at hb
    · obtain ⟨id, hw, hdue⟩ := Move.retries_due ‹_› hearly
      rw [List.mem_singleton.1 hb]
      exact Nat.le_trans (h.due id hw a ha) hdue
    · cases hb

/-- An attempt uses up a retry that has waited. -/
theorem Regular.used (h : w.Regular o) (hearly : m.early w.link (w.now + ms) w.wakes = false) :
    (w.acted ms m).attempts.length ≤ o.maxRetries * w.subscribes + w.link.retries := by
  by_cases hm : m.retries w.link
  · obtain ⟨id, hw, -⟩ := Move.retries_due hm hearly
    rw [acted, if_pos hm, List.length_append]
    exact h.waiting id _ hw
  · rw [attempts_acted (Bool.eq_false_iff.2 hm)]
    exact h.counted

/-- A subscription makes up for the retries that are forgotten with it. -/
theorem Regular.made_up (h : w.Regular o) {r : Nat}
    (hr : r = w.link.retries ∨ (m.opens? w.link).isSome ∧ r = 0) :
    o.maxRetries * w.subscribes + w.link.retries ≤ o.maxRetries * (w.acted ms m).subscribes + r := by
  obtain rfl | ⟨hopens, rfl⟩ := hr
  · exact Nat.add_le_add_right (Nat.mul_le_mul_left _ (Nat.le_add_right _ _)) _
  · rw [acted, if_pos hopens, Nat.mul_succ]
    exact Nat.add_le_add_left h.within _

theorem Regular.counted_acted (h : w.Regular o) (hearly : m.early w.link (w.now + ms) w.wakes = false) :
    (w.acted ms m).attempts.length ≤ o.maxRetries * (w.acted ms m).subscribes + (w.acted ms m).link.retries := by
  cases Move.retrial h.ordered h.lone m with
  | pauses id _ _ hcount _ _ => exact Nat.le_trans (h.used hearly) (h.made_up (.inl hcount))
  | keeps hcount _ => exact Nat.le_trans (h.used hearly) (h.made_up hcount)
  | arms new _ hcount _ =>
    refine Nat.le_trans (h.used hearly) (Nat.le_trans (h.made_up (.inl rfl)) (Nat.add_le_add_left ?_ _))
    exact Nat.le_trans (Nat.le_succ _) (Nat.le_of_eq hcount.symm)

theorem Regular.waiting_acted (h : w.Regular o) (hearly : m.early w.link (w.now + ms) w.wakes = false) {i : Nat}
    {s : Stage ρ} (hi : (w.acted ms m).link.Waits i s) :
    (w.acted ms m).attempts.length < o.maxRetries * (w.acted ms m).subscribes + (w.acted ms m).link.retries := by
  cases Move.retrial h.ordered h.lone m with
  | pauses id hw hm hcount _ _ =>
    rw [attempts_acted hm]
    exact Nat.lt_of_lt_of_le (h.waiting id _ hw) (h.made_up (.inl hcount))
  | keeps hcount hkept =>
    obtain ⟨hw, -, -, hm⟩ := hkept i s hi
    rw [attempts_acted hm]
    exact Nat.lt_of_lt_of_le (h.waiting i s hw) (h.made_up hcount)
  | arms new _ hcount _ =>
    refine Nat.lt_of_le_of_lt (Nat.le_trans (h.used hearly) (h.made_up (.inl rfl))) (Nat.add_lt_add_left ?_ _)
    exact Nat.lt_of_lt_of_eq (Nat.lt_succ_self _) hcount.symm

theorem Regular.due_acted (h : w.Regular o) {i : Nat} (hi : (w.acted ms m).link.Waits i .pausing) :
    ∀ a ∈ (w.acted ms m).attempts, a + o.retryDelay ≤ (w.acted ms m).wakes i := by
  intro a ha
  show a + o.retryDelay ≤ ((m.turn w.link).sleep? i).elim (w.wakes i) (w.now + ms + ·)
  cases Move.retrial h.ordered h.lone m with
  | pauses id _ _ _ hnew hsleep =>
    obtain ⟨rfl, -⟩ := hnew i _ hi
    rw [hsleep, h.options]
    exact Nat.add_le_add_right (h.past_acted a ha) _
  | keeps _ hkept =>
    obtain ⟨hw, -, hsleep, hm⟩ := hkept i _ hi
    rw [attempts_acted hm] at ha
    rw [hsleep]
    exact h.due i hw a ha
  | arms new _ _ hnew => cases (hnew i _ hi).2.1

/-- A move takes place. -/
theorem Regular.act (h : w.Regular o) (hearly : m.early w.link (w.now + ms) w.wakes = false) :
    (w.acted ms m).Regular o where
  options := (m.turn_options w.link).trans h.options
  ordered := m.turn_ordered h.ordered
  lone := (Move.retrial h.ordered h.lone m).lone
  within := h.options ▸ (Move.retrial h.ordered h.lone m).within (h.options.symm ▸ h.within)
  counted := h.counted_acted hearly
  waiting _ _ := h.waiting_acted hearly
  past := h.past_acted
  apart := h.apart_acted hearly
  due _ := h.due_acted

end Chronicle

theorem chronicle_regular (o : Options) (ls : List Listener) (entries : List (Nat × Move ρ)) :
    (chronicle o ls entries).Regular o := by
  induction entries using List.reverseRecOn with
  | nil =>
    have hnobody : ∀ id s, ¬(chronicle (ρ := ρ) o ls []).link.Waits id s := by
      rintro id s ⟨hs, -⟩
      cases hs
    exact ⟨rfl, Tasks.ordered_empty, fun i s hw => absurd hw (hnobody i s), Nat.zero_le _, Nat.zero_le _,
      fun i s hw => absurd hw (hnobody i s), nofun, List.Pairwise.nil, fun i hw => absurd hw (hnobody i _)⟩
  | append_singleton entries e ih =>
    rw [chronicle_concat, Chronicle.step]
    split
    · exact ih.wait e.1
    · exact ih.act (Bool.eq_false_iff.2 ‹_›)

/-! ## Answers -/

/-- Whatever a task comes to that goes on, it acts in the end. -/
theorem Turn.carries_acts (me : Nat) : Carries (ρ := ρ) me (fun _ => True) fun t => t.actions ≠ [] := by
  have hact : ∀ (t : Turn ρ) a, (t.act a).actions ≠ [] := fun t a => by simp [Turn.act]
  constructor
  case toDials =>
    constructor
    case toCloses =>
      constructor
      case alike | letGo | stopRetry => intros; trivial
      case finish => exact fun _ e => hact _ _
      case close => exact fun _ n next => hact _ _
      case reconnect => exact fun _ _ => hact _ _
    case dial => intros; trivial
    case opening => exact fun _ n => hact _ _
  case onward => exact fun _ _ => hact _ _
  case spawn | cancel => intros; trivial
  case keep =>
    intro t _ hgoing luck sub
    simp only [Turn.subscribed, hgoing, Bool.false_eq_true, if_false]
    exact hact _ _

/-- A task that drives the link acts when what it waits for fails. -/
theorem Turn.goOn_failed_acts (l : Link ρ) (me : Nat) {s : Stage ρ} (hdrives : s.drives) :
    (Turn.goOn ⟨l, []⟩ me 0 {} s (.failed "")).actions ≠ [] := by
  have hacts := Turn.carries_acts (ρ := ρ) me
  cases s with
  | opening | greeting | subscribing => exact hacts.tearDown trivial {}
  | closing client next => exact hacts.afterClose trivial next
  | toRetry => exact hacts.onward trivial (.pause _)
  | pausing => exact hacts.connect trivial {}
  | toRead sub => exact hacts.onward trivial (.read sub)
  | reading sub =>
    simp only [Turn.goOn, Turn.readingEnded]
    split
    · exact hacts.finish trivial _
    · exact hacts.tearDown trivial {}
  | called | toKeep | keeping | pinging | toProcess | processing => cases hdrives

/-- As long as a task drives the link it will get an answer, if only that it has failed. -/
theorem Chronicle.Regular.answerable {o : Options} {w : Chronicle ρ} (h : w.Regular o)
    (hdriven : w.link.tasks.standing Stage.drives ≠ []) : ∃ e, (w.step e).answers = w.answers + 1 := by
  obtain ⟨t, ht⟩ := List.exists_mem_of_ne_nil _ hdriven
  obtain ⟨hs, hdrives⟩ := Tasks.stage?_of_mem_standing h.ordered ht
  obtain ⟨hlive, hstands⟩ := List.mem_filter.1 ht
  have hfind := Tasks.find?_of_mem h.ordered hlive
  have hwaits : w.link.tasks.waitsAt t.id t.turn := by
    simp only [Bool.and_eq_true] at hstands
    simpa [Tasks.waitsAt, hfind] using hstands.1
  have hgo : (Move.resume t.id t.turn 0 {} (.failed "")).goesOn? w.link = some (t.stage, .failed "") := by
    rw [Move.goesOn?, if_pos hwaits, hs, Option.map_some]
  have hturn : (Move.resume t.id t.turn 0 {} (.failed "")).turn w.link =
      Turn.goOn ⟨w.link, []⟩ t.id 0 {} t.stage (.failed "") := by
    obtain ⟨-, hno⟩ | ⟨-, -, hno⟩ | ⟨s, hr, -, hyes⟩ :=
      Move.resume_cases w.link t.id t.turn 0 {} (.failed "")
    · cases hno.symm.trans hgo
    · cases hno.symm.trans hgo
    · cases hyes.symm.trans hgo
      exact hr
  have hanswers : (Move.resume t.id t.turn 0 {} (.failed "")).answers w.link = 1 := by
    have hacts := Turn.goOn_failed_acts w.link t.id hdrives
    rw [Move.answers, hgo, hturn]
    simp [hdrives, hacts]
  have hdue : (Move.resume t.id t.turn 0 {} (.failed "")).early w.link (w.now + w.wakes t.id) w.wakes = false := by
    rw [Move.early, hgo]
    simp
  refine ⟨(w.wakes t.id, .resume t.id t.turn 0 {} (.failed "")), ?_⟩
  rw [Chronicle.step, if_neg (by rw [hdue]; exact Bool.false_ne_true)]
  show w.answers + _ = _
  rw [hanswers]

/-! ## Bounded and paced -/

/-- The number of attempts of a link that is left to itself and never comes up. -/
theorem Phased.attempts {n : Nat} (hl : Phased n l) (hnone : l.connections = 0) :
    l.clients ≤ l.options.maxRetries + 1 ∧ n ≤ 6 * (l.options.maxRetries + 1) ∧
    (l.tasks.standing Stage.drives = [] → l.clients = l.options.maxRetries + 1) := by
  by_cases hdown : l.state = .disconnected
  · obtain ⟨hclients, hanswers⟩ := hl.tally.gaveUp hnone hdown
    exact ⟨Nat.le_of_eq hclients, hanswers, fun _ => hclients⟩
  · obtain ⟨id, s, hs, hdrives⟩ := hl.driven hdown
    obtain ⟨hclients, hanswers⟩ := hl.tally.trying hnone id s hs hdrives
    have hahead : s.ahead ≤ 1 := by
      rw [Stage.ahead]
      split <;> decide
    have hwithin := hl.tally.within
    refine ⟨by omega, by omega, fun hidle => ?_⟩
    obtain ⟨t, ht, -⟩ := Tasks.mem_standing hs hdrives
    rw [hidle] at ht
    cases ht

/-- What a chronicle of a link says of its retries. -/
structure Paced (o : Options) (w : Chronicle ρ) : Prop where
  ceiling : w.link.retries ≤ o.maxRetries
  total : w.attempts.length ≤ o.maxRetries * (1 + w.subscribes)
  one : (w.link.tasks.standing fun s => s.part = .retry).length ≤ 1
  apart : w.attempts.Pairwise fun a b => a + o.retryDelay ≤ b
  /-- A link that is connected once and never comes up makes so many attempts when it has got all answers, of which there
  are not more than six for an attempt. -/
  exhausted : w.calls = [.connect] → w.link.connections = 0 → w.link.clients ≤ o.maxRetries + 1 ∧
    w.answers ≤ 6 * (o.maxRetries + 1) ∧
    (w.link.tasks.standing Stage.drives = [] → w.link.clients = o.maxRetries + 1)
  answerable : w.link.tasks.standing Stage.drives ≠ [] → ∃ e, (w.step e).answers = w.answers + 1

/-- **Retries are bounded and paced.** Whoever calls, however handshakes and streams turn out, and in whatever order tasks
are resumed, as long as sleeping tasks are left to sleep: the retries in a row stay within the options, those
in all within as many for each subscription and for the beginning; one retry waits at most; two attempts keep the delay
between them. A link that is connected once and never comes up makes one attempt more than it may retry. -/
theorem retries_bounded_and_paced (o : Options) (ls : List Listener) (entries : List (Nat × Move ρ)) :
    Paced o (chronicle o ls entries) := by
  have h := chronicle_regular o ls entries
  refine ⟨h.within, ?_, ?_, h.apart, fun hcalls hnone => ?_, h.answerable⟩
  · calc (chronicle o ls entries).attempts.length
        ≤ o.maxRetries * (chronicle o ls entries).subscribes + (chronicle o ls entries).link.retries := h.counted
      _ ≤ o.maxRetries * (chronicle o ls entries).subscribes + o.maxRetries := Nat.add_le_add_left h.within _
      _ = o.maxRetries * (1 + (chronicle o ls entries).subscribes) := by rw [Nat.mul_add, Nat.mul_one, Nat.add_comm]
  · refine Tasks.standing_length_le_one h.ordered fun i j s u hs hu hps hpu => ?_
    exact (h.lone.unique ⟨hs, of_decide_eq_true hps⟩ ⟨hu, of_decide_eq_true hpu⟩).1
  · obtain ⟨moves, hmoves⟩ := chronicle_annals o ls entries
    have hlawful := annals_lawful o ls moves
    rw [← hmoves] at hlawful
    obtain ⟨hphased, -⟩ := hlawful.begun .connect (.inr rfl) hcalls
    have hattempts := hphased.attempts hnone
    rwa [h.options] at hattempts

/-- A link that may retry once is refused a client, and after the delay another one. It is asked too early first. -/
def refusedTwice : List (Nat × Move Unit) :=
  [(0, .askAtOnce .connect 0 { create := fun _ => some "refused" }), (0, .resume 1 0 0 {} .done),
    (100, .resume 1 1 0 {} .done), (2900, .resume 1 1 0 { create := fun _ => some "refused" } .done)]

theorem paced_refusedTwice :
    (chronicle { programs := [], maxRetries := 1 } [] refusedTwice).calls = [.connect] ∧
    (chronicle { programs := [], maxRetries := 1 } [] refusedTwice).link.connections = 0 ∧
    (chronicle { programs := [], maxRetries := 1 } [] refusedTwice).link.tasks.standing Stage.drives = [] ∧
    (chronicle { programs := [], maxRetries := 1 } [] refusedTwice).link.clients = 2 := by
  have hcalls : (chronicle { programs := [], maxRetries := 1 } [] refusedTwice).calls = [.connect] := by decide +kernel
  have hnone : (chronicle { programs := [], maxRetries := 1 } [] refusedTwice).link.connections = 0 := by decide +kernel
  have hidle : (chronicle { programs := [], maxRetries := 1 } [] refusedTwice).link.tasks.standing Stage.drives = [] := by
    decide +kernel
  have hpaced := retries_bounded_and_paced { programs := [], maxRetries := 1 } [] refusedTwice
  exact ⟨hcalls, hnone, hidle, (hpaced.exhausted hcalls hnone).2.2 hidle⟩

end PoolFeed.Link
