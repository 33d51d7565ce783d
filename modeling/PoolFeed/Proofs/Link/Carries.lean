import Mathlib.Data.List.Induction
import PoolFeed.Proofs.Link.Courses

/-!
# What a turn carries to its end

A description of turns that holds in the middle of a turn comes to its end if a few steps carry it there: those by
which a turn closes a connection (`Closes`), those by which it connects (`Dials`) and those by which it goes on
(`Carries`). All that a task can come to is made of these steps, and so whatever they carry holds after every move
(`Move.carried`). The order of tasks is the first example.
-/

namespace PoolFeed.Link

variable {ρ : Type}

namespace Turn

/-- Two turns that have done the same and differ at most in notes and in what they have counted. -/
structure Alike (t u : Turn ρ) : Prop where
  deeds : u.deeds = t.deeds
  tasks : u.link.tasks = t.link.tasks
  options : u.link.options = t.link.options
  retries : u.link.retries = t.link.retries
  retry : u.link.retry = t.link.retry

theorem alike_enter (t : Turn ρ) {s : LinkState} (hs : s ≠ .connecting) : t.Alike (t.enter s) := by
  refine ⟨enter_deeds hs, ?_, ?_, ?_, ?_⟩ <;> rw [enter_link]

theorem alike_log (t : Turn ρ) {e : Log.Entry} (he : plainNote e) : t.Alike (t.log e) :=
  ⟨log_deeds he, rfl, rfl, rfl, rfl⟩

/-! ## Closing -/

/-- One description of turns holds in their middle and another at their end, as far as they close connections. -/
structure Closes (me : Nat) (during after : Turn ρ → Prop) : Prop where
  alike : ∀ {t u : Turn ρ}, during t → t.Alike u → during u
  letGo : ∀ {t}, during t → ∀ luck, during (t.letGo me luck)
  stopRetry : ∀ {t}, during t → during t.stopRetry
  finish : ∀ {t}, during t → ∀ e, after (t.finish me e)
  close : ∀ {t}, during t → ∀ n next, after (t.park me (.closing n next) (.closed n))
  reconnect : ∀ {t}, during t → t.link.stopping = false → after ((t.reconnect (some me)).finish me)

section
variable {me : Nat} {during after : Turn ρ → Prop} {t : Turn ρ}

theorem Closes.afterClose (h : Closes me during after) (ht : during t) (next : AfterClose) :
    after (t.afterClose me next) := by
  cases next with
  | abandoned => exact h.finish ht _
  | teardown =>
    simp only [Turn.afterClose]
    split
    · exact h.finish (h.alike ht (t.alike_enter (by decide))) _
    · exact h.reconnect ht (Bool.eq_false_iff.2 ‹_›)
  | stop =>
    obtain ⟨u, c, hturn, hlink, hdeeds⟩ := t.afterClose_stop me
    rw [hturn]
    refine h.finish (h.alike ht ⟨hdeeds, ?_, ?_, ?_, ?_⟩) _ <;> rw [hlink]

theorem Closes.closeClient (h : Closes me during after) (ht : during t) (next : AfterClose) :
    after (t.closeClient me next) := by
  obtain ⟨-, hturn⟩ | ⟨n, -, hturn⟩ := t.closeClient_cases me next
  · rw [hturn]
    exact h.afterClose ht next
  · have hclosed : during (t.change fun l => { l with client := none }) := h.alike ht ⟨rfl, rfl, rfl, rfl, rfl⟩
    rw [hturn]
    exact h.close hclosed n next

theorem Closes.tearDown (h : Closes me during after) (ht : during t) (luck : Luck) : after (t.tearDown me luck) := by
  obtain ⟨-, hturn⟩ | hturn := t.tearDown_cases me luck
  · rw [hturn]
    exact h.finish ht _
  · have hlost : during ((t.enter .reconnecting).change fun l => { l with disconnects := l.disconnects + 1 }) :=
      h.alike (h.alike ht (t.alike_enter (by decide))) ⟨rfl, rfl, rfl, rfl, rfl⟩
    rw [hturn]
    exact h.closeClient (h.letGo hlost luck) .teardown

theorem Closes.stop (h : Closes me during after) (ht : during t) (luck : Luck) : after (t.stop me luck) := by
  have hstops : during (t.change fun l => { l with stopping := true }) := h.alike ht ⟨rfl, rfl, rfl, rfl, rfl⟩
  rw [stop_eq]
  exact h.closeClient (h.letGo (h.stopRetry hstops) luck) .stop

end

/-! ## Connecting -/

/-- And as far as they connect. -/
structure Dials (me : Nat) (during after : Turn ρ → Prop) : Prop extends Closes me during after where
  dial : ∀ {t}, during t → during t.dial
  opening : ∀ {t}, during t → ∀ n, after (t.park me (.opening n) (.opened n))

section
variable {me : Nat} {during after : Turn ρ → Prop} {t : Turn ρ}

theorem Dials.connect (h : Dials me during after) (ht : during t) (luck : Luck) : after (t.connect me luck) := by
  obtain ⟨-, hturn⟩ | ⟨reason, -, hturn⟩ | ⟨-, hturn⟩ := t.connect_cases me luck
  · rw [hturn]
    exact h.finish ht _
  · rw [hturn]
    exact h.tearDown (h.alike (h.dial ht) (t.dial.alike_log rfl)) luck
  · have hcreated : during (t.dial.change fun l => { l with client := some (t.link.clients + 1) }) :=
      h.alike (h.dial ht) ⟨rfl, rfl, rfl, rfl, rfl⟩
    rw [hturn]
    exact h.opening hcreated _

theorem Dials.call (h : Dials me during after) (ht : during t) (now : Nat) (luck : Luck) (c : Call) :
    after (t.call me now luck c) := by
  cases c with
  | start =>
    obtain ⟨-, hturn⟩ | ⟨u, c, b, hturn, hlink, -, hnotes⟩ := t.start_cases me now luck
    · rw [Turn.call, hturn]
      exact h.finish ht _
    · have hu : during u := by
        refine h.alike ht ⟨hnotes.deeds, ?_, ?_, ?_, ?_⟩ <;> rw [hlink]
      rw [Turn.call, hturn]
      exact h.connect hu luck
  | stop => exact h.stop ht luck
  | connect => exact h.connect ht luck
  | handleDisconnect => exact h.tearDown ht luck

end

/-! ## Going on -/

/-- And as far as they go on. -/
structure Carries (me : Nat) (during after : Turn ρ → Prop) : Prop extends Dials me during after where
  onward : ∀ {t s s' r}, during t → Stage.Onward s s' r → after (t.park me s' r)
  spawn : ∀ {t}, during t → ∀ r, during (t.spawn (.toProcess r))
  cancel : ∀ {t}, during t → ∀ sub, during (t.act (.cancel sub))
  keep : ∀ {t}, during t → t.link.stopping = false → ∀ luck sub, after (t.subscribed me luck sub)

section
variable {me : Nat} {during after : Turn ρ → Prop} {t : Turn ρ}

theorem Carries.subscribed (h : Carries me during after) (ht : during t) (luck : Luck) (sub : Nat) :
    after (t.subscribed me luck sub) := by
  obtain ⟨hgoing, -⟩ | ⟨-, ⟨e, hturn⟩ | hturn⟩ := t.subscribed_cases me luck sub
  · exact h.keep ht hgoing luck sub
  · rw [hturn]
    exact h.finish (h.cancel ht sub) e
  · rw [hturn]
    exact h.closeClient (h.cancel ht sub) .abandoned

end

end Turn

open Turn (Carries)

section
variable {l : Link ρ} {during after : Turn ρ → Prop}

/-- Whatever a task comes to that goes on. -/
theorem Course.carried {me : Nat} {s : Stage ρ} {o : Outcome ρ} {t : Turn ρ} (hcourse : Course l me s o t)
    (h : Carries me during after) (hstart : during ⟨l, []⟩) (hstay : after ⟨l, []⟩) : after t := by
  have hnoted : ∀ {u : Turn ρ}, u.Noted l → during u := by
    intro u hu
    obtain ⟨-, v, p, e, f, hlink⟩ := id hu
    refine h.alike hstart ⟨hu.1.deeds, ?_, ?_, ?_, ?_⟩ <;> rw [hlink]
  cases hcourse with
  | stay _ => exact hstay
  | onward hu ho => exact h.onward (hnoted hu) ho
  | finish hu _ => exact h.finish (hnoted hu) _
  | record sub r =>
    have hcounted : during (Turn.change ⟨l, []⟩ fun l => { l with received := l.received + 1 }) :=
      h.alike hstart ⟨rfl, rfl, rfl, rfl, rfl⟩
    exact h.onward (h.spawn hcounted r) (.read sub)
  | lose luck hu _ => exact h.tearDown (hnoted hu) luck
  | handedOver n luck => exact h.subscribed hstart luck n
  | closed hu => exact h.afterClose (hnoted hu) _
  | retry o luck => exact h.connect (h.alike hstart (Turn.alike_enter _ (by decide))) luck
  | call c o now luck => exact h.call hstart now luck c

/-- Whatever a move comes to. Another task may have been created before its turn begins. -/
theorem Move.carried (m : Move ρ) (h : ∀ me, Carries me during after) (hstart : during ⟨l, []⟩) (hstay : after ⟨l, []⟩)
    (hasked : ∀ c, during ⟨{ l with tasks := l.tasks.spawn (.called c) }, []⟩)
    (hask : ∀ c, after (Turn.spawn ⟨l, []⟩ (.called c))) : after (m.turn l) := by
  obtain ⟨c, hturn, -⟩ | ⟨c, now, luck, hturn, -⟩ | ⟨hturn, -⟩ | ⟨id, -, hturn, -⟩ | ⟨id, s, o, -, hcourse, -⟩ :=
    m.turn_cases l
  · rw [hturn]
    exact hask c
  · rw [hturn]
    exact (h _).call (hasked c) now luck c
  · rw [hturn]
    exact hstay
  · rw [hturn]
    exact (h id).finish hstart _
  · exact hcourse.carried (h id) hstart hstay

end

/-! ## Order of tasks -/

namespace Turn

theorem ordered_reconnect {t : Turn ρ} (h : t.link.tasks.Ordered) (asker : Option Nat) :
    (t.reconnect asker).link.tasks.Ordered := by
  obtain ⟨-, hlink, -⟩ | ⟨-, hlink, -⟩ := t.reconnect_cases asker
  · rw [hlink]
    exact h
  · rw [hlink, armed]
    split
    · exact h.spawn _
    · exact (h.cancel? _).spawn _

theorem carries_ordered (me : Nat) :
    Carries (ρ := ρ) me (fun t => t.link.tasks.Ordered) (fun t => t.link.tasks.Ordered) where
  alike h halike := halike.tasks ▸ h
  letGo h luck := by
    rw [letGo_link]
    exact (h.cancel? _).cancel? _
  stopRetry h := by
    rw [stopRetry_link]
    exact h.cancel? _
  finish h _ := h.erase me
  close h _ _ := h.advance me _
  reconnect h _ := (ordered_reconnect h _).erase me
  dial h := by rwa [dial_link]
  opening h _ := h.advance me _
  onward h _ := h.advance me _
  spawn h _ := h.spawn _
  cancel h _ := h
  keep h hgoing luck sub := by
    rw [(subscribed_link me sub hgoing luck).2]
    exact ((h.spawn _).spawn _).erase me

/-! ## Options -/

/-- No step changes the options of a link. -/
theorem carries_options (o : Options) (me : Nat) :
    Carries (ρ := ρ) me (fun t => t.link.options = o) (fun t => t.link.options = o) where
  alike h halike := halike.options.trans h
  letGo h luck := by rwa [letGo_link]
  stopRetry h := by rwa [stopRetry_link]
  finish h _ := h
  close h _ _ := h
  reconnect {t} h _ := by
    obtain ⟨-, hlink, -⟩ | ⟨-, hlink, -⟩ := t.reconnect_cases (some me)
    · rwa [finish_link, hlink]
    · rwa [finish_link, hlink, armed_eq]
  dial h := by rwa [dial_link]
  opening h _ := h
  onward h _ := h
  spawn h _ := h
  cancel h _ := h
  keep h hgoing luck sub := by rwa [(subscribed_link me sub hgoing luck).2]

end Turn

theorem Move.turn_options (m : Move ρ) (l : Link ρ) : (m.turn l).link.options = l.options :=
  m.carried (Turn.carries_options l.options) rfl rfl (fun _ => rfl) fun _ => rfl

/-- Tasks stay in order of creation. -/
theorem Move.turn_ordered {l : Link ρ} (h : l.tasks.Ordered) (m : Move ρ) : (m.turn l).link.tasks.Ordered :=
  m.carried Turn.carries_ordered h h (fun _ => h.spawn _) fun _ => h.spawn _

theorem run_ordered (o : Options) (ls : List Listener) (moves : List (Move ρ)) :
    (run o ls moves).link.tasks.Ordered := by
  induction moves using List.reverseRecOn with
  | nil => exact Tasks.ordered_empty
  | append_singleton moves m ih =>
    rw [run_concat]
    exact m.turn_ordered ih

end PoolFeed.Link
