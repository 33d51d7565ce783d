import PoolFeed.Proofs.Batcher.Timed

/-!
# Stopping the batcher

| here | there |
| --- | --- |
| `Drained` | "_run_loop() must return once self._running goes False; stop() waits up to stop_timeout" (`AlwaysOnComponent`), and the last flush of that loop |
| `Covered` | the keys that `TradeBatcher._flush` has listed and not come to |

A stop lets the loop come to its end and returns when it has. `drained_iff_covered` says when every record that came
before the stop has left the buffers by then, whatever happens meanwhile: if the loop rests, or flushes and is still to
come to every key that has records. A record that comes for a key which the flush under way has passed stays in its
buffer, since a loop that finds the batcher stopped after a flush does not begin another (`not_drained_flushingOnly`).

The stop never loses its patience with the loop (`Draining.patient`): the flush that drains the buffers has begun an
interval after the stop at the latest, and what is left of the patience after an interval is what a flush may take.
-/

namespace PoolFeed.Batcher

variable {ρ : Type} {limit : Option Int} {h h' late es : History ρ} {key : String}

open History

/-! ## What is left of a history -/

/-- The buffer of a key holds what it would hold if it had been empty before the late part of a history. -/
def Clean (limit : Option Int) (h late : History ρ) (key : String) : Prop :=
  cut limit (since key h) = cut limit (since key late)

/-- What is cut from a list with one more is made of what was cut from the list. -/
theorem cut_concat_congr {xs ys : List ρ} (hcut : cut limit xs = cut limit ys) (r : ρ) :
    cut limit (xs ++ [r]) = cut limit (ys ++ [r]) := by
  have hxs := Batches.cut_concat { limit := limit } xs r
  have hys := Batches.cut_concat { limit := limit } ys r
  rw [← hxs, ← hys]
  simp only [hcut]

theorem Clean.append (hc : Clean limit h late key) (es : History ρ) : Clean limit (h ++ es) (late ++ es) key := by
  induction es using List.reverseRecOn with
  | nil => simpa using hc
  | append_singleton es e ih =>
    rw [Clean, ← List.append_assoc, ← List.append_assoc]
    cases e with
    | came k r =>
      rw [since_came, since_came]
      split
      · exact cut_concat_congr ih r
      · exact ih
    | begun task =>
      rw [since_begun, since_begun]
      exact ih
    | taken task b =>
      rw [since_taken, since_taken]
      split
      · rfl
      · exact ih

theorem since_suffix (key : String) (h late : History ρ) : since key late <:+ since key (h ++ late) := by
  induction late using List.reverseRecOn with
  | nil => exact List.nil_suffix
  | append_singleton late e ih =>
    rw [← List.append_assoc]
    cases e with
    | came k r =>
      rw [since_came, since_came]
      split
      · obtain ⟨before, hbefore⟩ := ih
        exact ⟨before, by rw [← List.append_assoc, hbefore]⟩
      · exact ih
    | begun task =>
      rw [since_begun, since_begun]
      exact ih
    | taken task b =>
      rw [since_taken, since_taken]
      split
      · exact List.suffix_rfl
      · exact ih

/-- An empty buffer is clean. -/
theorem Clean.of_empty (hempty : cut limit (since key (h ++ late)) = []) : Clean limit (h ++ late) late key := by
  have hlen := (since_suffix key h late).length_le
  rw [Clean, hempty]
  cases limit with
  | none =>
    rw [cut] at hempty ⊢
    rw [hempty, List.length_nil] at hlen
    exact (List.eq_nil_of_length_eq_zero (Nat.le_zero.1 hlen)).symm
  | some m =>
    simp only [cut, List.drop_eq_nil_iff] at hempty ⊢
    refine (List.drop_eq_nil_iff.2 ?_).symm
    omega

/-- So is the buffer of a key whose batch has been taken. -/
theorem Clean.of_taken {task : Nat} {b : Batch ρ} (h late : History ρ) (hmem : .taken task b ∈ es) (hkey : b.key = key) :
    Clean limit (h ++ es) (late ++ es) key := by
  obtain ⟨es, more, rfl⟩ := List.append_of_mem hmem
  have hnow : Clean limit (h ++ (es ++ [.taken task b])) (late ++ (es ++ [.taken task b])) key := by
    rw [Clean, ← List.append_assoc, ← List.append_assoc, since_taken, since_taken, if_pos hkey, if_pos hkey]
  have hsplit : ∀ l : History ρ,
      l ++ (es ++ .taken task b :: more) = l ++ (es ++ [.taken task b]) ++ more := fun l => by simp
  rw [hsplit, hsplit]
  exact hnow.append more

/-- Nothing has come for a key if nothing has come at all. -/
theorem since_of_not_came (hes : ∀ e ∈ es, ∀ k r, e ≠ .came k r) : since key es = [] := by
  induction es using List.reverseRecOn with
  | nil => rfl
  | append_singleton es e ih =>
    have hold := ih fun e he => hes e (List.mem_append_left _ he)
    cases e with
    | came k r => exact absurd rfl (hes _ (List.mem_append_right _ (List.mem_singleton_self _)) k r)
    | begun task => rwa [since_begun]
    | taken task b =>
      rw [since_taken, hold]
      exact ite_self _

/-! ## A stop under way -/

/-- The batcher runs its loop, which stands at a stage, and no stop is under way. -/
structure Steady (b : Batcher ρ) (loop : Nat) (s : Stage) : Prop where
  running : b.running = true
  present : b.loop = some loop
  stands : b.tasks.stage? loop = some s
  alone : ∀ t ∈ b.tasks.live, t.stage.stops = false

/-- When the flush of a loop began or is due, if another task of the loop began at a time. -/
def Stage.flushTime (began : Nat) : Stage → Nat
  | .resting deadline => deadline
  | .called _ | .begun | .emitting _ _ _ | .stopping _ | .expiring _ | .dropping _ => began

/-- A stop waits for a loop, or both are gone. What the loop does was begun an interval after the stop at the latest. -/
structure Draining (limit : Option Int) (loop stop asked : Nat) (w : Timed ρ) : Prop where
  punctual : Punctual limit w
  halted : w.batcher.running = false
  lt_stop : loop < stop
  stop_lt : stop < w.batcher.tasks.next
  began : w.began stop = asked
  waits : w.batcher.tasks.stage? stop = some (.stopping loop) ∨
    w.batcher.tasks.find? stop = none ∧ w.batcher.tasks.find? loop = none
  only : ∀ id s, w.batcher.tasks.stage? id = some s → s.stops = true → id = stop
  drains : w.batcher.tasks.find? loop = none ∨ ∃ s, w.batcher.tasks.stage? loop = some s ∧ s.stops = false ∧
    s.flushTime (w.began loop) ≤ asked + w.batcher.interval

namespace Draining

variable {loop stop asked : Nat} {w : Timed ρ} {b : Batcher ρ} {m : Move ρ} {id : Nat} {s : Stage} {o : Outcome}

/-- A move comes before the flush of the loop could have tried anybody's patience. -/
theorem early (h : Draining limit loop stop asked w) (hm : w.allows m = true) (hlive : w.batcher.tasks.isLive loop = true)
    (hother : m.answer? w.batcher loop = none) : m.time w.now < asked + w.batcher.patience := by
  have hpatience := w.batcher.interval_add_slack
  have hslack := w.batcher.slack_pos
  rcases h.drains with hgone | ⟨s, hst, hstops, htime⟩
  · rw [Tasks.isLive, hgone] at hlive
    cases hlive
  · have hin := Timed.inTime_of_none hother ▸ Timed.inTime_of_allows hm hst
    cases s with
    | called c => exact (h.punctual.settled loop _ hst).elim
    | begun | resting | emitting =>
      have hspares := of_decide_eq_true hin
      simp only [Stage.flushTime] at htime
      omega
    | stopping | expiring | dropping => cases hstops

/-- No stop loses its patience. -/
theorem patient (h : Draining limit loop stop asked w) (hm : w.allows m = true)
    (hgoes : m.goesOn? w.batcher = some (id, s, o)) : s.losesPatience o = false := by
  refine Bool.eq_false_iff.2 fun hlost => ?_
  have hstops : s.stops = true := by
    cases s <;> first | rfl | cases hlost
  have hst : w.batcher.tasks.stage? id = some s := by
    rcases Move.stage?_of_goesOn? hgoes with hst | ⟨-, c, rfl⟩
    · exact hst
    · cases hstops
  obtain rfl := h.only id s hst hstops
  rcases h.waits with hwaits | ⟨hgone, -⟩
  · rw [hwaits] at hst
    cases hst
    have hin := Timed.inTime_of_goesOn? hgoes ▸ Timed.inTime_of_allows hm hwaits
    cases o with
    | expired =>
      obtain ⟨hlive, hle⟩ := Bool.and_eq_true_iff.1 hin
      have hother : m.answer? w.batcher loop = none := by
        refine Option.eq_none_iff_forall_ne_some.2 fun o' ho => ?_
        obtain ⟨s', hgoes'⟩ := Move.answer?_eq_some ho
        rw [hgoes] at hgoes'
        cases hgoes'
        exact Nat.lt_irrefl _ h.lt_stop
      have hlt := h.early hm hlive hother
      have hle := of_decide_eq_true hle
      rw [h.began] at hle
      omega
    | done => cases hlost
    | failed reason => cases hlost
    | exited e => cases hlost
  · rw [Tasks.stage?, hgone] at hst
    cases hst

theorem began_step (h : Draining limit loop stop asked w) {m : Move ρ} :
    (w.step m).began stop = asked := by
  show (if m.commences? w.batcher = some stop then m.time w.now else w.began stop) = asked
  split
  · rename_i hcommences
    rcases Move.commences?_eq_some hcommences with hle | ⟨s, o, -, hst, hflushes⟩
    · exact absurd h.stop_lt (Nat.not_lt.2 hle)
    · rcases h.waits with hwaits | ⟨hgone, -⟩
      · rw [hwaits] at hst
        cases hst
        cases hflushes
      · rw [Tasks.stage?, hgone] at hst
        cases hst
  · exact h.began

theorem stage?_of_goesOn? (h : Draining limit loop stop asked w) (hid : id ≤ stop)
    (hgoes : m.goesOn? w.batcher = some (id, s, o)) : w.batcher.tasks.stage? id = some s := by
  rcases Move.stage?_of_goesOn? hgoes with hst | ⟨rfl, -⟩
  · exact hst
  · exact absurd h.stop_lt (Nat.not_lt.2 hid)

/-- A task that was there before the stop, or is the stop, stays where it is or goes on from there. -/
theorem stays_or_goes (h : Draining limit loop stop asked w) (hm : w.allows m = true) (heffect : m.Effect w.batcher b)
    (hid : id ≤ stop) (hst : w.batcher.tasks.stage? id = some s) : b.tasks.stage? id = some s ∨
      ∃ now o, m.goesOn? w.batcher = some (id, s, o) ∧ Course w.batcher id now s o b := by
  by_cases hgo : ∃ s o, m.goesOn? w.batcher = some (id, s, o)
  · obtain ⟨s', o, hgoes⟩ := hgo
    cases hst.symm.trans (h.stage?_of_goesOn? hid hgoes)
    cases heffect with
    | nothing hnone _ => cases hnone.symm.trans hgoes
    | @resumes task turn now s' o' _ hgoes' hc =>
      cases hgoes'.symm.trans hgoes
      exact .inr ⟨now, o, hgoes, hc⟩
    | asks hc =>
      cases hgoes
      exact absurd h.stop_lt (Nat.not_lt.2 hid)
  · have hpatient : ∀ task s o, m.goesOn? w.batcher = some (task, s, o) → s.losesPatience o = false :=
      fun _ _ _ => h.patient hm
    exact .inl ((heffect.stage? h.punctual.sound.ordered hpatient fun s o hgoes => hgo ⟨s, o, hgoes⟩).trans hst)

/-- A task that is gone does not come back. -/
theorem gone_step (h : Draining limit loop stop asked w) (hm : w.allows m = true) (heffect : m.Effect w.batcher b)
    (hid : id ≤ stop) (hgone : w.batcher.tasks.find? id = none) : b.tasks.find? id = none := by
  have hgo : ∀ s o, m.goesOn? w.batcher ≠ some (id, s, o) := fun s o hgoes => by
    have hst := h.stage?_of_goesOn? hid hgoes
    rw [Tasks.stage?, hgone] at hst
    cases hst
  rcases heffect.find? h.punctual.sound.ordered (fun _ _ _ => h.patient hm) hgo with heq | ⟨-, hgone'⟩
  · exact heq.trans hgone
  · exact hgone'

/-- The stop goes on waiting, or it ends because the loop has ended. -/
theorem waits_step (h : Draining limit loop stop asked w) (hm : w.allows m = true)
    (heffect : m.Effect w.batcher b) :
    b.tasks.stage? stop = some (.stopping loop) ∨ b.tasks.find? stop = none ∧ b.tasks.find? loop = none := by
  rcases h.waits with hwaits | ⟨hstop, hloop⟩
  · rcases h.stays_or_goes hm heffect (Nat.le_refl _) hwaits with hstays | ⟨now, o, hgoes, hc⟩
    · exact .inl hstays
    · rcases hc.moved with ⟨-, htasks⟩ | ⟨hexit, htasks⟩ | ⟨hf, -⟩ | ⟨_, hlost, -, -⟩
      · exact .inl (htasks ▸ hwaits)
      · obtain ⟨e, rfl⟩ := hexit loop rfl
        have hin := Timed.inTime_of_goesOn? hgoes ▸ Timed.inTime_of_allows hm hwaits
        have hgone : w.batcher.tasks.find? loop = none := by
          simpa [Timed.suits, Tasks.isLive] using hin
        rw [htasks, Tasks.find?_erase, Tasks.find?_erase, if_pos rfl, if_neg (Nat.ne_of_lt h.lt_stop)]
        exact .inr ⟨rfl, hgone⟩
      · rw [h.halted] at hf
        cases hf with
        | emits key rest hf => cases hf
      · rw [h.patient hm hgoes] at hlost
        cases hlost
  · exact .inr ⟨h.gone_step hm heffect (Nat.le_refl _) hstop,
      h.gone_step hm heffect (Nat.le_of_lt h.lt_stop) hloop⟩

/-- What the loop does after a move it has begun by then. -/
theorem began_loop_step (h : Draining limit loop stop asked w) (hm : w.allows m = true) {latest : Nat}
    (hst : w.batcher.tasks.stage? loop = some s) (htime : s.flushTime (w.began loop) ≤ latest) :
    (w.step m).began loop ≤ latest := by
  have hin := Timed.inTime_of_allows hm hst
  cases s with
  | called c => exact (h.punctual.settled loop _ hst).elim
  | resting deadline =>
    calc (w.step m).began loop ≤ m.time w.now := (h.punctual.step hm).began loop
      _ ≤ deadline := by
        rw [Timed.inTime] at hin
        split at hin
        · exact of_decide_eq_true hin
        · exact Nat.le_of_eq (beq_iff_eq.1 hin)
      _ ≤ latest := htime
  | begun | emitting | stopping | expiring | dropping =>
    refine Nat.le_trans (Nat.le_of_eq (if_neg fun hcommences => ?_)) htime
    rcases Move.commences?_eq_some hcommences with hle | ⟨s', o', -, hst', hflushes⟩
    · exact absurd (Nat.lt_trans h.lt_stop h.stop_lt) (Nat.not_lt.2 hle)
    · cases hst.symm.trans hst'
      cases hflushes

/-- The loop goes on with its flush, or begins the one that was due, or ends. -/
theorem drains_step (h : Draining limit loop stop asked w) (hm : w.allows m = true) (heffect : m.Effect w.batcher b) :
    b.tasks.find? loop = none ∨
    ∃ s, b.tasks.stage? loop = some s ∧ s.stops = false ∧
      s.flushTime ((w.step m).began loop) ≤ asked + w.batcher.interval := by
  rcases h.drains with hgone | ⟨s, hst, hstops, htime⟩
  · exact .inl (h.gone_step hm heffect (Nat.le_of_lt h.lt_stop) hgone)
  · have hbegan := h.began_loop_step hm hst htime
    have hsame : b.tasks.stage? loop = some s → ∃ s, b.tasks.stage? loop = some s ∧ s.stops = false ∧
        s.flushTime ((w.step m).began loop) ≤ asked + w.batcher.interval := by
      refine fun hst => ⟨s, hst, hstops, ?_⟩
      cases s with
      | resting deadline => exact htime
      | called | begun | emitting | stopping | expiring | dropping => exact hbegan
    rcases h.stays_or_goes hm heffect (Nat.le_of_lt h.lt_stop) hst with hstays | ⟨now, o, hgoes, hc⟩
    · exact .inr (hsame hstays)
    · rcases hc.moved with ⟨-, htasks⟩ | ⟨-, htasks⟩ | ⟨hf, htasks⟩ | ⟨_, hlost, -, -⟩
      · exact .inr (hsame (htasks ▸ hst))
      · rw [htasks, Tasks.find?_erase, if_pos rfl]
        exact .inl rfl
      · rw [h.halted] at hf
        cases hf with
        | emits key rest hf => exact .inr ⟨.emitting key rest _, htasks ▸ Tasks.stage?_advance_self hst _, rfl, hbegan⟩
      · rw [h.patient hm hgoes] at hlost
        cases hlost

theorem step (h : Draining limit loop stop asked w) (hm : w.allows m = true) (hstart : m.isStart = false) :
    Draining limit loop stop asked (w.step m) := by
  have heffect := Move.effect w.batcher hstart
  refine ⟨h.punctual.step hm, heffect.halted h.halted, h.lt_stop, Nat.lt_of_lt_of_le h.stop_lt heffect.next_le,
    h.began_step, h.waits_step hm heffect, fun id s hs hstops => ?_, ?_⟩
  · rcases heffect.came_to h.punctual.sound.ordered h.halted (fun _ _ _ => h.patient hm) hs with
      hold | ⟨key, rest, f, rfl, -⟩
    · exact h.only id s hold hstops
    · cases hstops
  · rw [show (w.step m).batcher.interval = w.batcher.interval from heffect.interval]
    exact h.drains_step hm heffect

/-! ### Keys -/

/-- Whatever is in the buffer of a key came late, or the loop is still to come to the key. -/
def Reached (limit : Option Int) (loop : Nat) (w : Timed ρ) (late : History ρ) : Prop :=
  ∀ key, Clean limit w.history late key ∨ ∃ s, w.batcher.tasks.stage? loop = some s ∧ s.reaches key = true

/-- When the loop goes on, each key that it was to come to is empty, taken or still ahead. -/
theorem reached_loop {before : History ρ} (h : Draining limit loop stop asked w) (hhistory : w.history = before ++ late)
    (hst : w.batcher.tasks.stage? loop = some s) (hgoes : m.goesOn? w.batcher = some (loop, s, o))
    (hreaches : s.reaches key = true) :
    Clean limit (w.history ++ m.entries w.batcher) (late ++ m.entries w.batcher) key ∨
    ∃ s, (m.turn w.batcher).batcher.tasks.stage? loop = some s ∧ s.reaches key = true := by
  have hturn : Turn.Reaches ⟨w.batcher, []⟩ loop key (m.turn w.batcher) := by
    cases m with
    | enqueue key record => cases hgoes
    | start now => cases hgoes
    | ask c now =>
      cases hgoes
      cases hreaches
    | resume task turn now o' =>
      rcases Move.resume_cases w.batcher task turn now o' with ⟨hnone, -⟩ | ⟨s', -, hgoes', hturn⟩
      · cases hnone.symm.trans hgoes
      · cases hgoes'.symm.trans hgoes
        rw [Move.turn, hturn]
        exact Turn.goOn_reaches ⟨w.batcher, []⟩ now o hst hreaches
  rcases hturn with hempty | ⟨batch, hbatch, hkey⟩ | hahead
  · have hcut := (h.punctual.sound.pending key).symm.trans hempty
    rw [hhistory] at hcut ⊢
    exact .inl ((Clean.of_empty hcut).append _)
  · have hmem : .taken (m.task w.batcher) batch ∈ m.entries w.batcher :=
      List.mem_append_right _ (List.mem_map_of_mem hbatch)
    exact .inl (Clean.of_taken w.history late hmem hkey)
  · exact .inr hahead

theorem reached_step {before : History ρ} (h : Draining limit loop stop asked w) (hm : w.allows m = true)
    (hstart : m.isStart = false) (hhistory : w.history = before ++ late) (hr : Reached limit loop w late) :
    Reached limit loop (w.step m) (late ++ m.entries w.batcher) := by
  intro key
  rcases hr key with hclean | ⟨s, hst, hreaches⟩
  · exact .inl (hclean.append _)
  · rcases h.stays_or_goes hm (Move.effect w.batcher hstart) (Nat.le_of_lt h.lt_stop) hst with
      hstays | ⟨now, o, hgoes, -⟩
    · exact .inr ⟨s, hstays, hreaches⟩
    · exact h.reached_loop hhistory hst hgoes hreaches

/-- Along moves that are no starts a stop keeps on draining. -/
theorem after {before : History ρ} {more : List (Move ρ)} (h : Draining limit loop stop asked w)
    (hm : w.allowsAll more = true) (hstart : ∀ m ∈ more, m.isStart = false) (hhistory : w.history = before ++ late) :
    ∃ late', Draining limit loop stop asked (w.after more) ∧ (w.after more).history = before ++ late' ∧
      (Reached limit loop w late → Reached limit loop (w.after more) late') := by
  induction more generalizing w late with
  | nil => exact ⟨late, h, hhistory, id⟩
  | cons m more ih =>
    obtain ⟨hfirst, hrest⟩ := Bool.and_eq_true_iff.1 hm
    obtain ⟨hstart, hstarts⟩ := List.forall_mem_cons.1 hstart
    have hstep : (w.step m).history = before ++ (late ++ m.entries w.batcher) := by
      rw [← List.append_assoc, ← hhistory]
      rfl
    obtain ⟨late', hdrains, hafter, hreached⟩ := ih (h.step hfirst hstart) hrest hstarts hstep
    exact ⟨late', hdrains, hafter, fun hr => hreached (h.reached_step hfirst hstart hhistory hr)⟩

end Draining

/-! ## Where a stop begins -/

namespace Steady

variable {b : Batcher ρ} {loop : Nat} {s : Stage} {w : Timed ρ} {now : Nat}

/-- A stop finds the batcher running and waits for its loop. -/
theorem ask (h : Steady b loop s) (hord : b.tasks.Ordered) (now : Nat) : b.ask .stop now =
    ⟨{ b with running := false, tasks := (b.tasks.spawn (.called .stop)).advance b.tasks.next (.stopping loop) },
      [.await b.tasks.next ((b.tasks.spawn (.called .stop)).nextTurn b.tasks.next) (.exited (some b.patience))]⟩ := by
  have hlive : (b.tasks.spawn (.called .stop)).isLive loop = true := by
    have hst := Tasks.stage?_spawn_of_some hord h.stands (.called .stop)
    obtain ⟨t, ht, -⟩ := Option.bind_eq_some_iff.1 hst
    rw [Tasks.isLive, ht]
    rfl
  simp only [Batcher.ask, Turn.goOn, Turn.stop, Turn.change, h.running, h.present, if_true, hlive, Turn.park, Turn.act,
    List.nil_append]
  rfl

/-- The record of a run tells nothing of a stop that begins. -/
theorem history (h : Steady w.batcher loop s) (hord : w.batcher.tasks.Ordered) (now : Nat) :
    (w.step (.ask .stop now)).history = w.history := by
  have hentries : (Move.ask .stop now : Move ρ).entries w.batcher = [] := by
    simp only [Move.entries, Move.turn, h.ask hord now]
    rfl
  exact (congrArg (w.history ++ ·) hentries).trans (List.append_nil _)

theorem not_stops (h : Steady b loop s) {id : Nat} {u : Stage} (hu : b.tasks.stage? id = some u) : u.stops = false := by
  refine Bool.eq_false_iff.2 fun hstops => ?_
  obtain ⟨t, ht, -, rfl⟩ := Tasks.mem_among_of_stage? hu hstops
  rw [h.alone t (Tasks.mem_among.1 ht).1] at hstops
  cases hstops

/-- Where the tasks stand when the stop has begun to wait. -/
theorem stage?_ask (h : Steady b loop s) (hord : b.tasks.Ordered) (now id : Nat) :
    (b.ask .stop now).batcher.tasks.stage? id = if id = b.tasks.next then some (.stopping loop) else b.tasks.stage? id := by
  rw [h.ask hord now]
  dsimp only
  rw [Tasks.stage?_advance, Tasks.stage?_spawn hord]
  split <;> rfl

/-- With a stop the loop begins to drain. -/
theorem draining (h : Steady w.batcher loop s) (hp : Punctual limit w) (hm : w.allows (.ask .stop now) = true) :
    Draining limit loop w.batcher.tasks.next now (w.step (.ask .stop now)) := by
  have hord := hp.sound.ordered
  have hlt := Tasks.lt_next_of_stage? hord h.stands
  have htime : w.now ≤ now := Timed.time_of_allows hm
  have hask := h.ask hord now
  have hbegan : (w.step (.ask .stop now)).began loop = w.began loop := if_neg fun he => by
    cases he
    exact Nat.lt_irrefl _ hlt
  refine ⟨hp.step hm, ?_, hlt, ?_, if_pos rfl, .inl ?_, fun id u hu hstops => ?_, .inr ⟨s, ?_, h.not_stops h.stands, ?_⟩⟩
  · exact congrArg (·.batcher.running) hask
  · rw [show (w.step (.ask .stop now)).batcher = (w.batcher.ask .stop now).batcher from rfl, hask]
    exact Nat.lt_succ_self _
  · exact (h.stage?_ask hord now _).trans (if_pos rfl)
  · have hstage := (h.stage?_ask hord now id).symm.trans hu
    split at hstage
    · assumption
    · rw [h.not_stops hstage] at hstops
      cases hstops
  · exact (h.stage?_ask hord now _).trans ((if_neg (Nat.ne_of_lt hlt)).trans h.stands)
  · have hinterval : (w.step (.ask .stop now)).batcher.interval = w.batcher.interval :=
      congrArg (·.batcher.interval) hask
    rw [hbegan, hinterval]
    have hbefore := hp.began loop
    cases s with
    | resting deadline =>
      have hsettled : deadline ≤ w.now + w.batcher.interval := hp.settled loop _ h.stands
      show deadline ≤ now + w.batcher.interval
      omega
    | called | begun | emitting | stopping | expiring | dropping =>
      show w.began loop ≤ now + w.batcher.interval
      omega

end Steady

/-! ## Letting the loop end -/

/-- No task has to go on before time passes. -/
def Timed.Free (w : Timed ρ) : Prop := ∀ id s, w.batcher.tasks.stage? id = some s → w.spares id w.now s = true

namespace Draining

variable {loop stop asked : Nat} {w : Timed ρ} {m : Move ρ} {id turn : Nat} {s : Stage} {o : Outcome}

/-- A task whose waiting is over may be resumed at once. -/
theorem allows_resume (h : Draining limit loop stop asked w) (hfree : w.Free) (hst : w.batcher.tasks.stage? id = some s)
    (hgoes : Move.goesOn? w.batcher (.resume id turn w.now o) = some (id, s, o)) (hsuits : w.suits id w.now o s = true) :
    w.allows (.resume id turn w.now o) = true := by
  refine Timed.allows_of h.punctual.sound.ordered (Nat.le_refl _) fun i u hu => ?_
  rw [Timed.inTime]
  split
  · exact hfree i u hu
  · rename_i o' ho
    obtain ⟨u', hgoes'⟩ := Move.answer?_eq_some ho
    cases hgoes.symm.trans hgoes'
    cases hst.symm.trans hu
    exact hsuits

/-- A task that goes on with what it has begun leaves no other task overdue. -/
theorem free_step (h : Draining limit loop stop asked w) (hfree : w.Free)
    (hgoes : Move.goesOn? w.batcher (.resume id turn w.now o) = some (id, s, o)) (hflush : s.flushes = false)
    (hm : w.allows (.resume id turn w.now o) = true) : (w.step (.resume id turn w.now o)).Free := by
  have heffect := Move.effect w.batcher (m := .resume id turn w.now o) rfl
  have hslack : (w.step (.resume id turn w.now o)).batcher.slack = w.batcher.slack := by
    have hinterval : (w.step (.resume id turn w.now o)).batcher.interval = w.batcher.interval := heffect.interval
    rw [Batcher.slack, Batcher.slack, patience, patience, hinterval]
  have hbegan : (w.step (.resume id turn w.now o)).began = w.began := by
    funext i
    refine if_neg fun hcommences => ?_
    rw [Move.commences?, Move.begins?, hgoes, Option.bind_some] at hcommences
    simp [hflush] at hcommences
  intro i u hu
  have hspares : ∀ v, (w.step (.resume id turn w.now o)).spares i w.now v = w.spares i w.now v := fun v => by
    cases v <;> simp only [Timed.spares, hbegan, hslack]
  refine (hspares u).trans ?_
  rcases heffect.came_to h.punctual.sound.ordered h.halted (fun _ _ _ => h.patient hm) hu with
    hold | ⟨key, rest, f, rfl, v, o', hgoes', hf⟩
  · exact hfree i u hold
  · cases hgoes'.symm.trans hgoes
    cases s with
    | emitting key' rest' f' =>
      rcases Move.stage?_of_goesOn? hgoes with hst | ⟨-, c, hc⟩
      · have hspares := hfree id _ hst
        exact hspares
      · cases hc
    | called c =>
      cases c with
      | flush => cases hflush
      | stop => cases hf
    | resting deadline => cases hflush
    | begun | stopping | expiring | dropping => cases hf

/-- What a loop does when it goes on, if it was not resting: it comes closer to its end. -/
theorem loop_advances (h : Draining limit loop stop asked w) (hst : w.batcher.tasks.stage? loop = some s)
    (hflush : s.flushes = false) (now : Nat) :
    Turn.Advances ⟨w.batcher, []⟩ loop s.ahead (Turn.goOn ⟨w.batcher, []⟩ loop now s .done) := by
  have hstops : s.stops = false := by
    rcases h.drains with hgone | ⟨s', hst', hstops, -⟩
    · rw [Tasks.stage?, hgone] at hst
      cases hst
    · cases hst.symm.trans hst'
      exact hstops
  cases s with
  | begun =>
    have hend : ∃ e, Turn.goOn ⟨w.batcher, []⟩ loop now .begun .done = (Turn.log ⟨w.batcher, []⟩ e).finish loop :=
      ⟨_, if_neg (Bool.eq_false_iff.1 h.halted)⟩
    obtain ⟨e, hend⟩ := hend
    rw [hend]
    refine ⟨.inl ?_, fun _ _ => rfl⟩
    show (w.batcher.tasks.erase loop).find? loop = none
    rw [Tasks.find?_erase, if_pos rfl]
  | emitting key rest f =>
    have hflush := Turn.flush_advances (Turn.change ⟨w.batcher, []⟩ fun b => { b with batches := b.batches.noteEmitted })
      now rest f hst h.halted
    exact ⟨hflush.task, hflush.pending⟩
  | called c => exact (h.punctual.settled loop _ hst).elim
  | resting deadline => cases hflush
  | stopping | expiring | dropping => cases hstops

theorem entries_resume (b : Batcher ρ) (id turn now : Nat) (o : Outcome) :
    ∀ e ∈ (Move.resume id turn now o : Move ρ).entries b, ∀ k r, e ≠ .came k r := by
  rintro e he k r rfl
  rcases List.mem_append.1 he with he | he
  · rcases List.mem_append.1 he with he | he
    · cases he
    · obtain ⟨_, -, he⟩ := List.mem_map.1 he
      cases he
  · obtain ⟨_, -, he⟩ := List.mem_map.1 he
    cases he

/-- There is a way for a stop to return in which nothing comes and no key is touched but some. -/
def Returns (w : Timed ρ) (stop : Nat) (keys : List String) : Prop :=
  ∃ more late, (∀ m ∈ more, m.isStart = false) ∧ w.allowsAll more = true ∧
    (w.after more).batcher.tasks.isLive stop = false ∧ (w.after more).history = w.history ++ late ∧
    (∀ e ∈ late, ∀ k r, e ≠ .came k r) ∧
    ∀ key ∉ keys, (w.after more).batcher.batches.pending key = w.batcher.batches.pending key

theorem Returns.of_gone (hgone : w.batcher.tasks.find? stop = none) : Returns w stop [] := by
  refine ⟨[], [], nofun, rfl, ?_, (List.append_nil _).symm, nofun, fun _ _ => rfl⟩
  rw [Timed.after, List.foldl_nil, Tasks.isLive, hgone]
  rfl

theorem Returns.resume {keys keys' : List String} (hm : w.allows (.resume id turn w.now o) = true)
    (hr : Returns (w.step (.resume id turn w.now o)) stop keys') (hkeys : ∀ k ∈ keys', k ∈ keys)
    (hpending : ∀ key ∉ keys, (w.batcher.resume id turn w.now o).batcher.batches.pending key =
      w.batcher.batches.pending key) : Returns w stop keys := by
  obtain ⟨more, late, hstarts, hmore, hgone, hhistory, hquiet, hkept⟩ := hr
  refine ⟨.resume id turn w.now o :: more, (Move.resume id turn w.now o).entries w.batcher ++ late,
    List.forall_mem_cons.2 ⟨rfl, hstarts⟩, Bool.and_eq_true_iff.2 ⟨hm, hmore⟩, hgone, ?_, fun e he => ?_, fun key hkey => ?_⟩
  · rw [← List.append_assoc]
    exact hhistory
  · rcases List.mem_append.1 he with he | he
    · exact entries_resume w.batcher id turn w.now o e he
    · exact hquiet e he
  · exact (hkept key fun hk => hkey (hkeys key hk)).trans (hpending key hkey)

/-- When its loop is gone, a stop returns. -/
theorem returns_of_gone (h : Draining limit loop stop asked w) (hfree : w.Free)
    (hgone : w.batcher.tasks.find? loop = none) : Returns w stop [] := by
  rcases h.waits with hwaits | ⟨hstop, -⟩
  · obtain ⟨turn, hturn⟩ := Move.resume_goes hwaits
    obtain ⟨hgoes, hresume⟩ := hturn w.now (.exited .finished)
    have hsuits : w.suits stop w.now (.exited .finished) (.stopping loop) = true := by
      rw [Timed.suits, Tasks.isLive, hgone]
      rfl
    refine Returns.resume (h.allows_resume hfree hwaits hgoes hsuits) (.of_gone ?_) (fun _ hk => hk) fun key _ => ?_
    · show (w.batcher.resume stop turn w.now (.exited .finished)).batcher.tasks.find? stop = none
      rw [hresume]
      rcases (Turn.loopGone_settles (P := fun _ => False) ⟨w.batcher, []⟩ stop).tasks with htasks | ⟨_, hfalse, -⟩
      · show (Turn.loopGone ⟨w.batcher, []⟩ stop).batcher.tasks.find? stop = none
        rw [htasks, Tasks.find?_erase, if_pos rfl]
      · exact hfalse.elim
    · rw [hresume]
      exact congrArg (·.pending key) (Turn.loopGone_idle ⟨w.batcher, []⟩ stop).batches
  · exact .of_gone hstop

/-- A loop that does not rest is let to its end, and then the stop returns. -/
theorem returns (h : Draining limit loop stop asked w) (hfree : w.Free) (hst : w.batcher.tasks.stage? loop = some s)
    (hflush : s.flushes = false) : Returns w stop s.ahead := by
  -- Each turn of the loop leaves it with fewer keys.
  induction hn : s.ahead.length using Nat.strongRecOn generalizing w s with
  | ind n ih =>
    obtain ⟨turn, hturn⟩ := Move.resume_goes hst
    obtain ⟨hgoes, hresume⟩ := hturn w.now .done
    have hsuits : w.suits loop w.now .done s = true := by
      have hspares := hfree loop s hst
      cases s with
      | emitting key rest f => exact decide_eq_true (Nat.le_of_lt (of_decide_eq_true hspares))
      | resting deadline => cases hflush
      | called | begun | stopping | expiring | dropping => exact hspares
    have hm := h.allows_resume hfree hst hgoes hsuits
    have hnext := h.step hm rfl
    have hfree' := h.free_step hfree hgoes hflush hm
    have hadvances := h.loop_advances hst hflush w.now
    rw [← hresume] at hadvances
    rcases hadvances.task with hgone | ⟨key, rest, f, hst', hshorter, hamong⟩
    · exact (hnext.returns_of_gone hfree' hgone).resume hm nofun hadvances.pending
    · exact (ih rest.length (hn ▸ hshorter) hnext hfree' hst' rfl rfl).resume hm hamong hadvances.pending

end Draining

/-! ## What a stop leaves -/

/-- Every key that has records is one that the flush of the loop is to come to. -/
def Covered (b : Batcher ρ) (s : Stage) : Prop :=
  ∀ key ∈ b.batches.buffers.keys, b.batches.pending key ≠ [] → s.reaches key = true

instance [DecidableEq ρ] (b : Batcher ρ) (s : Stage) : Decidable (Covered b s) :=
  inferInstanceAs (Decidable (∀ key ∈ b.batches.buffers.keys, b.batches.pending key ≠ [] → s.reaches key = true))

/-- From one moment of a run to another the buffers have been drained: they hold what they would hold if they had been
empty, so that every record that came before has been taken to be emitted or dropped. -/
def Drained (limit : Option Int) (w w' : Watch ρ) : Prop :=
  ∃ late, w'.history = w.history ++ late ∧
    (∀ key, w'.batcher.batches.pending key = cut limit (since key late)) ∧
    w'.batcher.batches.enqueued =
      emittedRecords w'.history + w'.batcher.batches.dropped + w'.batcher.batches.buffered

variable {w : Timed ρ} {loop : Nat} {s : Stage} {now : Nat}

namespace Steady

theorem free (h : Steady w.batcher loop s) (hord : w.batcher.tasks.Ordered) (hm : w.allows (.ask .stop now) = true) :
    (w.step (.ask .stop now)).Free := by
  intro id u hu
  have hstage := (h.stage?_ask hord now id).symm.trans hu
  split at hstage
  · cases hstage
    rfl
  · rename_i hid
    have hanswer : (Move.ask .stop now : Move ρ).answer? w.batcher id = none := if_neg fun e => hid e.symm
    have hspares := Timed.inTime_of_none hanswer ▸ Timed.inTime_of_allows hm hstage
    have hbegan : (w.step (.ask .stop now)).began id = w.began id := if_neg fun e => hid (Option.some.inj e).symm
    have hslack : (w.step (.ask .stop now)).batcher.slack = w.batcher.slack :=
      congrArg (·.batcher.slack) (h.ask hord now)
    refine Eq.trans ?_ hspares
    cases u <;> simp only [Timed.spares, hbegan, hslack] <;> rfl

/-- If the loop is to come to every key that has records, all that is left to do is done when the stop returns. -/
theorem reached (h : Steady w.batcher loop s) (hp : Punctual limit w) (hc : Covered w.batcher s) (now : Nat) :
    Draining.Reached limit loop (w.step (.ask .stop now)) [] := by
  intro key
  have hstage := h.stage?_ask hp.sound.ordered now loop
  rw [if_neg (Nat.ne_of_lt (Tasks.lt_next_of_stage? hp.sound.ordered h.stands))] at hstage
  by_cases hempty : w.batcher.batches.pending key = []
  · refine .inl ?_
    rw [Clean, h.history hp.sound.ordered, ← hp.sound.pending, hempty]
    exact (cut_nil limit).symm
  · refine .inr ⟨s, hstage.trans h.stands, hc key ?_ hempty⟩
    exact Decidable.byContradiction fun hmem => hempty (Batches.pending_of_not_mem hmem)

/-- A key that the loop is not to come to keeps its records, if the stop is let to return and nothing else happens. -/
theorem returns (h : Steady w.batcher loop s) (hp : Punctual limit w) (hm : w.allows (.ask .stop now) = true)
    (hkey : s.reaches key = false) :
    ∃ keys, key ∉ keys ∧ Draining.Returns (w.step (.ask .stop now)) w.batcher.tasks.next keys := by
  have hord := hp.sound.ordered
  have hlt := Tasks.lt_next_of_stage? hord h.stands
  have hflush : s.flushes = false := by
    cases s with
    | called c => exact (hp.settled loop _ h.stands).elim
    | resting deadline => cases hkey
    | begun | emitting | stopping | expiring | dropping => rfl
  refine ⟨s.ahead, fun hmem => ?_, (h.draining hp hm).returns (h.free hord hm) ?_ hflush⟩
  · cases s with
    | emitting k rest f =>
      have hcontains : rest.contains key = true := List.contains_iff_mem.2 hmem
      exact Bool.noConfusion (hkey.symm.trans hcontains)
    | called | begun | resting | stopping | expiring | dropping => cases hmem
  · exact (h.stage?_ask hord now loop).trans ((if_neg (Nat.ne_of_lt hlt)).trans h.stands)

end Steady

/-- What a timely run comes to. -/
def Timely (interval : Nat) (limit : Option Int) (w : Timed ρ) : Prop :=
  ∃ moves, (timed interval limit).allowsAll moves = true ∧ (timed interval limit).after moves = w

theorem Timely.punctual {interval : Nat} (h : Timely interval limit w) : Punctual limit w := by
  obtain ⟨moves, hmoves, rfl⟩ := h
  exact (punctual_timed interval limit).after hmoves

/-- **A stop drains the buffers, whatever happens until it returns, exactly if the loop is to come to every key that has
records.** While the loop rests that is always so. -/
theorem drained_iff_covered {interval : Nat} {limit : Option Int} {w : Timed ρ} {loop : Nat} {s : Stage} {now : Nat}
    (hw : Timely interval limit w) (hsteady : Steady w.batcher loop s) (hstop : w.allows (.ask .stop now) = true) :
    (∀ more : List (Move ρ), (∀ m ∈ more, m.isStart = false) → (w.step (.ask .stop now)).allowsAll more = true →
      ((w.step (.ask .stop now)).after more).batcher.tasks.isLive w.batcher.tasks.next = false →
      Drained limit w.toWatch ((w.step (.ask .stop now)).after more).toWatch) ↔
    Covered w.batcher s := by
  have hp := hw.punctual
  have hdraining := hsteady.draining hp hstop
  have hhistory := hsteady.history hp.sound.ordered now
  constructor
  · intro hall key hmem hpending
    by_contra hkey
    -- If the loop has passed the key, letting it end and the stop return leaves the key as it is.
    obtain ⟨keys, hkeys, more, late, hstarts, hmore, hgone, hlate, hquiet, hkept⟩ :=
      hsteady.returns hp hstop (Bool.eq_false_iff.2 hkey)
    obtain ⟨late', hlate', hdrained, -⟩ := hall more hstarts hmore hgone
    rw [hhistory] at hlate
    obtain rfl := List.append_cancel_left (hlate'.symm.trans hlate)
    have hsame : (w.step (.ask .stop now)).batcher.batches.pending key = w.batcher.batches.pending key :=
      congrArg (·.batcher.batches.pending key) (hsteady.ask hp.sound.ordered now)
    have hempty := hdrained key
    rw [hkept key hkeys, hsame, since_of_not_came hquiet, cut_nil] at hempty
    exact hpending hempty
  · intro hcovered more hstarts hmore hgone
    obtain ⟨late, hafter, hlate, hreached⟩ := hdraining.after hmore hstarts (hhistory.trans (List.append_nil _).symm)
    refine ⟨late, hlate, fun key => ?_, hafter.punctual.sound.account⟩
    rw [hafter.punctual.sound.pending]
    -- The stop is gone, and so is the loop: there is no key that it could still come to.
    rcases hreached (hsteady.reached hp hcovered now) key with hclean | ⟨u, hu, -⟩
    · exact hclean
    · rcases hafter.waits with hwaits | ⟨-, hloop⟩
      · obtain ⟨t, ht, -⟩ := Option.bind_eq_some_iff.1 hwaits
        rw [Tasks.isLive, ht] at hgone
        cases hgone
      · rw [Tasks.stage?, hloop] at hu
        cases hu

/-- A loop has woken, emits the batch of a key, and is still to come to another. -/
def flushingFirst : Timed Nat := (timed 200 none).after [.start 0, .resume 0 0 0 .done, .enqueue "P" 1, .enqueue "Q" 2,
  .resume 0 1 200 .done, .enqueue "Q" 3]

/-- Here a stop comes in time for both keys. -/
theorem drained_flushingFirst : Timely 200 none flushingFirst ∧
    Steady flushingFirst.batcher 0 (.emitting "P" ["Q"] (.ofLoop 200)) ∧ flushingFirst.allows (.ask .stop 220) = true ∧
    ∀ more : List (Move Nat), (∀ m ∈ more, m.isStart = false) →
      (flushingFirst.step (.ask .stop 220)).allowsAll more = true →
      ((flushingFirst.step (.ask .stop 220)).after more).batcher.tasks.isLive flushingFirst.batcher.tasks.next = false →
      Drained none flushingFirst.toWatch ((flushingFirst.step (.ask .stop 220)).after more).toWatch := by
  have htimely : Timely 200 none flushingFirst := ⟨_, by decide +kernel, rfl⟩
  have hsteady : Steady flushingFirst.batcher 0 (.emitting "P" ["Q"] (.ofLoop 200)) :=
    ⟨by decide +kernel, by decide +kernel, rfl, by decide +kernel⟩
  have hstop : flushingFirst.allows (.ask .stop 220) = true := by decide +kernel
  exact ⟨htimely, hsteady, hstop, (drained_iff_covered htimely hsteady hstop).2 (by decide +kernel)⟩

/-- A loop has woken and emits the batch of its only key, for which another record comes. -/
def flushingOnly : Timed Nat := (timed 200 none).after [.start 0, .resume 0 0 0 .done, .enqueue "P" 1,
  .resume 0 1 200 .done, .enqueue "P" 2]

/-- The emission ends, and with it the loop, and then the stop. -/
def flushedOnly : Timed Nat := (flushingOnly.step (.ask .stop 220)).after [.resume 0 2 250 .done,
  .resume 1 1 250 (.exited .finished)]

/-- Here the stop returns and the record is still in its buffer, though the flush took less than its time. -/
theorem not_drained_flushingOnly : Timely 200 none flushingOnly ∧
    Steady flushingOnly.batcher 0 (.emitting "P" [] (.ofLoop 200)) ∧ flushingOnly.allows (.ask .stop 220) = true ∧
    (flushingOnly.step (.ask .stop 220)).allowsAll [.resume 0 2 250 .done, .resume 1 1 250 (.exited .finished)] = true ∧
    flushedOnly.batcher.tasks.isLive flushingOnly.batcher.tasks.next = false ∧
    flushedOnly.batcher.batches.pending "P" = [2] ∧ ¬Drained none flushingOnly.toWatch flushedOnly.toWatch := by
  refine ⟨⟨_, by decide +kernel, rfl⟩, ⟨by decide +kernel, by decide +kernel, rfl, by decide +kernel⟩, by decide +kernel,
    by decide +kernel, by decide +kernel, by decide +kernel, ?_⟩
  rintro ⟨late, hlate, hpending, -⟩
  have hlength : flushedOnly.history.length = flushingOnly.history.length := by decide +kernel
  rw [hlate, List.length_append] at hlength
  obtain rfl : late = [] := List.eq_nil_of_length_eq_zero (by omega)
  exact absurd (hpending "P") (by decide +kernel)

end PoolFeed.Batcher
