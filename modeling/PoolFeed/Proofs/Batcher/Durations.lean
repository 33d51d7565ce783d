import PoolFeed.Proofs.Batcher.Ticking

/-!
# Every list of durations

Flushes take as long as their emissions do. From any batcher without a limit and without records a prompt run can be made
in which the flushes take so long as a list says (`exists_ticking`): before each of them one record comes, and the
emission of its batch is answered when the time is over.
-/

namespace PoolFeed.Batcher

variable {ρ : Type}

namespace Turn

variable {t : Turn ρ} {me now deadline : Nat} {s : Stage}

/-- A flush of buffers with one record waits for its emission, and leaves the buffers empty. -/
theorem flushAll_one (hst : t.batcher.tasks.stage? me = some s) {key : String} {record : ρ}
    (hone : ∀ k, t.batcher.batches.pending k = if k = key then [record] else []) (now deadline : Nat) :
    (∃ k rest, (t.flushAll me now (.ofLoop deadline)).batcher.tasks.stage? me =
      some (.emitting k rest (.ofLoop deadline))) ∧
    ∀ k, (t.flushAll me now (.ofLoop deadline)).batcher.batches.pending k = [] := by
  have hkey : t.batcher.batches.pending key = [record] := by rw [hone, if_pos rfl]
  have hmem : key ∈ t.batcher.batches.buffers.keys := by
    by_contra hnot
    cases hkey.symm.trans (Batches.pending_of_not_mem hnot)
  unfold flushAll flush
  cases htake : t.batcher.batches.take? t.batcher.batches.buffers.keys with
  | none => cases hkey.symm.trans (Batches.take?_eq_none htake key hmem)
  | some taken =>
    obtain ⟨batch, rest, batches⟩ := taken
    obtain ⟨-, hrecords, hne, rfl⟩ := Batches.take?_eq_some htake
    have hbatch : batch.key = key := by
      by_contra hnot
      rw [hone, if_neg hnot] at hrecords
      exact hne hrecords
    refine ⟨⟨_, _, Tasks.stage?_advance_self hst _⟩, fun k => ?_⟩
    refine (Batches.put_nil_pending t.batcher.batches batch.key k).trans ?_
    split
    · rfl
    · rename_i hnot
      rw [hone, if_neg fun he => hnot (he.trans hbatch.symm)]

theorem flush_empty (hempty : ∀ k, t.batcher.batches.pending k = []) (keys : List String) :
    t.flush me now keys (.ofLoop deadline) = t.rest me now (max (deadline + t.batcher.interval) now) := by
  have hnone : t.batcher.batches.take? keys = none := by
    cases htake : t.batcher.batches.take? keys with
    | none => rfl
    | some taken =>
      obtain ⟨-, hrecords, hne, -⟩ := Batches.take?_eq_some htake
      exact absurd (hrecords.trans (hempty _)) hne
  simp only [flush, hnone, flushed]

end Turn

namespace Ticking

/-- A loop that rests after flushes of some durations, while some records of one key wait. -/
structure Rests (interval start loop : Nat) (ds : List Nat) (records : List ρ) (w : Ticking ρ) : Prop where
  ticks : Ticks none interval start loop w
  running : w.batcher.running = true
  stage : w.batcher.tasks.stage? loop = some (.resting (due interval start ds))
  pending : ∀ key, w.batcher.batches.pending key = if key = "" then records else []
  durations : w.flushes.durations = ds

/-- A loop that waits for the only emission of the next flush, which has just begun. -/
structure Emits (interval start loop : Nat) (ds : List Nat) (w : Ticking ρ) : Prop where
  ticks : Ticks none interval start loop w
  now : w.now = due interval start ds
  running : w.batcher.running = true
  stage : ∃ key rest, w.batcher.tasks.stage? loop = some (.emitting key rest (.ofLoop (due interval start ds)))
  pending : ∀ key, w.batcher.batches.pending key = []
  durations : w.flushes.durations = ds

variable {interval start loop : Nat} {ds : List Nat} {w : Ticking ρ} {record : ρ}

/-- A loop that begins rests until its first flush is due. -/
theorem Rests.of_begun (hticks : Ticks none interval start loop w) (hrunning : w.batcher.running = true)
    (hst : w.batcher.tasks.stage? loop = some .begun) (hempty : ∀ key, w.batcher.batches.pending key = []) : ∃ turn,
    w.prompt loop (.resume loop turn start .done) = true ∧
      Rests interval start loop [] [] (w.step loop (.resume loop turn start .done)) := by
  obtain ⟨hnow, hnone⟩ := hticks.stands _ hst
  obtain ⟨turn, hresume⟩ := Move.resume_goes hst
  obtain ⟨hgoes, hturn⟩ := hresume start .done
  have hprompt : w.prompt loop (.resume loop turn start .done) = true := by
    simp [prompt, hst, Move.time, hnow]
  have hbatcher : (w.step loop (.resume loop turn start .done)).batcher =
      (Turn.beginLoop ⟨w.batcher, []⟩ loop start).batcher := congrArg Turn.batcher hturn
  have hidle := Turn.beginLoop_idle ⟨w.batcher, []⟩ loop start
  have hstage := Turn.goOn_begun_stage? (t := ⟨w.batcher, []⟩) hst start .done
  rw [if_pos hrunning, show w.batcher.interval = interval from hticks.steady] at hstage
  refine ⟨turn, hprompt, hticks.step hprompt, ?_, ?_, fun k => ?_, ?_⟩
  · rw [hbatcher]
    exact (Turn.rest_running _ loop start _).trans hrunning
  · rw [hbatcher]
    exact hstage
  · rw [ite_self, hbatcher, Batches.pending, hidle.batches]
    exact hempty k
  · rw [flushes_of_goesOn? hgoes, hnone]
    exact congrArg Flushes.durations (ite_self _)

/-- A record comes while the loop rests. -/
theorem Rests.comes (h : Rests interval start loop ds [] w) (record : ρ) :
    w.prompt loop (.enqueue "" record) = true ∧
      Rests interval start loop ds [record] (w.step loop (.enqueue "" record)) := by
  have hle : w.now ≤ due interval start ds := (h.ticks.stands _ h.stage).2.2
  have hprompt : w.prompt loop (.enqueue "" record) = true := by
    simp [prompt, h.stage, Move.time, hle, Move.answer?, Move.goesOn?]
  refine ⟨hprompt, h.ticks.step hprompt, h.running, h.stage, fun k => ?_, h.durations⟩
  have hempty : ∀ k, w.batcher.batches.pending k = [] := fun k => (h.pending k).trans (ite_self _)
  have hcut : w.batcher.batches.pending "" = cut w.batcher.batches.limit [] := (hempty "").trans (cut_nil _).symm
  refine (Batches.enqueue_pending hcut k).trans ?_
  rw [h.ticks.sound.limited, hempty]
  rfl

/-- The loop goes on when it is due. -/
theorem Rests.begins (h : Rests interval start loop ds [record] w) : ∃ turn,
    w.prompt loop (.resume loop turn (due interval start ds) .done) = true ∧
      Emits interval start loop ds (w.step loop (.resume loop turn (due interval start ds) .done)) := by
  have hle : w.now ≤ due interval start ds := (h.ticks.stands _ h.stage).2.2
  obtain ⟨turn, hresume⟩ := Move.resume_goes h.stage
  obtain ⟨hgoes, hturn⟩ := hresume (due interval start ds) .done
  have hprompt : w.prompt loop (.resume loop turn (due interval start ds) .done) = true := by
    simp [prompt, h.stage, Move.time, hle]
  have hbatcher : (w.step loop (.resume loop turn (due interval start ds) .done)).batcher =
      (Turn.flushAll ⟨w.batcher, []⟩ loop (due interval start ds) (.ofLoop (due interval start ds))).batcher :=
    congrArg Turn.batcher hturn
  obtain ⟨⟨key, rest, hstage⟩, hpending⟩ :=
    Turn.flushAll_one (t := ⟨w.batcher, []⟩) h.stage h.pending (due interval start ds) (due interval start ds)
  rw [← hbatcher] at hstage hpending
  refine ⟨turn, hprompt, h.ticks.step hprompt, rfl, ?_, ⟨key, rest, hstage⟩, hpending, ?_⟩
  · rw [hbatcher]
    exact (Turn.flush_running _ loop _ _ _).trans h.running
  · rw [flushes_of_goesOn? hgoes, hstage]
    exact h.durations

/-- The emission is answered after so long. -/
theorem Emits.rests (h : Emits interval start loop ds w) (d : Nat) : ∃ turn,
    w.prompt loop (.resume loop turn (due interval start ds + d) .done) = true ∧
      Rests interval start loop (ds ++ [d]) []
        (w.step loop (.resume loop turn (due interval start ds + d) .done)) := by
  obtain ⟨key, rest, hst⟩ := h.stage
  obtain ⟨hpresent, hle⟩ := h.ticks.stands _ hst
  obtain ⟨turn, hresume⟩ := Move.resume_goes hst
  obtain ⟨hgoes, hturn⟩ := hresume (due interval start ds + d) .done
  have hprompt : w.prompt loop (.resume loop turn (due interval start ds + d) .done) = true := by
    simp [prompt, hst, Move.time, h.now]
  let t : Turn ρ := Turn.change ⟨w.batcher, []⟩ fun b => { b with batches := b.batches.noteEmitted }
  have hbatcher : (w.step loop (.resume loop turn (due interval start ds + d) .done)).batcher =
      (t.rest loop (due interval start ds + d) (due interval start (ds ++ [d]))).batcher := by
    have hdue : due interval start (ds ++ [d]) =
        max (due interval start ds + t.batcher.interval) (due interval start ds + d) := by
      rw [due_concat, show t.batcher.interval = interval from h.ticks.steady]
      omega
    rw [hdue, ← Turn.flush_empty (t := t) h.pending rest]
    exact congrArg Turn.batcher hturn
  have hrunning : t.batcher.running = true := h.running
  have hidle := t.rest_idle loop (due interval start ds + d) (due interval start (ds ++ [d]))
  have hstage := Turn.rest_stage? (t := t) hst (due interval start ds + d) (due interval start (ds ++ [d]))
  rw [← hbatcher, if_pos hrunning] at hstage
  refine ⟨turn, hprompt, h.ticks.step hprompt, ?_, hstage, fun k => ?_, ?_⟩
  · rw [hbatcher]
    exact (t.rest_running loop _ _).trans hrunning
  · rw [ite_self, hbatcher, Batches.pending, hidle.batches]
    exact h.pending k
  · rw [flushes_of_goesOn? hgoes, hstage]
    simpa [Stage.flushes, Stage.emits, Flushes.closing, hpresent, Flushes.durations, Move.time] using h.durations

theorem after_append (w : Ticking ρ) (loop : Nat) (moves more : List (Move ρ)) :
    w.after loop (moves ++ more) = (w.after loop moves).after loop more := List.foldl_append

theorem promptAll_append {moves more : List (Move ρ)} (h : w.promptAll loop moves = true)
    (hmore : (w.after loop moves).promptAll loop more = true) : w.promptAll loop (moves ++ more) = true := by
  induction moves generalizing w with
  | nil => exact hmore
  | cons m moves ih =>
    obtain ⟨hfirst, hrest⟩ := Bool.and_eq_true_iff.1 h
    exact Bool.and_eq_true_iff.2 ⟨hfirst, ih hrest hmore⟩

/-- A flush that takes so long is one more. -/
theorem Rests.flush (h : Rests interval start loop ds [] w) (record : ρ) (d : Nat) : ∃ moves : List (Move ρ),
    w.promptAll loop moves = true ∧ (∀ m ∈ moves, m.isStop = false) ∧
      Rests interval start loop (ds ++ [d]) [] (w.after loop moves) := by
  obtain ⟨hcomes, hone⟩ := h.comes record
  obtain ⟨turn, hbegins, hemits⟩ := hone.begins
  obtain ⟨turn', hrests, hnone⟩ := hemits.rests d
  refine ⟨[_, _, _], ?_, ?_, hnone⟩
  · simp only [promptAll, hcomes, hbegins, hrests, Bool.and_true]
  · simp [Move.isStop]

end Ticking

section

variable {limit : Option Int} {w : Watch ρ} (hs : Sound limit w.history w.answered w.batcher)
  (hhalted : w.batcher.running = false) (start : Nat)
include hs hhalted

/-- **Every list of durations is that of a prompt run**, from any batcher without a limit and without records. -/
theorem exists_ticking (hlimit : limit = none) (hempty : ∀ key, w.batcher.batches.pending key = []) (record : ρ)
    (ds : List Nat) : ∃ moves : List (Move ρ), (w.ticking start).promptAll w.batcher.tasks.next moves = true ∧
      (∀ m ∈ moves, m.isStop = false) ∧
      ((w.ticking start).after w.batcher.tasks.next moves).flushes.durations = ds := by
  suffices hrests : ∃ moves : List (Move ρ), (w.ticking start).promptAll w.batcher.tasks.next moves = true ∧
      (∀ m ∈ moves, m.isStop = false) ∧ Ticking.Rests w.batcher.interval start w.batcher.tasks.next ds []
        ((w.ticking start).after w.batcher.tasks.next moves) by
    obtain ⟨moves, hprompt, hstop, h⟩ := hrests
    exact ⟨moves, hprompt, hstop, h.durations⟩
  induction ds using List.reverseRecOn with
  | nil =>
    have hstart := start_of_halted hhalted start
    have hpending : ∀ key, (w.ticking start).batcher.batches.pending key = [] := by
      intro key
      show (w.batcher.start start).batcher.batches.pending key = []
      rw [hstart.batches]
      exact hempty key
    obtain ⟨turn, hprompt, h⟩ := Ticking.Rests.of_begun (hlimit ▸ Ticking.ticks_ticking hs hhalted start) hstart.running
      (stage?_ticking hs hhalted start) hpending
    refine ⟨[_], ?_, ?_, h⟩
    · simp only [Ticking.promptAll, hprompt, Bool.and_true]
    · simp [Move.isStop]
  | append_singleton ds d ih =>
    obtain ⟨moves, hprompt, hstop, h⟩ := ih
    obtain ⟨more, hmore, hstop', h'⟩ := h.flush record d
    refine ⟨moves ++ more, Ticking.promptAll_append hprompt hmore, fun m hm => ?_, ?_⟩
    · rcases List.mem_append.1 hm with hm | hm
      · exact hstop m hm
      · exact hstop' m hm
    · rw [Ticking.after_append]
      exact h'

end

end PoolFeed.Batcher
