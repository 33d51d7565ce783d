import Mathlib.Data.List.Induction
import PoolFeed.Proofs.Batcher.Turns

/-!
# Runs of the batcher

| here | there |
| --- | --- |
| `Move` | a call of `TradeBatcher.enqueue`, `start`, `stop` or `_flush`, or the end of what one of their tasks awaits |
| `Lawful` | "swap before awaiting so records enqueued during the emit land in the next tick" (`_flush`), and the counters of `get_stats` |

A run is a list of moves in any order: records come, the loop is started, callers flush and stop, and tasks are
resumed with whatever they waited for, so that flushes overlap with each other and with what comes meanwhile.
A watch writes the history of a run. `run_lawful` says that this history is fair, and that the buffers and the
counts of the batcher are what the history makes of them.
-/

namespace PoolFeed.Batcher

variable {ρ : Type}

open History

/-- A stage from which a task begins to flush. -/
def Stage.flushes : Stage → Bool
  | .called .flush | .resting _ => true
  | _ => false

/-- An outcome that answers an emission. -/
def Stage.answeredBy : Stage → Outcome → Bool
  | .emitting _ _ _, .done | .emitting _ _ _, .failed _ => true
  | _, _ => false

/-- What can happen to a batcher next. -/
inductive Move (ρ : Type) where
  | enqueue (key : String) (record : ρ)
  | start (now : Nat)
  | ask (c : Call) (now : Nat)
  | resume (task turn now : Nat) (o : Outcome)

namespace Move

def turn (b : Batcher ρ) : Move ρ → Turn ρ
  | .enqueue key record => ⟨(b.enqueue key [record]).1, []⟩
  | .start now => b.start now
  | .ask c now => b.ask c now
  | .resume task turn now o => b.resume task turn now o

/-- The task that goes on, the stage it goes on from and what it has waited for there. A task that comes too late
or gives up does not go on. -/
def goesOn? (b : Batcher ρ) : Move ρ → Option (Nat × Stage × Outcome)
  | .ask c _ => some (b.tasks.next, .called c, .done)
  | .resume task turn _ o => if b.tasks.waitsAt task turn then (b.tasks.stage? task).map (task, ·, o) else none
  | .enqueue _ _ | .start _ => none

/-- The task that begins to flush. -/
def begins? (b : Batcher ρ) (m : Move ρ) : Option Nat :=
  (m.goesOn? b).bind fun (task, s, _) => if s.flushes then some task else none

/-- Whether the emission of a batch is answered. -/
def answers (b : Batcher ρ) (m : Move ρ) : Bool := (m.goesOn? b).any fun (_, s, o) => s.answeredBy o

/-- The task that takes the batches of a move. -/
def task (b : Batcher ρ) (m : Move ρ) : Nat := ((m.goesOn? b).map (·.1)).getD 0

def came : Move ρ → History ρ
  | .enqueue key record => [.came key record]
  | .start _ | .ask _ _ | .resume _ _ _ _ => []

/-- A task that is resumed goes on from where it stands; or it comes too late or gives up, and nothing happens. -/
theorem resume_cases (b : Batcher ρ) (task turn now : Nat) (o : Outcome) :
    (goesOn? b (.resume task turn now o) = none ∧ Turn.Idle ⟨b, []⟩ (b.resume task turn now o)) ∨
    ∃ s, b.tasks.stage? task = some s ∧ goesOn? b (.resume task turn now o) = some (task, s, o) ∧
      b.resume task turn now o = Turn.goOn ⟨b, []⟩ task now s o := by
  cases hfind : b.tasks.find? task with
  | none =>
    have hturn : b.resume task turn now o = ⟨b, []⟩ := by simp only [Batcher.resume, hfind]
    rw [hturn]
    exact .inl ⟨by simp [goesOn?, Tasks.waitsAt, hfind], .refl _⟩
  | some found =>
    by_cases hlate : found.turn = turn
    · cases hcancelled : found.cancelled with
      | true =>
        have hturn : b.resume task turn now o = Turn.finish ⟨b, []⟩ task .cancelled := by
          simp [Batcher.resume, hfind, hlate, hcancelled]
        rw [hturn]
        exact .inl ⟨by simp [goesOn?, Tasks.waitsAt, hfind, hcancelled], Turn.finish_idle _ task _⟩
      | false =>
        have hst : b.tasks.stage? task = some found.stage := by simp [Tasks.stage?, hfind, hcancelled]
        refine .inr ⟨found.stage, hst, ?_, ?_⟩
        · simp [goesOn?, Tasks.waitsAt, hfind, hlate, hcancelled, hst]
        · simp [Batcher.resume, hfind, hlate, hcancelled]
    · have hturn : b.resume task turn now o = ⟨b, []⟩ := by simp [Batcher.resume, hfind, hlate]
      rw [hturn]
      exact .inl ⟨by simp [goesOn?, Tasks.waitsAt, hfind, hlate], .refl _⟩

/-- What a move adds to the history. -/
def entries (b : Batcher ρ) (m : Move ρ) : History ρ :=
  m.came ++ (m.begins? b).toList.map .begun ++ (m.turn b).taken.map (.taken (m.task b))

end Move

structure Watch (ρ : Type) where
  batcher : Batcher ρ
  history : History ρ := []
  /-- Emissions that have been answered. -/
  answered : Nat := 0

def Watch.step (w : Watch ρ) (m : Move ρ) : Watch ρ where
  batcher := (m.turn w.batcher).batcher
  history := w.history ++ m.entries w.batcher
  answered := w.answered + (m.answers w.batcher).toNat

/-- A run of a new batcher with an interval and a limit. -/
def run (interval : Nat) (limit : Option Int) (moves : List (Move ρ)) : Watch ρ :=
  moves.foldl Watch.step { batcher := { interval := interval, batches := { limit := limit } } }

/-! ## The invariant -/

/-- The buffers hold what has come since the last batches, every record and every answer is accounted for, and a
flush that waits has only such keys left as it has not taken yet. -/
structure Sound (limit : Option Int) (h : History ρ) (answered : Nat) (b : Batcher ρ) : Prop where
  ordered : b.tasks.Ordered
  limited : b.batches.limit = limit
  keys : b.batches.buffers.keys.Nodup
  fair : Fair limit h
  pending : ∀ key, b.batches.pending key = cut limit (since key h)
  account : b.batches.enqueued = emittedRecords h + b.batches.dropped + b.batches.buffered
  settled : b.batches.emitted + b.batches.failed = answered
  left : ∀ id key rest f, b.tasks.stage? id = some (.emitting key rest f) → (flushed id h ++ rest).Nodup

variable {limit : Option Int} {h : History ρ} {n : Nat} {b : Batcher ρ} {t u : Turn ρ} {me now : Nat}

theorem sound_start (interval : Nat) (limit : Option Int) :
    Sound limit [] 0 ({ interval := interval, batches := { limit := limit } } : Batcher ρ) where
  ordered := Tasks.ordered_empty
  limited := rfl
  keys := List.nodup_nil
  fair := .nil
  pending _ := (cut_nil limit).symm
  account := rfl
  settled := rfl
  left := nofun

namespace Sound

/-- The invariant is about the batches and the tasks that emit; nobody else matters. -/
theorem of_batches {b' : Batcher ρ} (hs : Sound limit h n b) (hbatches : b'.batches = b.batches)
    (hordered : b'.tasks.Ordered)
    (hstages : ∀ id s, b'.tasks.stage? id = some s → s.emits → b.tasks.stage? id = some s) : Sound limit h n b' where
  ordered := hordered
  limited := by rw [hbatches, hs.limited]
  keys := by
    rw [hbatches]
    exact hs.keys
  fair := hs.fair
  pending := by
    rw [hbatches]
    exact hs.pending
  account := by
    rw [hbatches]
    exact hs.account
  settled := by
    rw [hbatches]
    exact hs.settled
  left id key rest f hst := hs.left id key rest f (hstages id _ hst rfl)

theorem idle (hs : Sound limit h n t.batcher) (hi : Turn.Idle t u) : Sound limit h n u.batcher :=
  hs.of_batches hi.batches (hi.ordered hs.ordered) (hi.stages hs.ordered)

/-- Taking a batch keeps the invariant, if the keys of the flush have not been taken yet. -/
theorem takes {keys : List String} {batch : Batch ρ} {rest : List String} (hs : Sound limit h n t.batcher)
    (hkeys : (flushed me h ++ keys).Nodup) (ht : Turn.Takes t me keys batch rest u) :
    Sound limit (h ++ [.taken me batch]) n u.batcher := by
  obtain ⟨skipped, hamong⟩ := ht.among
  have hfresh : (flushed me h ++ batch.key :: rest).Nodup := by
    refine hkeys.sublist (List.Sublist.append_left ?_ _)
    rw [hamong]
    exact List.sublist_append_right skipped _
  refine ⟨ht.ordered hs.ordered, ?_, ?_, .taken hs.fair ht.nonempty ?_ ?_, fun key => ?_, ?_, ?_,
    fun id key rest' f hst => ?_⟩
  · rw [ht.batches]
    exact hs.limited
  · rw [ht.batches]
    exact Roster.nodup_keys_put hs.keys
  · rw [ht.records, hs.pending]
  · intro hmem
    exact (List.nodup_append.1 hfresh).2.2 _ hmem _ List.mem_cons_self rfl
  · rw [ht.batches, Batches.put_nil_pending, since_taken, hs.pending]
    by_cases hk : key = batch.key
    · rw [if_pos hk, if_pos hk.symm, cut_nil]
    · rw [if_neg hk, if_neg fun e => hk e.symm]
  · have hbuf := Batches.put_nil_buffered t.batcher.batches batch.key
    rw [← ht.records] at hbuf
    have hold := hs.account
    rw [ht.batches, emittedRecords_taken]
    dsimp only
    omega
  · rw [ht.batches]
    exact hs.settled
  · rw [flushed_taken]
    rcases ht.stages id _ hst rfl with ⟨hid, hold⟩ | ⟨rfl, f', he⟩
    · rw [if_neg fun e => hid e.symm]
      exact hs.left id key rest' f hold
    · cases he
      rw [if_pos rfl, List.append_assoc]
      exact hfresh

theorem came (hs : Sound limit h n b) (key : String) (record : ρ) :
    Sound limit (h ++ [.came key record]) n (b.enqueue key [record]).1 := by
  have hb : (b.enqueue key [record]).1 = { b with batches := (b.batches.enqueue key record).1 } := rfl
  obtain ⟨henq, hbuf⟩ := Batches.enqueue_account b.batches key record
  rw [hb]
  refine ⟨hs.ordered, ?_, Batches.enqueue_keys hs.keys, .came key record hs.fair, fun other => ?_, ?_, ?_, ?_⟩
  · exact (Batches.enqueue_limit b.batches key record).trans hs.limited
  · have hp := hs.pending key
    rw [← hs.limited] at hp
    show (b.batches.enqueue key record).1.pending other = _
    rw [Batches.enqueue_pending hp, since_came, hs.limited]
    by_cases hk : other = key
    · rw [if_pos hk, if_pos hk.symm, hk]
    · rw [if_neg hk, if_neg fun e => hk e.symm, hs.pending]
  · have hold := hs.account
    rw [emittedRecords_came]
    dsimp only
    omega
  · show (b.batches.enqueue key record).1.emitted + (b.batches.enqueue key record).1.failed = n
    rw [Batches.enqueue_eq]
    exact hs.settled
  · intro id key' rest f hst
    rw [flushed_came]
    exact hs.left id key' rest f hst

theorem begun (hs : Sound limit h n b) {task : Nat}
    (hne : ∀ key rest f, b.tasks.stage? task ≠ some (.emitting key rest f)) : Sound limit (h ++ [.begun task]) n b where
  ordered := hs.ordered
  limited := hs.limited
  keys := hs.keys
  fair := .begun task hs.fair
  pending key := by rw [since_begun, hs.pending]
  account := by rw [emittedRecords_begun, hs.account]
  settled := hs.settled
  left id key rest f hst := by
    rw [flushed_begun]
    split
    · rename_i hid
      rw [hid] at hne
      exact absurd hst (hne key rest f)
    · exact hs.left id key rest f hst

/-- A new task that does not emit keeps the invariant. -/
theorem spawned {b' : Batcher ρ} {s : Stage} (hs : Sound limit h n b) (hemits : s.emits = false)
    (hbatches : b'.batches = b.batches) (htasks : b'.tasks = b.tasks.spawn s) : Sound limit h n b' := by
  refine hs.of_batches hbatches ?_ fun id s' hst he => ?_
  · rw [htasks]
    exact hs.ordered.spawn s
  · rw [htasks, Tasks.stage?_spawn hs.ordered] at hst
    split at hst
    · cases hst
      rw [hemits] at he
      cases he
    · exact hst

/-- An answer changes nothing but the counts of answers. -/
theorem noted (hs : Sound limit h n b) (batches : Batches ρ) (hlimit : batches.limit = b.batches.limit)
    (hbuffers : batches.buffers = b.batches.buffers)
    (hcounts : batches.enqueued = b.batches.enqueued ∧ batches.dropped = b.batches.dropped)
    (hanswer : batches.emitted + batches.failed = b.batches.emitted + b.batches.failed + 1) :
    Sound limit h (n + 1) { b with batches := batches } where
  ordered := hs.ordered
  limited := hlimit.trans hs.limited
  keys := by
    show batches.buffers.keys.Nodup
    rw [hbuffers]
    exact hs.keys
  fair := hs.fair
  pending key := by
    show (batches.buffers.get? key).getD [] = _
    rw [hbuffers]
    exact hs.pending key
  account := by
    show batches.enqueued = _ + batches.dropped + batches.buffered
    rw [hcounts.1, hcounts.2, Batches.buffered, hbuffers]
    exact hs.account
  settled := by
    rw [← hs.settled]
    exact hanswer
  left := hs.left

/-- A flush takes a batch of one of its keys, or none. -/
theorem flush (hs : Sound limit h n t.batcher) (hnone : t.taken = []) {keys : List String}
    (hkeys : (flushed me h ++ keys).Nodup) (now : Nat) (f : Flush) :
    Sound limit (h ++ (t.flush me now keys f).taken.map (.taken me)) n (t.flush me now keys f).batcher := by
  rcases t.flush_cases me now keys f with hi | ⟨batch, rest, ht⟩
  · rw [hi.taken, hnone, List.map_nil, List.append_nil]
    exact hs.idle hi
  · rw [ht.taken, hnone]
    exact hs.takes hkeys ht

/-- A task that begins to flush takes its keys from the buffers. -/
theorem flushAll (hs : Sound limit h n t.batcher) (hnone : t.taken = [])
    (hne : ∀ key rest f, t.batcher.tasks.stage? me ≠ some (.emitting key rest f)) (now : Nat) (f : Flush) :
    Sound limit (h ++ [.begun me] ++ (t.flushAll me now f).taken.map (.taken me)) n (t.flushAll me now f).batcher := by
  refine (hs.begun hne).flush hnone ?_ now f
  rw [flushed_begun, if_pos rfl]
  exact hs.keys

/-- A task that goes on keeps the invariant: it begins to flush, goes on flushing, or is idle. -/
theorem goOn {s : Stage} (hs : Sound limit h n t.batcher) (hnone : t.taken = [])
    (hst : t.batcher.tasks.stage? me = some s) (now : Nat) (o : Outcome) :
    Sound limit (h ++ (if s.flushes then [.begun me] else []) ++ (t.goOn me now s o).taken.map (.taken me))
      (n + (s.answeredBy o).toNat) (t.goOn me now s o).batcher := by
  have hidle : ∀ u, Turn.Idle t u → s.flushes = false → s.answeredBy o = false →
      Sound limit (h ++ (if s.flushes then [.begun me] else []) ++ u.taken.map (.taken me))
        (n + (s.answeredBy o).toNat) u.batcher := by
    intro u hi hflush hanswer
    rw [hflush, hanswer, hi.taken, hnone]
    simpa using hs.idle hi
  fun_cases Turn.goOn t me now s o
  · exact hs.flushAll hnone (fun key rest f he => by cases hst.symm.trans he) now .ofCaller
  · exact hidle _ (t.stop_idle me) rfl rfl
  · exact hidle _ (t.beginLoop_idle me now) rfl rfl
  · exact hs.flushAll hnone (fun key rest f he => by cases hst.symm.trans he) now _
  · rename_i key rest f
    have hnoted := hs.noted t.batcher.batches.noteEmitted rfl rfl ⟨rfl, rfl⟩ (Nat.add_right_comm _ _ _)
    have hflush := flush (t := t.change fun b => { b with batches := b.batches.noteEmitted }) hnoted hnone
      (hs.left me key rest f hst) now f
    simp only [Stage.flushes, Bool.false_eq_true, if_false, List.append_nil]
    exact hflush
  · rename_i key rest f reason batches log hfailed
    cases hfailed
    have hnoted := hs.noted (t.batcher.batches.noteFailed key reason).1 rfl rfl ⟨rfl, rfl⟩ rfl
    have hlogs := Turn.foldl_log_idle (t.batcher.batches.noteFailed key reason).2
      (t.change fun b => { b with batches := (t.batcher.batches.noteFailed key reason).1 })
    have hflush := flush (hnoted.idle (t := t.change _) hlogs) (hlogs.taken.trans hnone)
      (hs.left me key rest f hst) now f
    simp only [Stage.flushes, Bool.false_eq_true, if_false, List.append_nil]
    exact hflush
  · exact hidle _ (t.finish_idle me _) rfl rfl
  · exact hidle _ (t.loopGone_idle me) rfl rfl
  · exact hidle _ ((t.cancelTask_idle _).trans (Turn.park_idle _ me rfl nofun)) rfl rfl
  · exact hidle _ (t.giveUp_idle me) rfl rfl
  · exact hidle _ (t.loopGone_idle me) rfl rfl
  · rename_i hcall _ _ hrest hdone hfailed _ _ _ _ _
    refine hidle _ (.refl t) ?_ ?_
    · fun_cases Stage.flushes s
      · exact (hcall rfl).elim
      · exact (hrest _ rfl).elim
      · rfl
    · fun_cases Stage.answeredBy s o
      · exact (hdone _ _ _ rfl rfl).elim
      · exact (hfailed _ _ _ _ rfl rfl).elim
      · rfl

theorem start (hs : Sound limit h n b) (now : Nat) :
    Sound limit h n (b.start now).batcher ∧ (b.start now).taken = [] := by
  unfold Batcher.start
  split
  · have hlog := Turn.log_idle ⟨b, []⟩ (Log.warning s!"{b.component.name} loop is already running")
    exact ⟨hs.idle (t := ⟨b, []⟩) hlog, hlog.taken⟩
  · have hspawn : Sound limit h n { b with
        component := (b.component.start now).1, running := true, loop := some b.tasks.next,
        tasks := b.tasks.spawn .begun } := hs.spawned rfl rfl rfl
    have hidle : ∀ t : Turn ρ,
        Turn.Idle t (((b.component.start now).2.foldl Turn.log t).act (.wake b.tasks.next 0 .done)) := fun t =>
      (Turn.foldl_log_idle _ t).trans (Turn.act_idle _ rfl)
    exact ⟨hspawn.idle (t := ⟨_, []⟩) (hidle _), (hidle _).taken⟩

/-! ## Moves -/

variable {m : Move ρ}

/-- A move with which no task goes on and nothing comes leaves the history as it is. -/
theorem stays (hgoes : m.goesOn? b = none) (hcame : m.came = []) (htaken : (m.turn b).taken = [])
    (hs : Sound limit h n (m.turn b).batcher) :
    Sound limit (h ++ m.entries b) (n + (m.answers b).toNat) (m.turn b).batcher := by
  have hentries : m.entries b = [] := by simp [Move.entries, Move.begins?, hgoes, hcame, htaken]
  have hanswers : m.answers b = false := by simp [Move.answers, hgoes]
  rw [hentries, hanswers, List.append_nil]
  exact hs

/-- A move with which a task goes on tells of the flush that begins and the batch that is taken. -/
theorem goes {s : Stage} {o : Outcome} (hgoes : m.goesOn? b = some (me, s, o)) (hcame : m.came = [])
    (hturn : m.turn b = t.goOn me now s o) (hs : Sound limit h n t.batcher) (hnone : t.taken = [])
    (hst : t.batcher.tasks.stage? me = some s) :
    Sound limit (h ++ m.entries b) (n + (m.answers b).toNat) (m.turn b).batcher := by
  have hentries : h ++ m.entries b =
      h ++ (if s.flushes then [.begun me] else []) ++ (t.goOn me now s o).taken.map (.taken me) := by
    simp only [Move.entries, Move.begins?, Move.task, hgoes, hcame, hturn]
    cases hf : s.flushes <;> simp [hf]
  have hanswers : m.answers b = s.answeredBy o := by simp [Move.answers, hgoes]
  rw [hentries, hanswers, hturn]
  exact hs.goOn hnone hst now o

theorem step (hs : Sound limit h n b) (m : Move ρ) :
    Sound limit (h ++ m.entries b) (n + (m.answers b).toNat) (m.turn b).batcher := by
  cases m with
  | enqueue key record => exact hs.came key record
  | start now => exact stays rfl rfl (hs.start now).2 (hs.start now).1
  | ask c now =>
    have hspawned : Sound limit h n { b with tasks := b.tasks.spawn (.called c) } :=
      hs.spawned (s := .called c) rfl rfl rfl
    refine goes (t := ⟨{ b with tasks := b.tasks.spawn (.called c) }, []⟩) rfl rfl rfl hspawned rfl ?_
    rw [Tasks.stage?_spawn hs.ordered, if_pos rfl]
  | resume task turn now o =>
    rcases Move.resume_cases b task turn now o with ⟨hgoes, hidle⟩ | ⟨s, hst, hgoes, hturn⟩
    · exact stays hgoes rfl hidle.taken (hs.idle (t := ⟨b, []⟩) hidle)
    · exact goes hgoes rfl hturn hs rfl hst

end Sound

theorem run_concat (interval : Nat) (limit : Option Int) (moves : List (Move ρ)) (m : Move ρ) :
    run interval limit (moves ++ [m]) = (run interval limit moves).step m := by
  simp only [run, List.foldl_append, List.foldl_cons, List.foldl_nil]

theorem run_sound (interval : Nat) (limit : Option Int) (moves : List (Move ρ)) :
    Sound limit (run interval limit moves).history (run interval limit moves).answered
      (run interval limit moves).batcher := by
  induction moves using List.reverseRecOn with
  | nil => exact sound_start interval limit
  | append_singleton moves m ih =>
    rw [run_concat]
    exact ih.step m

/-! ## The law -/

/-- The records that moves enqueue for a key. -/
def arrivals (key : String) (moves : List (Move ρ)) : List ρ := moves.filterMap fun
  | .enqueue k r => if k = key then some r else none
  | .start _ | .ask _ _ | .resume _ _ _ _ => none

theorem records_run (interval : Nat) (limit : Option Int) (key : String) (moves : List (Move ρ)) :
    records key (run interval limit moves).history = arrivals key moves := by
  have hnone : ∀ {α : Type} (l : List α), l.filterMap (fun _ => (none : Option ρ)) = [] :=
    fun l => List.filterMap_eq_nil_iff.2 fun _ _ => rfl
  have hentries : ∀ (b : Batcher ρ) (m : Move ρ), records key (m.entries b) = arrivals key [m] := by
    intro b m
    simp only [records, Move.entries, List.filterMap_append, List.filterMap_map, Function.comp_def, hnone,
      List.append_nil]
    cases m <;> rfl
  induction moves using List.reverseRecOn with
  | nil => rfl
  | append_singleton moves m ih =>
    have hlast := hentries (run interval limit moves).batcher m
    simp only [records, arrivals] at ih hlast ⊢
    rw [run_concat, Watch.step, List.filterMap_append, List.filterMap_append, ih, hlast]

/-- What holds after the moves of a run. Batches are taken in the order of the history; each is emitted at once, to
the room of its key. -/
structure Lawful (limit : Option Int) (moves : List (Move ρ)) (w : Watch ρ) : Prop where
  /-- No batch is empty, and each is what has come for its key since the previous one, cut to the limit. -/
  batch : ∀ before task b after, w.history = before ++ .taken task b :: after →
    b.records ≠ [] ∧ b.records = cut limit (since b.key before)
  /-- So is what waits. -/
  pending : ∀ key, w.batcher.batches.pending key = cut limit (since key w.history)
  came : ∀ key, records key w.history = arrivals key moves
  /-- Without a limit nothing is lost, doubled or reordered. -/
  complete : limit = none → ∀ key,
    (History.batches key w.history).flatten ++ w.batcher.batches.pending key = arrivals key moves
  account : w.batcher.batches.enqueued =
    emittedRecords w.history + w.batcher.batches.dropped + w.batcher.batches.buffered
  /-- A flush takes no two batches of a key. -/
  once : ∀ task, (flushed task w.history).Nodup
  /-- The batches of a key are made from what the history tells of that key. -/
  apart : ∀ key, History.batches key w.history = (deal limit (outline key w.history)).1
  settled : w.batcher.batches.emitted + w.batcher.batches.failed = w.answered

/-- **Every run is lawful**, whatever comes while emissions are awaited, however these end, and however many flushes
overlap: every batch holds what has come since the one before. -/
theorem run_lawful (interval : Nat) (limit : Option Int) (moves : List (Move ρ)) :
    Lawful limit moves (run interval limit moves) := by
  have hs := run_sound interval limit moves
  have hcame := fun key => records_run interval limit key moves
  refine ⟨fun before task b after hsplit => hs.fair.batch_eq hsplit, hs.pending, hcame, ?_, hs.account,
    hs.fair.flushed_nodup, ?_, hs.settled⟩
  · rintro rfl key
    rw [hs.pending, ← hcame]
    exact hs.fair.flatten_batches key
  · intro key
    rw [hs.fair.deal_outline key]

/-- Two flushes overlap: while the first waits, records come and the second takes them, cut to two. -/
example : History.batches "P" (run 200 (some 2) [.enqueue "P" 1, .ask .flush 0, .enqueue "P" 2, .enqueue "P" 3,
    .enqueue "P" 4, .ask .flush 5, .resume 0 1 9 (.failed "closed")]).history = [[1], [3, 4]] := by decide +kernel

end PoolFeed.Batcher
