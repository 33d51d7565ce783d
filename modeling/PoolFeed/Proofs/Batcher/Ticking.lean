import PoolFeed.Proofs.Batcher.Flushes
import PoolFeed.Proofs.Batcher.Loops

/-!
# The ticks of a loop

| here | there |
| --- | --- |
| `Ticks` | "ticks missed behind a slow emit are skipped, not replayed" (`TradeBatcher._run_loop`) |

A run is prompt for a loop if its clock never goes back, the loop begins at once, and it goes on from its rest at the
deadline, not before and not later. A flush may take any time, and whatever else the batcher does may happen in between.
In a prompt run the flushes of the loop begin when they are due, and the loop lives on until somebody stops it
(`loop_ticks`).
-/

namespace PoolFeed.Batcher

variable {ρ : Type}

/-- A run in which the flushes of a loop are noted. -/
structure Ticking (ρ : Type) extends Watch ρ where
  now : Nat
  flushes : Flushes := {}

/-- A start is made, and the flushes of its loop are noted from then on. -/
def Watch.ticking (w : Watch ρ) (start : Nat) : Ticking ρ := { w.step (.start start) with now := start }

namespace Ticking

/-- A flush of the loop is over when the loop has gone on and does not wait for an emission. -/
def step (loop : Nat) (w : Ticking ρ) (m : Move ρ) : Ticking ρ :=
  let next := w.toWatch.step m
  let now := m.time w.now
  let opened := if m.begins? w.batcher = some loop then w.flushes.opening now else w.flushes
  let rests := (m.answer? w.batcher loop).isSome && !(next.batcher.tasks.stage? loop).any Stage.emits
  { next with now := now, flushes := if rests then opened.closing now else opened }

def after (loop : Nat) (w : Ticking ρ) (moves : List (Move ρ)) : Ticking ρ := moves.foldl (step loop) w

/-- Whether a move takes place when the loop lets it. -/
def prompt (loop : Nat) (w : Ticking ρ) (m : Move ρ) : Bool :=
  let now := m.time w.now
  decide (w.now ≤ now) && match w.batcher.tasks.stage? loop with
    | some .begun => decide (now ≤ w.now)
    | some (.resting deadline) => decide (now ≤ deadline) && ((m.answer? w.batcher loop).isNone || decide (deadline ≤ now))
    | _ => true

def promptAll (loop : Nat) (w : Ticking ρ) : List (Move ρ) → Bool
  | [] => true
  | m :: moves => w.prompt loop m && (w.step loop m).promptAll loop moves

variable {w : Ticking ρ} {m : Move ρ} {loop : Nat} {s : Stage} {o : Outcome}

theorem now_le_of_prompt (h : w.prompt loop m = true) : w.now ≤ m.time w.now :=
  of_decide_eq_true (Bool.and_eq_true_iff.1 h).1

theorem time_of_begun (h : w.prompt loop m = true) (hs : w.batcher.tasks.stage? loop = some .begun) :
    m.time w.now = w.now := by
  have hle := now_le_of_prompt h
  have hstage := (Bool.and_eq_true_iff.1 h).2
  rw [hs] at hstage
  have hge := of_decide_eq_true hstage
  omega

theorem time_of_resting {d : Nat} (h : w.prompt loop m = true)
    (hs : w.batcher.tasks.stage? loop = some (.resting d)) :
    m.time w.now ≤ d ∧ (m.answer? w.batcher loop = some o → m.time w.now = d) := by
  have hstage := (Bool.and_eq_true_iff.1 h).2
  rw [hs] at hstage
  obtain ⟨hle, hgo⟩ := Bool.and_eq_true_iff.1 hstage
  have hle := of_decide_eq_true hle
  refine ⟨hle, fun hanswer => ?_⟩
  rw [hanswer] at hgo
  have hge : d ≤ m.time w.now := of_decide_eq_true hgo
  omega

theorem flushes_of_none (h : m.answer? w.batcher loop = none) : (w.step loop m).flushes = w.flushes := by
  have hbegins : m.begins? w.batcher ≠ some loop := by
    intro hb
    obtain ⟨o, ho⟩ := Move.answer?_of_begins? hb
    cases h.symm.trans ho
  simp [step, h, hbegins]

/-- What a move does to the flushes with which the loop goes on. -/
theorem flushes_of_goesOn? (h : m.goesOn? w.batcher = some (loop, s, o)) : (w.step loop m).flushes =
    let opened := if s.flushes = true then w.flushes.opening (m.time w.now) else w.flushes
    if ((w.step loop m).batcher.tasks.stage? loop).any Stage.emits = true then opened
    else opened.closing (m.time w.now) := by
  have hbegins := Move.begins?_of_goesOn? h
  have hanswer := Move.answer?_of_goesOn? h
  cases hf : s.flushes <;>
    cases he : ((m.turn w.batcher).batcher.tasks.stage? loop).any Stage.emits <;>
    simp [step, Watch.step, hbegins, hanswer, hf, he]

/-- How a loop stands among its flushes. -/
def Stands (interval start : Nat) (w : Ticking ρ) : Stage → Prop
  | .begun => w.now = start ∧ w.flushes = {}
  | .resting deadline => deadline = due interval start w.flushes.durations ∧ w.flushes.present = [] ∧ w.now ≤ deadline
  | .emitting _ _ (.ofLoop deadline) => w.flushes.present = [deadline] ∧ deadline ≤ w.now
  | .emitting _ _ .ofCaller | .called _ | .stopping _ | .expiring _ | .dropping _ => False

/-- What holds of a prompt run. -/
structure Ticks (limit : Option Int) (interval start loop : Nat) (w : Ticking ρ) : Prop where
  sound : Sound limit w.history w.answered w.batcher
  steady : w.batcher.interval = interval
  known : loop < w.batcher.tasks.next
  onTime : w.flushes.OnTime interval start
  stands : ∀ s, w.batcher.tasks.stage? loop = some s → w.Stands interval start s

namespace Ticks

variable {limit : Option Int} {interval start : Nat}

/-- Nothing happens to a loop that does not go on, and its time is not over. -/
theorem step_of_none (h : Ticks limit interval start loop w) (hm : w.prompt loop m = true)
    (hnone : m.answer? w.batcher loop = none) (hs : (w.step loop m).batcher.tasks.stage? loop = some s) :
    (w.step loop m).Stands interval start s := by
  have hold := Move.stage?_back h.sound.ordered h.known hnone hs
  have hstands := h.stands s hold
  have hflushes := flushes_of_none hnone
  have hle := now_le_of_prompt hm
  cases s with
  | begun => exact ⟨(time_of_begun hm hold).trans hstands.1, hflushes.trans hstands.2⟩
  | resting d =>
    obtain ⟨hdue, hpresent, -⟩ := hstands
    refine ⟨?_, ?_, (time_of_resting (o := .done) hm hold).1⟩
    · rw [hflushes]
      exact hdue
    · rw [hflushes]
      exact hpresent
  | emitting key rest f =>
    cases f with
    | ofLoop d =>
      refine ⟨?_, Nat.le_trans hstands.2 hle⟩
      rw [hflushes]
      exact hstands.1
    | ofCaller => exact hstands
  | called c => exact hstands
  | stopping l => exact hstands
  | expiring l => exact hstands
  | dropping l => exact hstands

/-- After a turn with a flush of the loop under way, this waits for an emission, or it is over and the loop rests until
the next is due. -/
theorem stands_of_flush {w' : Ticking ρ} {f : Flushes} {deadline : Nat} {running : Bool} (hf : f.OnTime interval start)
    (hpresent : f.present = [deadline]) (hle : deadline ≤ w'.now)
    (hflushes : w'.flushes = if (w'.batcher.tasks.stage? loop).any Stage.emits = true then f else f.closing w'.now)
    (hstage : (∃ key rest, w'.batcher.tasks.stage? loop = some (.emitting key rest (.ofLoop deadline))) ∨
      w'.batcher.tasks.stage? loop =
        if running = true then some (.resting (max (deadline + interval) w'.now)) else none) :
    w'.flushes.OnTime interval start ∧ ∀ s, w'.batcher.tasks.stage? loop = some s → w'.Stands interval start s := by
  rcases hstage with ⟨key, rest, hstage⟩ | hstage
  · have hopen : w'.flushes = f := by
      rw [hflushes, hstage]
      exact if_pos rfl
    refine ⟨hopen ▸ hf, fun s hs => ?_⟩
    cases hstage.symm.trans hs
    exact ⟨hopen ▸ hpresent, hle⟩
  · obtain ⟨honTime, hdue⟩ := hf.closing hpresent hle
    have hpast : w'.flushes = f.closing w'.now := by
      rw [hflushes, hstage]
      cases running <;> exact if_neg Bool.false_ne_true
    refine ⟨hpast ▸ honTime, fun s hs => ?_⟩
    rw [hstage] at hs
    split at hs
    · cases hs
      refine ⟨?_, ?_, Nat.le_max_right _ _⟩
      · rw [hpast, hdue]
        omega
      · rw [hpast, Flushes.closing, hpresent]
    · cases hs

theorem step_of_goesOn? (h : Ticks limit interval start loop w) (hm : w.prompt loop m = true)
    (hgoes : m.goesOn? w.batcher = some (loop, s, o)) : (w.step loop m).flushes.OnTime interval start ∧
    ∀ s', (w.step loop m).batcher.tasks.stage? loop = some s' → (w.step loop m).Stands interval start s' := by
  obtain ⟨hst, hturn⟩ := Move.turn_of_goesOn? h.known hgoes w.now
  have hbatcher : (w.step loop m).batcher = (Turn.goOn ⟨w.batcher, []⟩ loop (m.time w.now) s o).batcher :=
    congrArg Turn.batcher hturn
  have hflushes := flushes_of_goesOn? hgoes
  have hstands := h.stands s hst
  cases s with
  | begun =>
    obtain ⟨hnow, hempty⟩ := hstands
    have hstart : (w.step loop m).now = start := (time_of_begun hm hst).trans hnow
    have hnone : (w.step loop m).flushes = {} := by
      rw [hflushes, hempty]
      exact ite_self _
    have hstage := Turn.goOn_begun_stage? (t := ⟨w.batcher, []⟩) hst (m.time w.now) o
    rw [← hbatcher] at hstage
    refine ⟨hnone ▸ .empty interval start, fun s' hs' => ?_⟩
    rw [hstage] at hs'
    split at hs'
    · cases hs'
      refine ⟨?_, by rw [hnone], Nat.le_add_right _ _⟩
      rw [hnone, h.steady]
      exact congrArg (· + interval) hstart
    · cases hs'
  | resting d =>
    obtain ⟨hdue, hpresent, -⟩ := hstands
    have htime : m.time w.now = d := (time_of_resting hm hst).2 (Move.answer?_of_goesOn? hgoes)
    subst htime
    have hstage := Turn.goOn_stage? (t := ⟨w.batcher, []⟩) hst rfl (m.time w.now) o
    rw [← hbatcher, h.steady] at hstage
    refine stands_of_flush (f := w.flushes.opening (m.time w.now)) ?_ ?_ (Nat.le_refl _) hflushes hstage
    · rw [hdue]
      exact h.onTime.opening hpresent
    · exact congrArg (· ++ [m.time w.now]) hpresent
  | emitting key rest f =>
    cases f with
    | ofCaller => cases hstands
    | ofLoop d =>
      have hstage := Turn.goOn_stage? (t := ⟨w.batcher, []⟩) hst rfl (m.time w.now) o
      rw [← hbatcher, h.steady] at hstage
      exact stands_of_flush h.onTime hstands.1 (Nat.le_trans hstands.2 (now_le_of_prompt hm)) hflushes hstage
  | called c => cases hstands
  | stopping l => cases hstands
  | expiring l => cases hstands
  | dropping l => cases hstands

theorem step (h : Ticks limit interval start loop w) (hm : w.prompt loop m = true) :
    Ticks limit interval start loop (w.step loop m) := by
  have hmoves : (w.step loop m).flushes.OnTime interval start ∧
      ∀ s, (w.step loop m).batcher.tasks.stage? loop = some s → (w.step loop m).Stands interval start s := by
    cases hanswer : m.answer? w.batcher loop with
    | none =>
      refine ⟨?_, fun s hs => h.step_of_none hm hanswer hs⟩
      rw [flushes_of_none hanswer]
      exact h.onTime
    | some o =>
      obtain ⟨s, hgoes⟩ := Move.answer?_eq_some hanswer
      exact h.step_of_goesOn? hm hgoes
  exact {
    sound := h.sound.step m
    steady := (Move.interval_eq w.batcher m).trans h.steady
    known := Nat.lt_of_lt_of_le h.known (Move.next_le w.batcher m)
    onTime := hmoves.1
    stands := hmoves.2 }

theorem after {moves : List (Move ρ)} (h : Ticks limit interval start loop w)
    (hm : w.promptAll loop moves = true) : Ticks limit interval start loop (w.after loop moves) := by
  induction moves generalizing w with
  | nil => exact h
  | cons m moves ih =>
    obtain ⟨hfirst, hrest⟩ := Bool.and_eq_true_iff.1 hm
    exact ih (h.step hfirst) hrest

/-- While the loop lives and no flush is under way, the next one is not overdue. -/
theorem now_le_due (h : Ticks limit interval start loop w) (hs : w.batcher.tasks.stage? loop = some s)
    (hpresent : w.flushes.present = []) : w.now ≤ due interval start w.flushes.durations := by
  have hstands := h.stands s hs
  cases s with
  | begun =>
    rw [hstands.1, hstands.2]
    exact Nat.le_add_right _ _
  | resting d =>
    rw [← hstands.1]
    exact hstands.2.2
  | emitting key rest f =>
    cases f with
    | ofLoop d => cases hpresent.symm.trans hstands.1
    | ofCaller => cases hstands
  | called c => cases hstands
  | stopping l => cases hstands
  | expiring l => cases hstands
  | dropping l => cases hstands

end Ticks

end Ticking

theorem Lives.after {loop : Nat} {limit : Option Int} {moves : List (Move ρ)} {w : Ticking ρ} (h : Lives loop w.batcher)
    (hs : Sound limit w.history w.answered w.batcher) (hstop : ∀ m ∈ moves, m.isStop = false) :
    Lives loop (w.after loop moves).batcher := by
  induction moves generalizing w with
  | nil => exact h
  | cons m moves ih =>
    have hfirst : Lives loop (w.step loop m).batcher := h.step hs.ordered (hstop m List.mem_cons_self)
    exact ih hfirst (hs.step m) fun m' hm' => hstop m' (List.mem_cons_of_mem m hm')

/-! ## Starts -/

section

variable {limit : Option Int} {w : Watch ρ} (hs : Sound limit w.history w.answered w.batcher)
  (hhalted : w.batcher.running = false) (start : Nat)
include hs hhalted

theorem stage?_ticking : (w.ticking start).batcher.tasks.stage? w.batcher.tasks.next = some .begun := by
  show (w.batcher.start start).batcher.tasks.stage? _ = _
  rw [(start_of_halted hhalted start).tasks]
  exact Tasks.stage?_spawn_self hs.ordered _

theorem Ticking.ticks_ticking :
    Ticks limit w.batcher.interval start w.batcher.tasks.next (w.ticking start) where
  sound := hs.step (.start start)
  steady := (start_tasks w.batcher start).1
  known := by
    show w.batcher.tasks.next < (w.batcher.start start).batcher.tasks.next
    rw [(start_of_halted hhalted start).tasks]
    exact Nat.lt_succ_self _
  onTime := .empty _ start
  stands s hst := by
    cases (stage?_ticking hs hhalted start).symm.trans hst
    exact ⟨rfl, rfl⟩

theorem Lives.ticking (hcalm : Calm w.batcher) : Lives w.batcher.tasks.next (w.ticking start).batcher where
  running := (start_of_halted hhalted start).running
  calm id s hst := by
    change (w.batcher.start start).batcher.tasks.stage? id = some s at hst
    rw [(start_of_halted hhalted start).tasks] at hst
    rcases Tasks.stage?_of_spawn hs.ordered hst with ⟨-, rfl⟩ | hold
    · rfl
    · exact hcalm id s hold
  loop := ⟨.begun, stage?_ticking hs hhalted start, .begun⟩

end

/-! ## The law -/

theorem run_interval (interval : Nat) (limit : Option Int) (moves : List (Move ρ)) :
    (run interval limit moves).batcher.interval = interval := by
  induction moves using List.reverseRecOn with
  | nil => rfl
  | append_singleton moves m ih =>
    rw [run_concat]
    exact (Move.interval_eq _ m).trans ih

/-- **The flushes of a loop keep to the law of its ticks**, whatever has happened before it was started, whatever else
happens meanwhile, and however long its flushes take. It leaves no tick out: while it lives and does not flush, the next
flush is not overdue. It lives on as long as nobody stops it. -/
theorem loop_ticks {interval : Nat} {limit : Option Int} {before moves : List (Move ρ)} {start : Nat}
    (hhalted : (run interval limit before).batcher.running = false)
    (hprompt : ((run interval limit before).ticking start).promptAll (run interval limit before).batcher.tasks.next
      moves = true) :
    let loop := (run interval limit before).batcher.tasks.next
    let w := ((run interval limit before).ticking start).after loop moves
    w.flushes.Regular interval start ∧
    ((w.batcher.tasks.stage? loop).isSome → w.flushes.present = [] →
      w.now ≤ due interval start w.flushes.durations) ∧
    (Calm (run interval limit before).batcher → (∀ m ∈ moves, m.isStop = false) →
      w.batcher.running = true ∧ (w.batcher.tasks.stage? loop).isSome) := by
  have hs := run_sound interval limit before
  have hticks := Ticking.ticks_ticking hs hhalted start
  rw [run_interval] at hticks
  have hafter := hticks.after hprompt
  refine ⟨hafter.onTime.regular, fun hlives hpresent => ?_, fun hcalm hstop => ?_⟩
  · obtain ⟨s, hst⟩ := Option.isSome_iff_exists.1 hlives
    exact hafter.now_le_due hst hpresent
  · have hlives := (Lives.ticking hs hhalted start hcalm).after hticks.sound hstop
    obtain ⟨s, hst, -⟩ := hlives.loop
    exact ⟨hlives.running, Option.isSome_iff_exists.2 ⟨s, hst⟩⟩

/-- A loop that is started at 1000, and whose first flush takes 450 milliseconds, the second 50 and the third none. -/
def slowThenFast : List (Move Nat) := [.resume 0 0 1000 .done, .enqueue "P" 1, .resume 0 1 1200 .done, .enqueue "P" 2,
  .resume 0 2 1650 .done, .resume 0 3 1650 .done, .resume 0 4 1700 (.failed "closed"), .resume 0 5 1850 .done]

/-- The second flush begins when the first is over, and the third an interval later. -/
theorem slowThenFast_regular :
    (run 200 none ([] : List (Move Nat))).batcher.running = false ∧
    ((run 200 none []).ticking 1000).promptAll 0 slowThenFast = true ∧
    (((run 200 none []).ticking 1000).after 0 slowThenFast).flushes.starts = [1200, 1650, 1850] ∧
    (((run 200 none []).ticking 1000).after 0 slowThenFast).flushes.durations = [450, 50, 0] ∧
    (((run 200 none []).ticking 1000).after 0 slowThenFast).flushes.Regular 200 1000 := by
  have hprompt : ((run 200 none []).ticking 1000).promptAll 0 slowThenFast = true := by decide +kernel
  exact ⟨rfl, hprompt, by decide +kernel, by decide +kernel, (@loop_ticks Nat 200 none [] slowThenFast 1000 rfl hprompt).1⟩

end PoolFeed.Batcher
