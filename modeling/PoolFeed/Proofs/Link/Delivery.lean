import PoolFeed.Proofs.Link.EventLoop

/-!
# No record is lost or processed twice

| here | there |
| --- | --- |
| `Kept` | `records_received`, `records_processed`, `processing_errors` and the calls of `process` that `_schedule` leads to |

Whatever happens to the connection, the processor is called once for every record that a reader has received, in the
order of receipt (`records_kept`): the calls made never run ahead of the records received, and they catch up with them
as the queue is worked off (`Sound.served`). How a call ends is counted and changes nothing else, neither then nor
later (`Awaits.settles`, `foldl_step_credit`).
-/

namespace PoolFeed.Link.Loop

variable {ρ : Type} {w : Loop ρ}

/-! ## Every record has its turn -/

/-- A record leaves the queue only when the processor is called for it. The queue has an old part here, which what comes
later does not enter. -/
theorem Sound.countP_rest (h : w.Sound) (b : Beat ρ) {k : Nat × Nat} {old new : List (Nat × Nat)}
    (hready : w.ready = k :: old ++ new) :
    (k :: old).countP (w.link.isWaiting ·.1) ≤
      (b.turn w).calls.length + (b.rest (k :: old)).countP ((b.turn w).link.isWaiting ·.1) := by
  have hrest : b.rest w.ready = b.rest (k :: old) ++ new := by rw [hready, Beat.rest_append]
  have hsame : (b.rest w.ready).filter (w.link.isWaiting ·.1) = w.ready.filter (w.link.isWaiting ·.1) →
      (b.rest (k :: old)).countP (w.link.isWaiting ·.1) = (k :: old).countP (w.link.isWaiting ·.1) := by
    intro hq
    rw [hrest, hready, List.filter_append, List.filter_append, List.append_left_inj] at hq
    rw [List.countP_eq_length_filter, hq, List.countP_eq_length_filter]
  cases h.progress b with
  | aside hapart hgot hq =>
    rw [isWaiting_congr hapart.waiting, hsame hq]
    exact Nat.le_add_left _ _
  | settled hs hone hlink hwakes hno hgot hq =>
    rw [hlink, isWaiting_congr (waiting_settle hs h.link), hsame hq]
    exact Nat.le_add_left _ _
  | received r hs hturn hgot hq =>
    have hstay : b.rest (k :: old) = k :: old := List.append_cancel_right (hrest.symm.trans (hq.trans hready))
    have hwaiting := waiting_recordRead (r := r) hs h.link.ordered
    rw [← hturn] at hwaiting
    rw [hstay]
    refine Nat.le_add_left_of_le (List.countP_mono_left fun i _ hi => ?_)
    rw [isWaiting_concat hwaiting, hi, Bool.true_or]
  | begun r hs hturn hgot hq =>
    obtain ⟨hwaiting, -, hother⟩ := h.head_begins (.processed r) hs hq
    obtain ⟨rfl, hleft⟩ := List.cons.inj (hq.symm.trans hready)
    have hgo : b.rest ((_, 0) :: old) = old := List.append_cancel_right (hrest.symm.trans hleft)
    have hkeep : old.countP (w.link.isWaiting ·.1) = old.countP ((b.turn w).link.isWaiting ·.1) := by
      refine List.countP_congr fun i hi => ?_
      rw [hturn, isWaiting_cons hwaiting (hother i (hleft ▸ List.mem_append_left _ hi))]
    have hone : (b.turn w).calls.length = 1 := by rw [hturn]; rfl
    rw [hgo, ← hkeep, hone, List.countP_cons]
    split <;> omega

theorem Sound.due_step (h : w.Sound) (b : Beat ρ) {old new : List (Nat × Nat)} {n : Nat}
    (hready : w.ready = old ++ new) (hn : n ≤ w.calls.length + old.countP (w.link.isWaiting ·.1)) :
    (∃ new', (w.step b).ready = b.rest old ++ new') ∧
    n ≤ (w.step b).calls.length + (b.rest old).countP ((w.step b).link.isWaiting ·.1) := by
  have hcalls : (w.step b).calls.length = w.calls.length + (b.turn w).calls.length := List.length_append
  match old with
  -- Nothing of the old part is left: the processor has been called for all these records.
  | [] =>
    have hnil : b.rest [] = [] := List.sublist_nil.1 (b.rest_sublist [])
    rw [hnil, List.countP_nil, hcalls]
    rw [List.countP_nil] at hn
    exact ⟨⟨_, rfl⟩, by omega⟩
  | k :: old =>
    have hrest : b.rest w.ready = b.rest (k :: old) ++ new := by rw [hready, Beat.rest_append]
    have hcount := h.countP_rest b hready
    refine ⟨⟨new ++ (b.turn w).wakes, by rw [← List.append_assoc, ← hrest]; rfl⟩, ?_⟩
    show n ≤ (w.step b).calls.length + (b.rest (k :: old)).countP ((b.turn w).link.isWaiting ·.1)
    omega

/-- Once the old part of the queue is worked off, the processor has been called for all its records. -/
theorem Sound.due (h : w.Sound) {beats : List (Beat ρ)} {old new : List (Nat × Nat)} {n : Nat}
    (hready : w.ready = old ++ new) (hn : n ≤ w.calls.length + old.countP (w.link.isWaiting ·.1))
    (hlen : old.length ≤ beats.countP Beat.isNext) : n ≤ (beats.foldl Loop.step w).calls.length := by
  induction beats generalizing w old new with
  | nil =>
    rw [List.length_eq_zero_iff.1 (Nat.le_zero.1 hlen)] at hn
    exact hn
  | cons b beats ih =>
    obtain ⟨⟨new', hready'⟩, hn'⟩ := h.due_step b hready hn
    refine ih (h.step b) hready' hn' ?_
    rw [Beat.length_rest]
    rw [List.countP_cons] at hlen
    omega

theorem received_grows (w : Loop ρ) (beats : List (Beat ρ)) :
    w.received <+: (beats.foldl Loop.step w).received := by
  induction beats generalizing w with
  | nil => exact List.prefix_rfl
  | cons b beats ih => exact (List.prefix_append w.received _).trans (ih (w.step b))

theorem Sound.calls_within (h : w.Sound) : w.calls <+: w.received := by
  rw [h.inOrder]
  exact List.prefix_append _ _

/-- When as many tasks have been resumed from the queue as stood in it, the processor has been called for every record
received before. -/
theorem Sound.served (h : w.Sound) {beats : List (Beat ρ)} (hlen : w.ready.length ≤ beats.countP Beat.isNext) :
    w.received <+: (beats.foldl Loop.step w).calls := by
  have hdue : w.received.length = w.calls.length + w.ready.countP (w.link.isWaiting ·.1) := by
    rw [List.countP_eq_length_filter, h.queued, List.length_map, h.inOrder, List.length_append, List.length_map]
  exact List.prefix_of_prefix_length_le (received_grows w beats) (h.foldl_step beats).calls_within
    (h.due (List.append_nil _).symm (Nat.le_of_eq hdue) hlen)

/-! ## How a call ends -/

/-- The loop whose link has counted some more records and errors. -/
def credit (w : Loop ρ) (p e : Nat) : Loop ρ := { w with link := w.link.credit p e }

theorem step_credit (w : Loop ρ) (b : Beat ρ) (p e : Nat) : (w.credit p e).step b = (w.step b).credit p e := by
  have hturn : Turn.Credited p e (b.turn w) (b.turn (w.credit p e)) := by
    cases b with
    | ask c => exact ask_credited w.link c
    | askAtOnce c now luck => exact askAtOnce_credited w.link c now luck
    | askRetry => exact askRetry_credited w.link
    | next now luck =>
      simp only [Beat.turn, show (w.credit p e).ready = w.ready from rfl]
      split
      · exact Turn.credited_start p e w.link
      · exact resume_credited w.link _ _ now luck .done
    | answer task turns now luck o => exact resume_credited w.link task _ now luck o
  have hgot : b.receives? (w.credit p e) = b.receives? w := by
    cases b <;> rfl
  rw [Loop.step, hturn, hgot]
  rfl

theorem foldl_step_credit (w : Loop ρ) (beats : List (Beat ρ)) (p e : Nat) :
    beats.foldl Loop.step (w.credit p e) = (beats.foldl Loop.step w).credit p e := by
  induction beats generalizing w with
  | nil => rfl
  | cons b beats ih => rw [List.foldl_cons, step_credit, ih, List.foldl_cons]

/-- A task that has had some turns waits for the processor's answer to a record. -/
def Awaits (w : Loop ρ) (id turns : Nat) (r : Incoming ρ) : Prop :=
  w.link.tasks.stage? id = some (.processing r) ∧ w.link.tasks.waitsAt id (turns + 1)

theorem Awaits.step_answer {id turns : Nat} {r : Incoming ρ} (h : w.Awaits id turns r) (now : Nat) (luck : Luck)
    {o : Outcome ρ} {p e : Nat}
    (hends : (Turn.goOn ⟨w.link, []⟩ id now luck (.processing r) o).link = w.link.settle id p e)
    (hwakes : (Turn.goOn ⟨w.link, []⟩ id now luck (.processing r) o).wakes = [])
    (hcalls : (Turn.goOn ⟨w.link, []⟩ id now luck (.processing r) o).calls = []) :
    w.step (.answer id turns now luck o) = { w with link := w.link.settle id p e } := by
  have hgo : (Move.resume id (turns + 1) now luck o).goesOn? w.link = some (.processing r, o) := by
    rw [Move.goesOn?, if_pos h.2, h.1]
    rfl
  obtain ⟨-, hno⟩ | ⟨-, -, hno⟩ | ⟨s, hturn, hstage, -⟩ := Move.resume_cases w.link id (turns + 1) now luck o
  · rw [hno] at hgo
    cases hgo
  · rw [hno] at hgo
    cases hgo
  · rw [h.1] at hstage
    cases hstage
    simp only [Loop.step, Beat.turn, Beat.receives?, Beat.rest, Move.receives?, hturn, hgo, hends, hwakes, hcalls,
      Option.toList_none, List.append_nil]

/-- The loop without a task. -/
def without (w : Loop ρ) (id : Nat) : Loop ρ := { w with link := w.link.without id }

/-- However the processor answers, the record's task ends and one counter goes up. -/
theorem Awaits.settles {id turns : Nat} {r : Incoming ρ} (h : w.Awaits id turns r) (now : Nat) (luck : Luck) :
    w.step (.answer id turns now luck .done) = (w.without id).credit 1 0 ∧
    ∀ reason, w.step (.answer id turns now luck (.failed reason)) = (w.without id).credit 0 1 :=
  ⟨h.step_answer now luck (p := 1) (e := 0) rfl rfl rfl,
    fun _ => h.step_answer now luck (p := 0) (e := 1) rfl rfl rfl⟩

/-! ## The whole run -/

/-- What is true of the records at every moment of a run. -/
structure Kept (w : Loop ρ) : Prop where
  /-- The processor has been called once for each of the records received first, in the order of receipt. -/
  inOrder : w.calls <+: w.received
  /-- When no task is ready, it has been called for all of them. -/
  caughtUp : w.ready = [] → w.calls = w.received
  received : w.received.length = w.link.received
  /-- Whether a task is ready or not. -/
  counted : w.link.received = w.link.processed + w.link.processingErrors + w.link.inflight
  /-- Nobody has told a task that handles a record to give up. -/
  spared : ∀ t ∈ w.link.tasks.live, t.stage.isRecord → t.cancelled = false

theorem Sound.kept (h : w.Sound) : w.Kept where
  inOrder := h.calls_within
  caughtUp hready := by
    have hnone : w.link.waiting.map (fun d => (d.1, 0)) = [] := by
      rw [← h.queued, hready, List.filter_nil]
    rw [h.inOrder, List.map_eq_nil_iff.1 hnone, List.map_nil, List.append_nil]
  received := h.received
  counted := h.link.counted
  spared t ht hkind := h.link.spared t (Tasks.mem_among.2 ⟨ht, hkind⟩)

/-- **No record is lost or processed twice.** After any beats the processor has been called for a first part of the
records received, once each and in the order of receipt; every record received is processed, has failed or is under
way; and no task of a record has been told to give up, whoever closed or stopped the connection. Whatever comes next,
the processor is called for all these records by the time that as many tasks have been resumed from the queue as stood
in it. And how a call ends matters to nothing else, then and later: a run goes on without its task, and one more record
or one more error is counted. -/
theorem records_kept (o : Options) (ls : List Listener) (beats : List (Beat ρ)) :
    (run o ls beats).Kept ∧
    (∀ more, (run o ls beats).ready.length ≤ more.countP Beat.isNext →
      (run o ls beats).received <+: (run o ls (beats ++ more)).calls) ∧
    ∀ id turns r now luck reason more, (run o ls beats).Awaits id turns r →
      run o ls (beats ++ .answer id turns now luck .done :: more) =
        (more.foldl step ((run o ls beats).without id)).credit 1 0 ∧
      run o ls (beats ++ .answer id turns now luck (.failed reason) :: more) =
        (more.foldl step ((run o ls beats).without id)).credit 0 1 := by
  have hsound := run_sound o ls beats
  refine ⟨hsound.kept, fun more hlen => ?_, fun id turns r now luck reason more hawaits => ?_⟩
  · rw [run_append]
    exact hsound.served hlen
  · obtain ⟨hdone, hfailed⟩ := hawaits.settles now luck
    constructor
    · rw [run_append, List.foldl_cons, hdone, foldl_step_credit]
    · rw [run_append, List.foldl_cons, hfailed, foldl_step_credit]

/-- Two records arrive; the link is stopped when the processing of the first has begun. -/
def stopInFlight : List (Beat Unit) :=
  [.askAtOnce .start 0 {}, .answer 0 0 0 {} .done, .answer 0 1 0 {} (.version "v"), .answer 0 2 0 {} .done,
    .next 0 {}, .next 0 {}, .answer 2 0 0 {} (.record ⟨(), some 1⟩), .answer 2 1 0 {} (.record ⟨(), some 2⟩),
    .next 0 {}, .askAtOnce .stop 0 {}]

/-- The processor is called for the second record although the link is stopped, and the first one may fail. -/
theorem kept_stopInFlight :
    (run { programs := [] } [] stopInFlight).received = [⟨(), some 1⟩, ⟨(), some 2⟩] ∧
    (run { programs := [] } [] stopInFlight).calls = [⟨(), some 1⟩] ∧
    (run { programs := [] } [] stopInFlight).ready.length ≤ 3 ∧
    (run { programs := [] } [] stopInFlight).Awaits 3 0 ⟨(), some 1⟩ ∧
    (run { programs := [] } [] stopInFlight).received <+:
      (run { programs := [] } [] (stopInFlight ++ List.replicate 3 (.next 0 {}))).calls ∧
    run { programs := [] } [] (stopInFlight ++ [.answer 3 0 0 {} (.failed "no")]) =
      ((run { programs := [] } [] stopInFlight).without 3).credit 0 1 := by
  have hready : (run { programs := [] } [] stopInFlight).ready.length ≤ 3 := by decide +kernel
  have hawaits : (run { programs := [] } [] stopInFlight).Awaits 3 0 ⟨(), some 1⟩ := ⟨by rfl, by decide +kernel⟩
  obtain ⟨-, hserved, hends⟩ := records_kept { programs := [] } [] stopInFlight
  exact ⟨by rfl, by rfl, hready, hawaits, hserved _ hready, (hends 3 0 _ 0 {} "no" [] hawaits).2⟩

end PoolFeed.Link.Loop
