import PoolFeed.Proofs.Link.Records

/-!
# Records in an event loop

| here | there |
| --- | --- |
| `Loop` | the tasks of `_read_loop` and `_process_record` in the queue of the event loop, in the order of `create_task` |

A run of moves lets tasks be resumed in any order. An event loop is stricter: a task that was created, or told to give
up, waits in a queue, and the queue is worked off from its front. What tasks wait for outside comes when it comes, and
in any order. Beside the link the loop keeps two accounts, of the records that readers have received and of those for
which the processor has been called; the link itself only counts them.

`Sound` ties the accounts to the queue: the records received are those that the processor has been called for,
followed by those whose tasks wait in the queue, in the same order. Every beat keeps it (`Sound.step`).
-/

namespace PoolFeed.Link

variable {ρ : Type}

/-! ## The loop -/

structure Loop (ρ : Type) where
  link : Link ρ
  /-- The tasks that have been woken, each with the turn it has come to; the first in is the first out. -/
  ready : List (Nat × Nat) := []
  /-- The records that readers have received. -/
  received : List (Incoming ρ) := []
  /-- The records for which the processor has been called. -/
  calls : List (Incoming ρ) := []

/-- What can happen next. -/
inductive Beat (ρ : Type) where
  | ask (c : Call)
  | askAtOnce (c : Call) (now : Nat) (luck : Luck)
  | askRetry
  /-- The first task of the queue is resumed. -/
  | next (now : Nat) (luck : Luck)
  /-- A task that has had some turns gets what it waits for. -/
  | answer (task turns now : Nat) (luck : Luck) (o : Outcome ρ)

namespace Beat

def turn (w : Loop ρ) : Beat ρ → Turn ρ
  | .ask c => w.link.ask c
  | .askAtOnce c now luck => w.link.askAtOnce c now luck
  | .askRetry => w.link.askRetry
  | .next now luck =>
    match w.ready with
    | [] => ⟨w.link, []⟩
    | (task, turn) :: _ => w.link.resume task turn now luck .done
  | .answer task turns now luck o => w.link.resume task (turns + 1) now luck o

/-- The record that a reader receives. -/
def receives? (w : Loop ρ) : Beat ρ → Option (Incoming ρ)
  | .answer task turns now luck o => (Move.resume task (turns + 1) now luck o).receives? w.link
  | _ => none

/-- What is left of a queue. -/
def rest (ready : List (Nat × Nat)) : Beat ρ → List (Nat × Nat)
  | .next _ _ => ready.tail
  | _ => ready

def isNext : Beat ρ → Bool
  | .next _ _ => true
  | _ => false

theorem rest_sublist (b : Beat ρ) (ready : List (Nat × Nat)) : (b.rest ready).Sublist ready := by
  cases b with
  | next now luck => exact List.tail_sublist ready
  | _ => exact List.Sublist.refl _

theorem length_rest (b : Beat ρ) (ready : List (Nat × Nat)) :
    (b.rest ready).length = ready.length - if b.isNext then 1 else 0 := by
  cases b with
  | next now luck => exact List.length_tail
  | _ => rfl

theorem rest_append (b : Beat ρ) (k : Nat × Nat) (ready more : List (Nat × Nat)) :
    b.rest (k :: ready ++ more) = b.rest (k :: ready) ++ more := by
  cases b <;> rfl

end Beat

namespace Loop

def step (w : Loop ρ) (b : Beat ρ) : Loop ρ where
  link := (b.turn w).link
  ready := b.rest w.ready ++ (b.turn w).wakes
  received := w.received ++ (b.receives? w).toList
  calls := w.calls ++ (b.turn w).calls

/-- A new link after some beats. -/
def run (o : Options) (ls : List Listener) (beats : List (Beat ρ)) : Loop ρ :=
  beats.foldl step { link := { options := o, listeners := ls } }

theorem run_append (o : Options) (ls : List Listener) (beats more : List (Beat ρ)) :
    run o ls (beats ++ more) = more.foldl step (run o ls beats) := List.foldl_append

/-! ## What holds at every moment -/

/-- The tasks of records that have not begun are in the queue, once each and in the order in which the records were
received; for all records received before them the processor has been called. -/
structure Sound (w : Loop ρ) : Prop where
  link : w.link.Accounted
  lt_next : ∀ k ∈ w.ready, k.1 < w.link.tasks.next
  queued : w.ready.filter (w.link.isWaiting ·.1) = w.link.waiting.map fun d => (d.1, 0)
  inOrder : w.received = w.calls ++ w.link.waiting.map (·.2)
  received : w.received.length = w.link.received

theorem sound_new (o : Options) (ls : List Listener) : ({ link := { options := o, listeners := ls } } : Loop ρ).Sound :=
  ⟨accounted_new o ls, nofun, rfl, rfl, rfl⟩

variable {w : Loop ρ}

/-- When the task of a record that waits is the first of the queue, its record is the first of those that wait. -/
theorem Sound.head_begins (h : w.Sound) {id : Nat} {r : Incoming ρ} {rest : List (Nat × Nat)} (q : Request ρ)
    (hs : w.link.tasks.stage? id = some (.toProcess r)) (hready : w.ready = (id, 0) :: rest) :
    w.link.waiting = (id, r) :: (Turn.park ⟨w.link, []⟩ id (.processing r) q).link.waiting ∧
    rest.filter (w.link.isWaiting ·.1) =
      (Turn.park ⟨w.link, []⟩ id (.processing r) q).link.waiting.map (fun d => (d.1, 0)) ∧
    ∀ k ∈ rest, k.1 ≠ id := by
  have hwaits : w.link.isWaiting id := isWaiting_iff.2 ⟨r, mem_waiting_of_stage? hs⟩
  have hqueued := h.queued
  have hbegin := waiting_begin (q := q) h.link.ordered hs
  rw [hready, List.filter_cons_of_pos (by exact hwaits)] at hqueued
  -- The queue holds the tasks of the records that wait in this order, so the first one is this record's.
  match hw : w.link.waiting with
  | [] =>
    rw [hw] at hqueued
    cases hqueued
  | (i, r') :: ds =>
    have hids := waiting_ids h.link.ordered
    rw [hw, List.map_cons] at hqueued hids
    obtain ⟨hhead, hrest⟩ := List.cons.inj hqueued
    obtain ⟨rfl, -⟩ := Prod.mk.inj hhead
    have hother : ∀ d ∈ ds, d.1 ≠ id := fun d hd =>
      Nat.ne_of_gt ((List.pairwise_cons.1 hids).1 d.1 (List.mem_map_of_mem hd))
    have hleft : (Turn.park ⟨w.link, []⟩ id (.processing r) q).link.waiting = ds := by
      rw [hbegin, hw, List.filter_cons_of_neg (by simp), List.filter_eq_self.2 fun d hd => by simpa using hother d hd]
    have hr' := h.link.stage?_of_waiting (hw ▸ List.mem_cons_self)
    rw [hs] at hr'
    cases hr'
    rw [hleft]
    refine ⟨rfl, hrest, fun k hk hkid => ?_⟩
    have hmem : k ∈ rest.filter (w.link.isWaiting ·.1) := List.mem_filter.2 ⟨hk, by rw [hkid]; exact hwaits⟩
    rw [hrest] at hmem
    obtain ⟨d, hd, rfl⟩ := List.mem_map.1 hmem
    exact hother d hd hkid

/-- A task of a record that has not begun is in the queue for its first turn. -/
theorem Sound.head_turn (h : w.Sound) {id turn : Nat} {rest : List (Nat × Nat)} (hready : w.ready = (id, turn) :: rest)
    (hwaits : w.link.isWaiting id) : turn = 0 := by
  have hmem : (id, turn) ∈ w.ready.filter (w.link.isWaiting ·.1) := by
    rw [hready, List.filter_cons_of_pos (by exact hwaits)]
    exact List.mem_cons_self
  rw [h.queued] at hmem
  obtain ⟨d, -, hd⟩ := List.mem_map.1 hmem
  exact (Prod.mk.inj hd).2.symm

/-- What a beat does to the records. -/
inductive Progress (w : Loop ρ) (b : Beat ρ) : Prop
  | aside : (b.turn w).Apart w.link → b.receives? w = none →
      (b.rest w.ready).filter (w.link.isWaiting ·.1) = w.ready.filter (w.link.isWaiting ·.1) → Progress w b
  | received {id sub} r : w.link.tasks.stage? id = some (.reading sub) →
      b.turn w = Turn.recordRead ⟨w.link, []⟩ id sub r → b.receives? w = some r → b.rest w.ready = w.ready →
      Progress w b
  | begun {id} r : w.link.tasks.stage? id = some (.toProcess r) →
      b.turn w = Turn.park ⟨w.link, []⟩ id (.processing r) (.processed r) → b.receives? w = none →
      w.ready = (id, 0) :: b.rest w.ready → Progress w b
  | settled {id r p e} : w.link.tasks.stage? id = some (.processing r) → p + e = 1 →
      (b.turn w).link = w.link.settle id p e → (b.turn w).wakes = [] → (b.turn w).calls = [] → b.receives? w = none →
      (b.rest w.ready).filter (w.link.isWaiting ·.1) = w.ready.filter (w.link.isWaiting ·.1) → Progress w b

theorem Sound.progress (h : w.Sound) (b : Beat ρ) : Progress w b := by
  have hstart := h.link.apart_start
  cases b with
  | ask c => exact .aside (hstart.spawn rfl) rfl rfl
  | askAtOnce c now luck =>
    have hrec := Turn.among_spawn_other w.link.tasks (s := .called c) rfl
    have hspawn := hstart.retask (·.spawn (.called c)) (h.link.ordered.spawn _) (Nat.le_succ _) hrec
    have hme : ∀ t ∈ w.link.records, t.id ≠ w.link.tasks.next := fun t ht =>
      Nat.ne_of_lt (h.link.ordered.lt_next t (Tasks.mem_among.1 ht).1)
    exact .aside (hspawn.call hme now luck c) rfl rfl
  | askRetry => exact .aside (hstart.reconnect none) rfl rfl
  | next now luck =>
    match hready : w.ready with
    | [] =>
      refine .aside ?_ rfl (by rw [hready]; rfl)
      rw [Beat.turn, hready]
      exact hstart
    | (id, turn) :: rest =>
      have hturn : (Beat.next now luck).turn w = w.link.resume id turn now luck .done := by rw [Beat.turn, hready]
      have hrest : (Beat.next now luck : Beat ρ).rest w.ready = rest := by rw [hready]; rfl
      have hskip : w.link.isWaiting id = false →
          rest.filter (w.link.isWaiting ·.1) = w.ready.filter (w.link.isWaiting ·.1) := fun hno => by
        rw [hready, List.filter_cons_of_neg (by simpa using hno)]
      have hpassage := h.link.passage id turn now luck .done
      rw [Move.receives?_done, ← hturn] at hpassage
      generalize ht : (Beat.next now luck).turn w = t at hpassage
      cases hpassage with
      | aside hapart hlate =>
        refine .aside (ht ▸ hapart) rfl (hrest ▸ hskip (Bool.eq_false_iff.2 fun hwaits => ?_))
        exact hlate hwaits (h.head_turn hready hwaits)
      | begun r hs hzero => exact .begun r hs ht rfl (by rw [hrest, hready, hzero])
      | settled hs hone hlink hwakes hcalls =>
        subst ht
        exact .settled hs hone hlink hwakes hcalls rfl (hrest ▸ hskip (h.link.not_isWaiting hs rfl))
  | answer task turns now luck o =>
    have hpassage := h.link.passage task (turns + 1) now luck o
    generalize ht : w.link.resume task (turns + 1) now luck o = t at hpassage
    generalize hgot : (Move.resume task (turns + 1) now luck o).receives? w.link = got at hpassage
    have hturn : (Beat.answer task turns now luck o).turn w = t := ht
    cases hpassage with
    | aside hapart hlate => exact .aside (hturn ▸ hapart) hgot rfl
    | received r hs => exact .received r hs ht hgot rfl
    | begun r hs hzero => cases hzero
    | settled hs hone hlink hwakes hcalls =>
      subst ht
      exact .settled hs hone hlink hwakes hcalls hgot rfl

/-! ## One beat -/

section
variable {b : Beat ρ}

theorem Sound.step_aside (h : w.Sound) (hapart : (b.turn w).Apart w.link) (hgot : b.receives? w = none)
    (hrest : (b.rest w.ready).filter (w.link.isWaiting ·.1) = w.ready.filter (w.link.isWaiting ·.1)) :
    (w.step b).Sound := by
  have hwakes : (b.turn w).wakes.filter (w.link.isWaiting ·.1) = [] := List.filter_eq_nil_iff.2 fun k hk => by
    rw [← isWaiting_congr hapart.waiting, (hapart.wakes k hk).not_isWaiting]
    exact Bool.false_ne_true
  refine ⟨h.link.of_apart hapart, ?_, ?_, ?_, ?_⟩
  · refine List.forall_mem_append.2 ⟨fun k hk => ?_, fun k hk => (hapart.wakes k hk).lt_next⟩
    exact Nat.lt_of_lt_of_le (h.lt_next k ((b.rest_sublist _).subset hk)) hapart.next_le
  · simp only [Loop.step, isWaiting_congr hapart.waiting, hapart.waiting, List.filter_append, hrest, hwakes,
      List.append_nil]
    exact h.queued
  · simp only [Loop.step, hgot, hapart.calls, hapart.waiting, Option.toList_none, List.append_nil]
    exact h.inOrder
  · have hreceived := congrArg Prod.fst hapart.tally
    simp only [Loop.step, hgot, Option.toList_none, List.append_nil]
    exact h.received.trans hreceived.symm

theorem Sound.step_received (h : w.Sound) {id sub : Nat} {r : Incoming ρ}
    (hs : w.link.tasks.stage? id = some (.reading sub)) (hturn : b.turn w = Turn.recordRead ⟨w.link, []⟩ id sub r)
    (hgot : b.receives? w = some r) (hrest : b.rest w.ready = w.ready) : (w.step b).Sound := by
  have hwaiting := waiting_recordRead (r := r) hs h.link.ordered
  have hlink := h.link.recordRead (r := r) hs
  rw [← hturn] at hwaiting hlink
  have hother : w.ready.filter ((b.turn w).link.isWaiting ·.1) = w.ready.filter (w.link.isWaiting ·.1) := by
    refine List.filter_congr fun k hk => ?_
    have hne : w.link.tasks.next ≠ k.1 := Nat.ne_of_gt (h.lt_next k hk)
    rw [isWaiting_concat hwaiting, beq_false_of_ne hne, Bool.or_false]
  have hself : (b.turn w).link.isWaiting w.link.tasks.next := by
    rw [isWaiting_concat hwaiting, beq_self_eq_true, Bool.or_true]
  have hwakes : (b.turn w).wakes = [(w.link.tasks.next, 0)] := by rw [hturn]; rfl
  have hcalls : (b.turn w).calls = [] := by rw [hturn]; rfl
  have hnext : (b.turn w).link.tasks.next = w.link.tasks.next + 1 := by rw [hturn]; rfl
  have hreceived : (b.turn w).link.received = w.link.received + 1 := by rw [hturn]; rfl
  refine ⟨hlink, ?_, ?_, ?_, ?_⟩
  · simp only [Loop.step, hrest, hwakes, hnext]
    refine List.forall_mem_append.2 ⟨fun k hk => Nat.lt_succ_of_lt (h.lt_next k hk), fun k hk => ?_⟩
    rw [List.mem_singleton.1 hk]
    exact Nat.lt_succ_self _
  · simp only [Loop.step, hrest, hwakes, hwaiting, List.filter_append, hother, h.queued, List.map_append]
    rw [List.filter_cons_of_pos (by exact hself)]
    rfl
  · simp [Loop.step, hgot, hcalls, hwaiting, h.inOrder]
  · simp [Loop.step, hgot, hreceived, h.received]

theorem Sound.step_begun (h : w.Sound) {id : Nat} {r : Incoming ρ}
    (hs : w.link.tasks.stage? id = some (.toProcess r))
    (hturn : b.turn w = Turn.park ⟨w.link, []⟩ id (.processing r) (.processed r)) (hgot : b.receives? w = none)
    (hready : w.ready = (id, 0) :: b.rest w.ready) : (w.step b).Sound := by
  obtain ⟨hwaiting, hrest, hother⟩ := h.head_begins (.processed r) hs hready
  have hlink := h.link.begin (q := .processed r) hs
  rw [← hturn] at hwaiting hrest hlink
  have hsame : (b.rest w.ready).filter ((b.turn w).link.isWaiting ·.1) =
      (b.rest w.ready).filter (w.link.isWaiting ·.1) :=
    List.filter_congr fun k hk => (isWaiting_cons hwaiting (hother k hk)).symm
  have hwakes : (b.turn w).wakes = [] := by rw [hturn]; rfl
  have hcalls : (b.turn w).calls = [r] := by rw [hturn]; rfl
  have hnext : (b.turn w).link.tasks.next = w.link.tasks.next := by rw [hturn]; rfl
  have hreceived : (b.turn w).link.received = w.link.received := by rw [hturn]; rfl
  refine ⟨hlink, ?_, ?_, ?_, ?_⟩
  · simp only [Loop.step, hwakes, hnext, List.append_nil]
    exact fun k hk => h.lt_next k ((b.rest_sublist _).subset hk)
  · simp only [Loop.step, hwakes, List.append_nil, hsame, hrest]
  · simp [Loop.step, hgot, hcalls, h.inOrder, hwaiting]
  · simp [Loop.step, hgot, hreceived, h.received]

theorem Sound.step_settled (h : w.Sound) {id p e : Nat} {r : Incoming ρ}
    (hs : w.link.tasks.stage? id = some (.processing r)) (hone : p + e = 1)
    (hlink : (b.turn w).link = w.link.settle id p e) (hwakes : (b.turn w).wakes = []) (hcalls : (b.turn w).calls = [])
    (hgot : b.receives? w = none)
    (hrest : (b.rest w.ready).filter (w.link.isWaiting ·.1) = w.ready.filter (w.link.isWaiting ·.1)) :
    (w.step b).Sound := by
  have hwaiting := waiting_settle (p := p) (e := e) hs h.link
  have haccounted := h.link.settle hs hone
  rw [← hlink] at hwaiting haccounted
  have hnext : (b.turn w).link.tasks.next = w.link.tasks.next := by rw [hlink]; rfl
  have hreceived : (b.turn w).link.received = w.link.received := by rw [hlink]; rfl
  refine ⟨haccounted, ?_, ?_, ?_, ?_⟩
  · simp only [Loop.step, hwakes, hnext, List.append_nil]
    exact fun k hk => h.lt_next k ((b.rest_sublist _).subset hk)
  · simp only [Loop.step, hwakes, List.append_nil, isWaiting_congr hwaiting, hrest, hwaiting, h.queued]
  · simp [Loop.step, hgot, hcalls, hwaiting, h.inOrder]
  · simp [Loop.step, hgot, hreceived, h.received]

theorem Sound.step (h : w.Sound) (b : Beat ρ) : (w.step b).Sound := by
  cases h.progress b with
  | aside hapart hgot hrest => exact h.step_aside hapart hgot hrest
  | received r hs hturn hgot hrest => exact h.step_received hs hturn hgot hrest
  | begun r hs hturn hgot hready => exact h.step_begun hs hturn hgot hready
  | settled hs hone hlink hwakes hcalls hgot hrest => exact h.step_settled hs hone hlink hwakes hcalls hgot hrest

end

theorem Sound.foldl_step (h : w.Sound) (beats : List (Beat ρ)) : (beats.foldl Loop.step w).Sound := by
  induction beats generalizing w with
  | nil => exact h
  | cons b beats ih => exact ih (h.step b)

theorem run_sound (o : Options) (ls : List Listener) (beats : List (Beat ρ)) : (run o ls beats).Sound :=
  (sound_new o ls).foldl_step beats

end Loop

end PoolFeed.Link
