import Mathlib.Data.List.Basic
import PoolFeed.Proofs.Link.Bystanders
import PoolFeed.Proofs.Link.Credit
import PoolFeed.Proofs.Link.Runs

/-!
# What becomes of a record

A record that a reader receives gets a task, which waits for its first turn, calls the processor and ends with the
answer. `Passage` lists what a resumed task can do to the records: nothing, or take one of them a step further.
`Accounted` is what each of these steps keeps; `waiting` lists the records that wait for their first turn.
-/

namespace PoolFeed.Link

variable {ρ : Type} {l : Link ρ} {id : Nat}

/-! ## Records that wait -/

/-- The record of a task that has not begun. -/
def Stage.due? : Stage ρ → Option (Incoming ρ)
  | .toProcess r => some r
  | _ => none

def due? (t : Task (Stage ρ)) : Option (Nat × Incoming ρ) := t.stage.due?.map (t.id, ·)

/-- The records whose processing has not begun, each with the number of its task. -/
def waiting (l : Link ρ) : List (Nat × Incoming ρ) := l.records.filterMap due?

/-- Whether a task is there for a record whose processing has not begun. -/
def isWaiting (l : Link ρ) (id : Nat) : Bool := l.waiting.any (·.1 == id)

theorem due?_eq_some {t : Task (Stage ρ)} {r : Incoming ρ} :
    due? t = some (id, r) ↔ t.id = id ∧ t.stage = .toProcess r := by
  cases hs : t.stage <;> simp [due?, hs, Stage.due?]

theorem isWaiting_congr {l' : Link ρ} (h : l'.waiting = l.waiting) : l'.isWaiting = l.isWaiting := by
  funext id
  rw [isWaiting, h, isWaiting]

theorem isWaiting_cons {l' : Link ρ} {r : Incoming ρ} (h : l.waiting = (id, r) :: l'.waiting) {i : Nat} (hi : i ≠ id) :
    l.isWaiting i = l'.isWaiting i := by
  simp [isWaiting, h, hi.symm]

theorem isWaiting_concat {l' : Link ρ} {r : Incoming ρ} (h : l'.waiting = l.waiting ++ [(id, r)]) (i : Nat) :
    l'.isWaiting i = (l.isWaiting i || id == i) := by
  simp [isWaiting, h]

theorem isWaiting_iff : l.isWaiting id ↔ ∃ r, (id, r) ∈ l.waiting := by
  simp [isWaiting]

theorem mem_waiting {r : Incoming ρ} : (id, r) ∈ l.waiting ↔ ∃ t ∈ l.records, t.id = id ∧ t.stage = .toProcess r := by
  simp only [waiting, List.mem_filterMap, due?_eq_some]

theorem waiting_ids (h : l.tasks.Ordered) : (l.waiting.map (·.1)).Pairwise (· < ·) := by
  have hsub : ∀ ts : List (Task (Stage ρ)), ((ts.filterMap due?).map (·.1)).Sublist (ts.map (·.id)) := by
    intro ts
    induction ts with
    | nil => exact .slnil
    | cons t ts ih =>
      cases hd : due? t with
      | none =>
        rw [List.filterMap_cons_none hd]
        exact ih.cons _
      | some d =>
        rw [List.filterMap_cons_some hd, List.map_cons, List.map_cons, (due?_eq_some.1 hd).1]
        exact ih.cons_cons _
  exact (h.among _).sublist (hsub l.records)

/-! ## Every record is accounted for -/

/-- Every record that was received has been processed, has failed or is under way, and nobody can tell a task that
handles one to give up. -/
structure Accounted (l : Link ρ) : Prop where
  ordered : l.tasks.Ordered
  handles : ∀ id ∈ l.handles, l.Bystander id
  spared : ∀ t ∈ l.records, t.cancelled = false
  /-- A task that has not begun is at its first turn. -/
  fresh : ∀ t ∈ l.records, ∀ r, t.stage = .toProcess r → t.turn = 0
  counted : l.received = l.processed + l.processingErrors + l.records.length

theorem accounted_new (o : Options) (ls : List Listener) :
    ({ options := o, listeners := ls } : Link ρ).Accounted :=
  ⟨Tasks.ordered_empty, nofun, nofun, nofun, rfl⟩

theorem Accounted.stage?_of_mem (h : l.Accounted) {t : Task (Stage ρ)} (ht : t ∈ l.records) :
    l.tasks.stage? t.id = some t.stage := by
  rw [Tasks.stage?, Tasks.find?_of_mem h.ordered (Tasks.mem_among.1 ht).1, Option.bind_some, h.spared t ht]
  rfl

theorem mem_waiting_of_stage? {r : Incoming ρ} (hs : l.tasks.stage? id = some (.toProcess r)) :
    (id, r) ∈ l.waiting := mem_waiting.2 (Tasks.mem_among_of_stage? hs rfl)

theorem Accounted.stage?_of_waiting (h : l.Accounted) {r : Incoming ρ} (hr : (id, r) ∈ l.waiting) :
    l.tasks.stage? id = some (.toProcess r) := by
  obtain ⟨t, ht, rfl, hstage⟩ := mem_waiting.1 hr
  rw [h.stage?_of_mem ht, hstage]

/-- A task at another stage is not there for a record that waits. -/
theorem Accounted.not_isWaiting (h : l.Accounted) {s : Stage ρ} (hs : l.tasks.stage? id = some s)
    (hdue : s.due? = none) : l.isWaiting id = false := by
  refine Bool.eq_false_iff.2 fun hw => ?_
  obtain ⟨r, hr⟩ := isWaiting_iff.1 hw
  rw [h.stage?_of_waiting hr] at hs
  cases hs
  cases hdue

theorem Bystander.not_isWaiting (h : l.Bystander id) : l.isWaiting id = false := by
  refine Bool.eq_false_iff.2 fun hw => ?_
  obtain ⟨r, hr⟩ := isWaiting_iff.1 hw
  obtain ⟨t, ht, hid, -⟩ := mem_waiting.1 hr
  exact h.apart t ht hid

/-! ## Turns apart from the records -/

theorem Accounted.apart_start (h : l.Accounted) : (⟨l, []⟩ : Turn ρ).Apart l where
  ordered := h.ordered
  next_le := Nat.le_refl _
  records := rfl
  handles := h.handles
  actions := nofun
  tally := rfl

theorem Turn.Apart.waiting {t : Turn ρ} (ht : t.Apart l) : t.link.waiting = l.waiting := by
  rw [Link.waiting, ht.records, Link.waiting]

theorem Accounted.of_apart (h : l.Accounted) {t : Turn ρ} (ht : t.Apart l) : t.link.Accounted := by
  have htally := ht.tally
  simp only [tally, Prod.mk.injEq] at htally
  obtain ⟨hreceived, hprocessed, herrors⟩ := htally
  refine ⟨ht.ordered, ht.handles, ?_, ?_, ?_⟩
  · rw [ht.records]
    exact h.spared
  · rw [ht.records]
    exact h.fresh
  · rw [hreceived, hprocessed, herrors, ht.records]
    exact h.counted

/-! ## A record is received -/

section
variable {sub : Nat} {r : Incoming ρ} (hs : l.tasks.stage? id = some (.reading sub))

include hs

theorem records_recordRead (h : l.tasks.Ordered) : (Turn.recordRead ⟨l, []⟩ id sub r).link.records =
    l.records ++ [{ id := l.tasks.next, stage := .toProcess r }] := by
  have hspawn : (l.tasks.spawn (.toProcess r)).among Stage.isRecord =
      l.records ++ [{ id := l.tasks.next, stage := .toProcess r }] := Tasks.among_spawn _
  have hother : ∀ t ∈ (l.tasks.spawn (.toProcess r)).among Stage.isRecord, t.id ≠ id := by
    rw [hspawn]
    refine List.forall_mem_append.2 ⟨Tasks.ne_of_mem_among h hs rfl, fun t ht => ?_⟩
    rw [List.mem_singleton.1 ht]
    exact Nat.ne_of_gt (Tasks.lt_next_of_stage? h hs)
  exact (Tasks.among_advance hother rfl).trans hspawn

theorem waiting_recordRead (h : l.tasks.Ordered) :
    (Turn.recordRead ⟨l, []⟩ id sub r).link.waiting = l.waiting ++ [(l.tasks.next, r)] := by
  rw [waiting, records_recordRead hs h, List.filterMap_append]
  rfl

theorem Accounted.recordRead (h : l.Accounted) : (Turn.recordRead ⟨l, []⟩ id sub r).link.Accounted := by
  have hrec := records_recordRead (r := r) hs h.ordered
  refine ⟨(h.ordered.spawn _).advance id _, fun i hi => ?_, ?_, ?_, ?_⟩
  · have hold := h.handles i hi
    refine ⟨Nat.lt_succ_of_lt hold.lt_next, ?_⟩
    rw [hrec]
    refine List.forall_mem_append.2 ⟨hold.apart, fun t ht => ?_⟩
    rw [List.mem_singleton.1 ht]
    exact Nat.ne_of_gt hold.lt_next
  · rw [hrec]
    exact List.forall_mem_append.2 ⟨h.spared, fun t ht => List.mem_singleton.1 ht ▸ rfl⟩
  · rw [hrec]
    exact List.forall_mem_append.2 ⟨h.fresh, fun t ht _ _ => List.mem_singleton.1 ht ▸ rfl⟩
  · rw [hrec, List.length_append]
    show l.received + 1 = l.processed + l.processingErrors + (l.records.length + 1)
    rw [h.counted]
    rfl

end

/-! ## Its processing begins -/

section
variable {r : Incoming ρ} {q : Request ρ}

theorem records_begin (h : l.tasks.Ordered) (hs : l.tasks.stage? id = some (.toProcess r)) :
    (Turn.park ⟨l, []⟩ id (.processing r) q).link.records = l.records.map fun t =>
      if t.id = id then { t with turn := l.tasks.nextTurn id, stage := .processing r } else t :=
  Tasks.among_advance_within h hs rfl rfl

theorem waiting_begin (h : l.tasks.Ordered) (hs : l.tasks.stage? id = some (.toProcess r)) :
    (Turn.park ⟨l, []⟩ id (.processing r) q).link.waiting = l.waiting.filter (·.1 != id) := by
  have hone : ∀ t : Task (Stage ρ),
      due? (if t.id = id then { t with turn := l.tasks.nextTurn id, stage := .processing r } else t) =
        (due? t).filter (·.1 != id) := by
    intro t
    simp only [due?]
    by_cases hid : t.id = id
    · rw [if_pos hid]
      show none = (t.stage.due?.map (t.id, ·)).filter (·.1 != id)
      cases t.stage.due? <;> simp [Option.filter, hid]
    · rw [if_neg hid]
      cases t.stage.due? <;> simp [Option.filter, hid]
  rw [waiting, records_begin h hs, List.filterMap_map, waiting, List.filter_filterMap]
  exact List.filterMap_congr fun t _ => hone t

theorem Accounted.begin (h : l.Accounted) (hs : l.tasks.stage? id = some (.toProcess r)) :
    (Turn.park ⟨l, []⟩ id (.processing r) q).link.Accounted := by
  have hrec := records_begin (q := q) h.ordered hs
  refine ⟨h.ordered.advance id _, fun i hi => ⟨(h.handles i hi).lt_next, ?_⟩, ?_, ?_, ?_⟩ <;> rw [hrec]
  · refine List.forall_mem_map.2 fun t ht => ?_
    have hold := (h.handles i hi).apart t ht
    split <;> exact hold
  · refine List.forall_mem_map.2 fun t ht => ?_
    split <;> exact h.spared t ht
  · refine List.forall_mem_map.2 fun t ht r' hr => ?_
    split at hr
    · cases hr
    · rw [if_neg ‹_›]
      exact h.fresh t ht r' hr
  · rw [List.length_map]
    exact h.counted

end

/-! ## It has been processed or has failed -/

/-- The link without a task. -/
def without (l : Link ρ) (id : Nat) : Link ρ := { l with tasks := l.tasks.erase id }

/-- The link when the processing of a record is over. -/
def settle (l : Link ρ) (id p e : Nat) : Link ρ := (l.without id).credit p e

section
variable {r : Incoming ρ} {p e : Nat} (hs : l.tasks.stage? id = some (.processing r))

include hs

theorem waiting_settle (h : l.Accounted) : (l.settle id p e).waiting = l.waiting := by
  have hrec : (l.settle id p e).records = l.records.filter (·.id != id) := Tasks.among_erase_self _ _ _
  rw [waiting, hrec, List.filterMap_filter, waiting]
  refine List.filterMap_congr fun t ht => ?_
  by_cases hid : t.id = id
  · have hstage := h.stage?_of_mem ht
    rw [hid, hs] at hstage
    simp [hid, due?, ← Option.some.inj hstage, Stage.due?]
  · simp [hid]

theorem Accounted.settle (h : l.Accounted) (hone : p + e = 1) : (l.settle id p e).Accounted := by
  have hsub : (l.settle id p e).records.Sublist l.records := by
    rw [show (l.settle id p e).records = l.records.filter (·.id != id) from Tasks.among_erase_self _ _ _]
    exact List.filter_sublist
  refine ⟨h.ordered.erase id, fun i hi => ?_, fun t ht => h.spared t (hsub.subset ht),
    fun t ht => h.fresh t (hsub.subset ht), ?_⟩
  · exact ⟨(h.handles i hi).lt_next, fun t ht => (h.handles i hi).apart t (hsub.subset ht)⟩
  · obtain ⟨t, ht, rfl, -⟩ := Tasks.mem_among_of_stage? (p := Stage.isRecord) hs rfl
    have hlen : (l.settle t.id p e).records.length + 1 = l.records.length := Tasks.length_among_erase h.ordered ht
    show l.received = l.processed + p + (l.processingErrors + e) + (l.settle t.id p e).records.length
    have hcounted := h.counted
    omega

end

/-! ## What a resumed task does to the records -/

/-- The tasks a turn has woken, each with the turn it has come to. -/
def Action.wake? : Action ρ → Option (Nat × Nat)
  | .wake id turn => some (id, turn)
  | _ => none

/-- The record for which an action calls the processor. -/
def Action.called? : Action ρ → Option (Incoming ρ)
  | .await _ _ (.processed r) => some r
  | _ => none

def Turn.wakes (t : Turn ρ) : List (Nat × Nat) := t.actions.filterMap Action.wake?

/-- The records for which a turn has called the processor. -/
def Turn.calls (t : Turn ρ) : List (Incoming ρ) := t.actions.filterMap Action.called?

theorem Turn.Apart.wakes {t : Turn ρ} (ht : t.Apart l) : ∀ k ∈ t.wakes, t.link.Bystander k.1 := by
  intro k hk
  obtain ⟨a, ha, hwake⟩ := List.mem_filterMap.1 hk
  have havoids := ht.actions a ha
  cases a with
  | wake id turn =>
    cases hwake
    exact havoids
  | _ => cases hwake

theorem Turn.Apart.calls {t : Turn ρ} (ht : t.Apart l) : t.calls = [] := by
  refine List.filterMap_eq_nil_iff.2 fun a ha => ?_
  have havoids := ht.actions a ha
  cases a with
  | await id turn q =>
    cases q with
    | processed r => exact havoids.elim
    | _ => rfl
  | _ => rfl

/-- The record that a reader receives when it is resumed. -/
def Move.receives? (l : Link ρ) (m : Move ρ) : Option (Incoming ρ) :=
  match m.goesOn? l with
  | some (.reading _, .record r) => some r
  | _ => none

theorem Move.receives?_done (l : Link ρ) (id turn now : Nat) (luck : Luck) :
    (Move.resume id turn now luck .done).receives? l = none := by
  simp only [receives?]
  split
  · rename_i hgo
    simp only [goesOn?] at hgo
    split at hgo
    · obtain ⟨s, -, hpair⟩ := Option.map_eq_some_iff.1 hgo
      cases hpair
    · cases hgo
  · rfl

/-- What a task does to the records when it is resumed at a turn: it may have received one. -/
inductive Passage (l : Link ρ) (id turn : Nat) : Option (Incoming ρ) → Turn ρ → Prop
  | aside {t} : t.Apart l → (l.isWaiting id → turn ≠ 0) → Passage l id turn none t
  | received {sub} r : l.tasks.stage? id = some (.reading sub) →
      Passage l id turn (some r) (Turn.recordRead ⟨l, []⟩ id sub r)
  | begun r : l.tasks.stage? id = some (.toProcess r) → turn = 0 →
      Passage l id turn none (Turn.park ⟨l, []⟩ id (.processing r) (.processed r))
  | settled {r p e t} : l.tasks.stage? id = some (.processing r) → p + e = 1 → t.link = l.settle id p e →
      t.wakes = [] → t.calls = [] → Passage l id turn none t

/-- A task that has not begun goes on at its first turn, whatever the outcome. -/
theorem Accounted.goesOn_of_isWaiting (h : l.Accounted) (hw : l.isWaiting id) (now : Nat) (luck : Luck)
    (o : Outcome ρ) : ∃ r, (Move.resume id 0 now luck o).goesOn? l = some (.toProcess r, o) := by
  obtain ⟨r, hr⟩ := isWaiting_iff.1 hw
  obtain ⟨t, ht, rfl, hstage⟩ := mem_waiting.1 hr
  refine ⟨r, ?_⟩
  have hfind := Tasks.find?_of_mem h.ordered (Tasks.mem_among.1 ht).1
  simp [Move.goesOn?, Tasks.waitsAt, hfind, h.fresh t ht r hstage, h.spared t ht, h.stage?_of_mem ht, hstage]

/-- And at no other. -/
theorem Accounted.turn_eq_zero (h : l.Accounted) {turn now : Nat} {luck : Luck} {o : Outcome ρ} {r : Incoming ρ}
    (hgo : (Move.resume id turn now luck o).goesOn? l = some (.toProcess r, o)) : turn = 0 := by
  simp only [Move.goesOn?] at hgo
  split at hgo
  · rename_i hwaits
    cases hfind : l.tasks.find? id with
    | none => simp [Tasks.waitsAt, hfind] at hwaits
    | some t =>
      simp only [Tasks.waitsAt, hfind, Option.any_some, Bool.and_eq_true, beq_iff_eq, Bool.not_eq_true'] at hwaits
      have hstage : t.stage = .toProcess r := by simpa [Tasks.stage?, hfind, hwaits.2] using hgo
      rw [← hwaits.1]
      exact h.fresh t (Tasks.mem_among.2 ⟨Tasks.mem_of_find? hfind, by rw [hstage]; rfl⟩) r hstage
  · cases hgo

theorem Accounted.passage (h : l.Accounted) (id turn now : Nat) (luck : Luck) (o : Outcome ρ) :
    Passage l id turn ((Move.resume id turn now luck o).receives? l) (l.resume id turn now luck o) := by
  have hlate : (∀ r, (Move.resume id turn now luck o).goesOn? l ≠ some (.toProcess r, o)) →
      l.isWaiting id → turn ≠ 0 := by
    rintro hno hw rfl
    obtain ⟨r, hr⟩ := h.goesOn_of_isWaiting hw now luck o
    exact hno r hr
  obtain ⟨hr, hgo⟩ | ⟨hr, hs, hgo⟩ | ⟨s, hr, hs, hgo⟩ := Move.resume_cases l id turn now luck o
  -- It comes too late.
  · rw [hr, Move.receives?, hgo]
    exact .aside h.apart_start (hlate (by rw [hgo]; exact fun _ => nofun))
  -- It gives up, and so it handles no record.
  · have hme : ∀ t ∈ l.records, t.id ≠ id := by
      rintro t ht rfl
      rw [h.stage?_of_mem ht] at hs
      cases hs
    rw [hr, Move.receives?, hgo]
    exact .aside (h.apart_start.finish hme _) (hlate (by rw [hgo]; exact fun _ => nofun))
  · have haside : s.isRecord = false → (∀ sub r, s = .reading sub → o ≠ .record r) →
        Passage l id turn none (Turn.goOn ⟨l, []⟩ id now luck s o) := by
      intro hkind hread
      refine .aside (Turn.goOn_apart (Tasks.ne_of_mem_among h.ordered hs hkind) h.apart_start hkind hread now luck)
        (hlate fun r hto => ?_)
      rw [hgo] at hto
      cases hto
      cases hkind
    rw [hr, Move.receives?, hgo]
    cases s with
    | reading sub =>
      cases o with
      | record r => exact .received r hs
      | done | version text | failed reason | ended => exact haside rfl nofun
    | toProcess r => exact .begun r hs (h.turn_eq_zero hgo)
    | processing r =>
      cases o with
      | done => exact .settled hs (p := 1) (e := 0) rfl rfl rfl rfl
      | failed reason => exact .settled hs (p := 0) (e := 1) rfl rfl rfl rfl
      | version text | record r' | ended =>
        exact .aside h.apart_start (hlate (by rw [hgo]; exact fun _ => nofun))
    | _ => exact haside rfl nofun

end PoolFeed.Link
