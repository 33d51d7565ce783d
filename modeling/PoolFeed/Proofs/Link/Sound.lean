import PoolFeed.Proofs.Link.Runs

/-!
# What the link knows of its subscription

The link remembers one subscription, one reader and one keeper. `Sound` says that it remembers right:
whoever reads or keeps alive is the task it remembers, at the subscription it remembers, and while it has
a subscription somebody keeps it alive. In the middle of a turn this cannot be said of the task whose
turn it is, which still stands at the stage it came from: `Sound (some me)` leaves that task out, and
finishing or parking it makes the description whole again.
-/

namespace PoolFeed.Link

variable {ρ : Type} {me : Option Nat} {opened : List Nat} {l : Link ρ}

structure Sound (me : Option Nat) (opened : List Nat) (l : Link ρ) : Prop where
  ordered : l.tasks.Ordered
  reads : ∀ id, me ≠ some id → ∀ n, l.readBy id = some n → l.subscription = some n ∧ l.reader = some id
  keeps : ∀ id, me ≠ some id → ∀ n, l.keptBy id = some n → l.subscription = some n ∧ l.keeper = some id
  kept : ∀ n, l.subscription = some n → ∃ id, me ≠ some id ∧ l.keptBy id = some n
  /-- The task of a retry has been created and keeps nothing alive: cancelling it harms nobody. -/
  retry : ∀ id, l.retry = some id → id < l.tasks.next ∧ l.keptBy id = none
  length_le : opened.length ≤ 1
  current : ∀ n ∈ opened, l.subscription = some n

namespace Sound

theorem congr {l' : Link ρ} (h : Sound me opened l) (htasks : l'.tasks = l.tasks)
    (hsub : l'.subscription = l.subscription) (hkeeper : l'.keeper = l.keeper) (hreader : l'.reader = l.reader)
    (hretry : l'.retry = l.retry) : Sound me opened l' := by
  refine ⟨?_, ?_, ?_, ?_, ?_, h.length_le, ?_⟩
  · rw [htasks]
    exact h.ordered
  · simpa only [readBy, htasks, hsub, hreader] using h.reads
  · simpa only [keptBy, htasks, hsub, hkeeper] using h.keeps
  · simpa only [keptBy, htasks, hsub] using h.kept
  · simpa only [keptBy, htasks, hretry] using h.retry
  · simpa only [hsub] using h.current

theorem of_sublist {fewer : List Nat} (h : Sound me opened l) (hs : fewer.Sublist opened) : Sound me fewer l :=
  { h with length_le := Nat.le_trans hs.length_le h.length_le, current := fun n hn => h.current n (hs.subset hn) }

/-- The link when a turn begins, if the task does not keep the subscription alive. -/
theorem except {id : Nat} (h : Sound none opened l) (hid : l.keptBy id = none) : Sound (some id) opened l where
  ordered := h.ordered
  reads i _ := h.reads i nofun
  keeps i _ := h.keeps i nofun
  kept n hn := by
    obtain ⟨i, -, hi⟩ := h.kept n hn
    refine ⟨i, fun e => ?_, hi⟩
    cases e
    rw [hid] at hi
    cases hi
  retry := h.retry
  length_le := h.length_le
  current := h.current

/-! ## Tasks -/

/-- If a turn gives its task a stage without a role, or ends it, nothing has to be left out any more. -/
theorem whole {id : Nat} {ts : Tasks (Stage ρ)} (h : Sound (some id) opened l) (hord : ts.Ordered)
    (hnext : ts.next = l.tasks.next) (hothers : ∀ i, i ≠ id → ts.stage? i = l.tasks.stage? i)
    (hreads : (ts.stage? id).bind Stage.reads = none) (hkeeps : (ts.stage? id).bind Stage.keeps = none) :
    Sound none opened { l with tasks := ts } where
  ordered := hord
  reads i _ n hn := by
    rcases Decidable.em (i = id) with rfl | hi
    · rw [readBy, hreads] at hn
      cases hn
    · refine h.reads i (fun e => hi (Option.some.inj e).symm) n ?_
      rwa [readBy, hothers i hi] at hn
  keeps i _ n hn := by
    rcases Decidable.em (i = id) with rfl | hi
    · rw [keptBy, hkeeps] at hn
      cases hn
    · refine h.keeps i (fun e => hi (Option.some.inj e).symm) n ?_
      rwa [keptBy, hothers i hi] at hn
  kept n hn := by
    obtain ⟨i, hi, hk⟩ := h.kept n hn
    refine ⟨i, nofun, ?_⟩
    rwa [keptBy, hothers i fun e => hi (congrArg some e.symm)]
  retry i hi := by
    obtain ⟨hlt, hk⟩ := h.retry i hi
    refine ⟨hnext.symm ▸ hlt, ?_⟩
    rcases Decidable.em (i = id) with rfl | hne
    · exact hkeeps
    · rwa [keptBy, hothers i hne]
  length_le := h.length_le
  current := h.current

theorem finish {id : Nat} (h : Sound (some id) opened l) : Sound none opened { l with tasks := l.tasks.erase id } := by
  have hnone : (l.tasks.erase id).stage? id = none := by rw [Tasks.stage?_erase, if_pos rfl]
  refine h.whole (h.ordered.erase id) rfl (fun i hi => ?_) ?_ ?_
  · rw [Tasks.stage?_erase, if_neg hi]
  · rw [hnone, Option.bind_none]
  · rw [hnone, Option.bind_none]

theorem park {id : Nat} {s : Stage ρ} (h : Sound (some id) opened l) (hr : s.reads = none) (hk : s.keeps = none) :
    Sound none opened { l with tasks := l.tasks.advance id s } := by
  refine h.whole (h.ordered.advance id s) rfl (fun i hi => ?_) ?_ ?_
  · rw [Tasks.stage?_advance, if_neg hi]
  · rw [Tasks.stage?_advance, if_pos rfl]
    cases l.tasks.stage? id <;> simp [hr]
  · rw [Tasks.stage?_advance, if_pos rfl]
    cases l.tasks.stage? id <;> simp [hk]

/-- Tasks may be exchanged for others in the same roles. -/
theorem recast {ts : Tasks (Stage ρ)} (h : Sound me opened l) (hord : ts.Ordered) (hnext : l.tasks.next ≤ ts.next)
    (hreads : ∀ i, (ts.stage? i).bind Stage.reads = l.readBy i)
    (hkeeps : ∀ i, (ts.stage? i).bind Stage.keeps = l.keptBy i) : Sound me opened { l with tasks := ts } where
  ordered := hord
  reads i hi n hn := h.reads i hi n ((hreads i).symm.trans hn)
  keeps i hi n hn := h.keeps i hi n ((hkeeps i).symm.trans hn)
  kept n hn := by
    obtain ⟨i, hi, hk⟩ := h.kept n hn
    exact ⟨i, hi, (hkeeps i).trans hk⟩
  retry i hi := ⟨Nat.lt_of_lt_of_le (h.retry i hi).1 hnext, (hkeeps i).trans (h.retry i hi).2⟩
  length_le := h.length_le
  current := h.current

/-- A task may go on in the role it has. -/
theorem stay {id : Nat} {s s' : Stage ρ} (h : Sound none opened l) (hs : l.tasks.stage? id = some s)
    (hr : s'.reads = s.reads) (hk : s'.keeps = s.keeps) : Sound none opened { l with tasks := l.tasks.advance id s' } :=
  h.recast (h.ordered.advance id s') (Nat.le_refl _) (Tasks.role_advance hs hr) (Tasks.role_advance hs hk)

theorem spawn {s : Stage ρ} (h : Sound me opened l) (hr : s.reads = none) (hk : s.keeps = none) :
    Sound me opened { l with tasks := l.tasks.spawn s } :=
  h.recast (h.ordered.spawn s) (Nat.le_succ _) (Tasks.role_spawn h.ordered hr) (Tasks.role_spawn h.ordered hk)

/-- Creating the task of a retry. -/
theorem spawnRetry (h : Sound me opened l) :
    Sound me opened { l with tasks := l.tasks.spawn .toRetry, retry := some l.tasks.next } := by
  refine { h.spawn rfl rfl with retry := fun i hi => ?_ }
  cases hi
  refine ⟨Nat.lt_succ_self _, ?_⟩
  rw [keptBy, Tasks.stage?_spawn h.ordered, if_pos rfl]
  rfl

theorem cancelRetry (h : Sound me opened l) : Sound me opened { l with tasks := l.tasks.cancel? l.retry } := by
  refine ⟨h.ordered.cancel? _, fun i hi n hn => h.reads i hi n (Tasks.role_of_cancel? hn).2,
    fun i hi n hn => h.keeps i hi n (Tasks.role_of_cancel? hn).2, fun n hn => ?_, fun i hi => ?_, h.length_le,
    h.current⟩
  · obtain ⟨i, hi, hk⟩ := h.kept n hn
    refine ⟨i, hi, ?_⟩
    rw [keptBy, Tasks.stage?_cancel?, if_neg fun e => ?_]
    · exact hk
    · rw [(h.retry i e).2] at hk
      cases hk
  · refine ⟨(Tasks.next_cancel? _).symm ▸ (h.retry i hi).1, ?_⟩
    rw [keptBy, Tasks.stage?_cancel?, if_pos hi, Option.bind_none]

/-- Once the keeper and the reader are stopped and the subscription is dropped, no role is left. The task
itself need not be stopped. -/
theorem down {id : Nat} (h : Sound (some id) opened l) : Sound (some id) (close opened l.subscription.toList)
    { l with
      tasks := (l.tasks.cancel? l.keeper).cancel? (if l.reader = some id then none else l.reader)
      subscription := none, keeper := none, reader := none } where
  ordered := (h.ordered.cancel? _).cancel? _
  reads i hi n hn := by
    obtain ⟨hne, hn⟩ := Tasks.role_of_cancel? hn
    have hreader := (h.reads i hi n (Tasks.role_of_cancel? hn).2).2
    split at hne
    · rename_i hid
      exact absurd (hid.symm.trans hreader) hi
    · exact absurd hreader hne
  keeps i hi n hn := by
    obtain ⟨hne, hn⟩ := Tasks.role_of_cancel? (Tasks.role_of_cancel? hn).2
    exact absurd (h.keeps i hi n hn).2 hne
  kept := nofun
  retry i hi := by
    refine ⟨by simpa using (h.retry i hi).1, ?_⟩
    refine Option.eq_none_iff_forall_ne_some.2 fun n hn => ?_
    have hold := (Tasks.role_of_cancel? (Tasks.role_of_cancel? hn).2).2
    rw [← keptBy, (h.retry i hi).2] at hold
    cases hold
  length_le := by
    rw [close_current h.length_le h.current]
    exact Nat.zero_le 1
  current n hn := by
    rw [close_current h.length_le h.current] at hn
    cases hn

/-! ## Coming up -/

/-- A link without a subscription takes one, with a keeper and a reader. -/
theorem up {id sub : Nat} (h : Sound (some id) [] l) (hid : id < l.tasks.next) (hsub : l.subscription = none) :
    Sound (some id) [sub]
      { l with
        tasks := (l.tasks.spawn (.toKeep sub)).spawn (.toRead sub), subscription := some sub,
        keeper := some l.tasks.next, reader := some (l.tasks.next + 1) } := by
  have hord := h.ordered.spawn (.toKeep sub)
  have hstage : ∀ i, ((l.tasks.spawn (.toKeep sub)).spawn (.toRead sub)).stage? i =
      if i = l.tasks.next + 1 then some (.toRead sub) else if i = l.tasks.next then some (.toKeep sub)
      else l.tasks.stage? i := fun i => by
    rw [Tasks.stage?_spawn hord, Tasks.stage?_spawn h.ordered]
    rfl
  refine ⟨hord.spawn _, fun i hi n hn => ?_, fun i hi n hn => ?_, fun n hn => ?_, fun i hi => ?_, Nat.le_refl 1,
    fun n hn => ?_⟩
  · rw [readBy, hstage] at hn
    split at hn
    · rename_i e
      cases hn
      exact ⟨rfl, by rw [e]⟩
    · split at hn
      · cases hn
      · have hold := (h.reads i hi n hn).1
        rw [hsub] at hold
        cases hold
  · rw [keptBy, hstage] at hn
    split at hn
    · cases hn
    · split at hn
      · rename_i e
        cases hn
        exact ⟨rfl, by rw [e]⟩
      · have hold := (h.keeps i hi n hn).1
        rw [hsub] at hold
        cases hold
  · cases hn
    refine ⟨l.tasks.next, fun e => absurd (Option.some.inj e) (Nat.ne_of_lt hid), ?_⟩
    rw [keptBy, hstage, if_neg (by omega), if_pos rfl]
    rfl
  · obtain ⟨hlt, hk⟩ := h.retry i hi
    refine ⟨Nat.lt_trans hlt (by simp only [Tasks.spawn]; omega), ?_⟩
    rw [keptBy, hstage, if_neg (by omega), if_neg (by omega)]
    exact hk
  · rw [List.mem_singleton.1 hn]

end Sound

end PoolFeed.Link
