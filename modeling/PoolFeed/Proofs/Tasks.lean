import PoolFeed.Tasks

/-!
# Where tasks stand

The numbers of the tasks that have not ended increase along the list and stay below the next one
(`Ordered`). `stage?` is the stage of a task that has neither ended nor been told to give up: every
operation changes it at one number only, so a machine can be described one task at a time. `standing`
collects such tasks by what they do; `standing_length_le_one` and `two_le_standing` count them from
`stage?`. `Vacant` says that nobody stands at a stage of a kind, one task perhaps left out. `among` lists the tasks of
a kind whether they have been told to give up or not. `Only` says that at most one given task is of a kind.
-/

namespace PoolFeed.Tasks

variable {σ : Type} {ts : Tasks σ}

/-- The stage of a task that has neither ended nor been told to give up. -/
def stage? (ts : Tasks σ) (id : Nat) : Option σ :=
  (ts.find? id).bind fun t => if t.cancelled then none else some t.stage

/-- The tasks that stand at a stage of a kind and have not been told to give up. -/
def standing (ts : Tasks σ) (p : σ → Bool) : List (Task σ) :=
  ts.live.filter fun t => !t.cancelled && p t.stage

/-- Tells a task to give up, if one is named. -/
def cancel? (ts : Tasks σ) (id : Option Nat) : Tasks σ := id.elim ts ts.cancel

/-- Tasks are listed in order of creation. -/
structure Ordered (ts : Tasks σ) : Prop where
  increasing : (ts.live.map (·.id)).Pairwise (· < ·)
  lt_next : ∀ t ∈ ts.live, t.id < ts.next

theorem ordered_empty : Ordered ({} : Tasks σ) := ⟨List.Pairwise.nil, fun _ h => absurd h List.not_mem_nil⟩

/-! ## Finding -/

theorem id_of_find? {id : Nat} {t : Task σ} (h : ts.find? id = some t) : t.id = id := by
  simpa using List.find?_some h

theorem mem_of_find? {id : Nat} {t : Task σ} (h : ts.find? id = some t) : t ∈ ts.live := List.mem_of_find?_eq_some h

theorem find?_of_mem (h : ts.Ordered) {t : Task σ} (ht : t ∈ ts.live) : ts.find? t.id = some t := by
  have hp := List.pairwise_map.1 h.increasing
  obtain ⟨as, bs, hab⟩ := List.append_of_mem ht
  rw [hab, List.pairwise_append] at hp
  rw [find?, hab, List.find?_append, List.find?_cons_of_pos (by simp), Option.or_eq_right_of_none]
  rw [List.find?_eq_none]
  intro u hu
  have hlt := hp.2.2 u hu t List.mem_cons_self
  simp only [beq_iff_eq]
  omega

theorem find?_next (h : ts.Ordered) {id : Nat} (hid : ts.next ≤ id) : ts.find? id = none := by
  rw [find?, List.find?_eq_none]
  intro t ht
  have hlt := h.lt_next t ht
  simp only [beq_iff_eq]
  omega

theorem lt_next_of_find? (h : ts.Ordered) {id : Nat} {t : Task σ} (ht : ts.find? id = some t) : id < ts.next :=
  id_of_find? ht ▸ h.lt_next t (mem_of_find? ht)

theorem find?_modify {f : Task σ → Task σ} (hf : ∀ t, (f t).id = t.id) (id i : Nat) :
    (ts.modify id f).find? i = if i = id then (ts.find? i).map f else ts.find? i := by
  have hid : ∀ t : Task σ, (if t.id = id then f t else t).id = t.id := fun t => by split <;> simp [hf]
  simp only [find?, modify, List.find?_map, Function.comp_def, hid]
  cases ht : ts.live.find? (·.id == i) with
  | none => simp
  | some t =>
    have : t.id = i := by simpa using List.find?_some ht
    simp only [Option.map_some, this]
    split <;> rfl

theorem find?_erase (id i : Nat) : (ts.erase id).find? i = if i = id then none else ts.find? i := by
  simp only [find?, erase, List.find?_filter]
  by_cases h : i = id
  · subst h
    simp
  · rw [if_neg h]
    congr 1
    funext t
    by_cases ht : t.id = i
    · simp [ht, h]
    · simp [ht]

theorem find?_of_erase {id i : Nat} {t : Task σ} (h : (ts.erase id).find? i = some t) : i ≠ id ∧ ts.find? i = some t := by
  rw [find?_erase] at h
  split at h
  · cases h
  · exact ⟨‹_›, h⟩

theorem find?_spawn (h : ts.Ordered) (s : σ) (i : Nat) :
    (ts.spawn s).find? i = if i = ts.next then some { id := ts.next, stage := s } else ts.find? i := by
  simp only [find?, spawn, List.find?_append, List.find?_singleton]
  by_cases hi : i = ts.next
  · subst hi
    have hn := find?_next h (Nat.le_refl ts.next)
    rw [find?] at hn
    simp [hn]
  · have hne : ¬ts.next = i := fun e => hi e.symm
    simp [hi, hne]

theorem find?_of_spawn (hord : ts.Ordered) {s : σ} {i : Nat} {t : Task σ} (h : (ts.spawn s).find? i = some t) :
    (i = ts.next ∧ t = { id := ts.next, stage := s }) ∨ ts.find? i = some t := by
  rw [find?_spawn hord] at h
  split at h
  · exact .inl ⟨‹_›, (Option.some.inj h).symm⟩
  · exact .inr h

theorem nextTurn_of_find? {id : Nat} {t : Task σ} (ht : ts.find? id = some t) : ts.nextTurn id = t.turn + 1 := by
  rw [nextTurn, ht, Option.elim_some]

theorem find?_advance (id : Nat) (s : σ) (i : Nat) : (ts.advance id s).find? i =
    if i = id then (ts.find? i).map fun t => { t with turn := t.turn + 1, stage := s } else ts.find? i := by
  rw [advance, find?_modify]
  · split
    · rename_i hi
      subst hi
      cases ht : ts.find? i with
      | none => rfl
      | some t => simp only [nextTurn_of_find? ht, Option.map_some]
    · rfl
  · exact fun _ => rfl

theorem find?_advance_self {id : Nat} {t : Task σ} (ht : ts.find? id = some t) (s : σ) :
    (ts.advance id s).find? id = some { t with turn := t.turn + 1, stage := s } := by
  rw [find?_advance, if_pos rfl, ht, Option.map_some]

theorem find?_cancel (id i : Nat) : (ts.cancel id).find? i =
    if i = id then (ts.find? i).map fun t => { t with cancelled := true } else ts.find? i := by
  rw [cancel, find?_modify]
  exact fun _ => rfl

theorem cancel_of_find?_none {id : Nat} (h : ts.find? id = none) : ts.cancel id = ts := by
  rw [find?, List.find?_eq_none] at h
  have hmap : (ts.live.map fun t => if t.id = id then { t with cancelled := true } else t) = ts.live.map fun t => t :=
    List.map_congr_left fun t ht => if_neg fun e => h t ht (by simp [e])
  rw [cancel, modify, hmap, List.map_id']

/-! ## Order -/

theorem Ordered.modify (h : ts.Ordered) {f : Task σ → Task σ} (hf : ∀ t, (f t).id = t.id) (id : Nat) :
    (ts.modify id f).Ordered := by
  have hid : ∀ t : Task σ, (if t.id = id then f t else t).id = t.id := fun t => by split <;> simp [hf]
  refine ⟨?_, fun t ht => ?_⟩
  · simpa [Tasks.modify, Function.comp_def, hid] using h.increasing
  · obtain ⟨u, hu, rfl⟩ := List.mem_map.1 ht
    rw [hid]
    exact h.lt_next u hu

theorem Ordered.cancel (h : ts.Ordered) (id : Nat) : (ts.cancel id).Ordered := by
  rw [Tasks.cancel]
  refine h.modify (fun _ => ?_) id
  rfl

theorem Ordered.cancel? (h : ts.Ordered) : ∀ id, (ts.cancel? id).Ordered
  | none => h
  | some id => h.cancel id

theorem Ordered.advance (h : ts.Ordered) (id : Nat) (s : σ) : (ts.advance id s).Ordered := by
  rw [Tasks.advance]
  refine h.modify (fun _ => ?_) id
  rfl

theorem Ordered.erase (h : ts.Ordered) (id : Nat) : (ts.erase id).Ordered :=
  ⟨h.increasing.sublist (List.filter_sublist.map _), fun t ht => h.lt_next t (List.mem_filter.1 ht).1⟩

theorem Ordered.spawn (h : ts.Ordered) (s : σ) : (ts.spawn s).Ordered := by
  refine ⟨?_, fun t ht => ?_⟩
  · simp only [Tasks.spawn, List.map_append, List.map_cons, List.map_nil, List.pairwise_append]
    refine ⟨h.increasing, List.pairwise_singleton _ _, fun a ha b hb => ?_⟩
    obtain ⟨t, ht, rfl⟩ := List.mem_map.1 ha
    rw [List.mem_singleton.1 hb]
    exact h.lt_next t ht
  · show t.id < ts.next + 1
    rcases List.mem_append.1 ht with ht | ht
    · exact Nat.lt_succ_of_lt (h.lt_next t ht)
    · rw [List.mem_singleton.1 ht]
      exact Nat.lt_succ_self _

/-! ## Stages -/

theorem stage?_cancel (id i : Nat) : (ts.cancel id).stage? i = if i = id then none else ts.stage? i := by
  rw [stage?, find?_cancel]
  split
  · cases ts.find? i <;> rfl
  · rfl

theorem stage?_cancel? (i : Nat) : ∀ id, (ts.cancel? id).stage? i = if id = some i then none else ts.stage? i
  | none => rfl
  | some id => by simp only [cancel?, Option.elim_some, stage?_cancel, Option.some.injEq, eq_comm]

@[simp] theorem next_cancel? : ∀ id, (ts.cancel? id).next = ts.next
  | none => rfl
  | some _ => rfl

theorem stage?_erase (id i : Nat) : (ts.erase id).stage? i = if i = id then none else ts.stage? i := by
  rw [stage?, find?_erase]
  split <;> rfl

theorem stage?_spawn (h : ts.Ordered) (s : σ) (i : Nat) :
    (ts.spawn s).stage? i = if i = ts.next then some s else ts.stage? i := by
  rw [stage?, find?_spawn h]
  split <;> rfl

theorem stage?_spawn_self (h : ts.Ordered) (s : σ) : (ts.spawn s).stage? ts.next = some s := by
  rw [stage?_spawn h, if_pos rfl]

theorem stage?_advance (id : Nat) (s : σ) (i : Nat) :
    (ts.advance id s).stage? i = if i = id then (ts.stage? i).map fun _ => s else ts.stage? i := by
  rw [stage?, advance, find?_modify, stage?]
  · split
    · cases ts.find? i with
      | none => rfl
      | some t => cases hc : t.cancelled <;> simp [hc]
    · rfl
  · exact fun _ => rfl

theorem stage?_advance_self {id : Nat} {s : σ} (hs : ts.stage? id = some s) (s' : σ) :
    (ts.advance id s').stage? id = some s' := by
  rw [stage?_advance, if_pos rfl, hs, Option.map_some]

theorem stage?_next (h : ts.Ordered) {id : Nat} (hid : ts.next ≤ id) : ts.stage? id = none := by
  rw [stage?, find?_next h hid, Option.bind_none]

theorem find?_of_stage? {id : Nat} {s : σ} (hs : ts.stage? id = some s) :
    ∃ t, ts.find? id = some t ∧ t.stage = s ∧ t.cancelled = false := by
  rw [stage?] at hs
  obtain ⟨t, ht, hc⟩ := Option.bind_eq_some_iff.1 hs
  split at hc
  · cases hc
  · exact ⟨t, ht, Option.some.inj hc, Bool.eq_false_iff.2 ‹_›⟩

theorem stage?_of_find? {id : Nat} {t : Task σ} (ht : ts.find? id = some t) :
    ts.stage? id = if t.cancelled then none else some t.stage := by rw [stage?, ht, Option.bind_some]

theorem stage_of_mem (h : ts.Ordered) {t : Task σ} (ht : t ∈ ts.live) {s : σ} (hs : ts.stage? t.id = some s) :
    t.stage = s ∧ t.cancelled = false := by
  rw [stage?, find?_of_mem h ht, Option.bind_some] at hs
  split at hs
  · cases hs
  · exact ⟨Option.some.inj hs, Bool.eq_false_iff.2 ‹_›⟩

theorem lt_next_of_stage? (h : ts.Ordered) {id : Nat} {s : σ} (hs : ts.stage? id = some s) : id < ts.next := by
  rcases Nat.lt_or_ge id ts.next with hid | hid
  · exact hid
  · rw [stage?_next h hid] at hs
    cases hs

/-! What a task that stands after an operation was before it. -/

theorem stage?_of_cancel? {id : Option Nat} {i : Nat} {s : σ} (h : (ts.cancel? id).stage? i = some s) :
    id ≠ some i ∧ ts.stage? i = some s := by
  rw [stage?_cancel?] at h
  split at h
  · cases h
  · exact ⟨‹_›, h⟩

theorem stage?_of_erase {id i : Nat} {s : σ} (h : (ts.erase id).stage? i = some s) : i ≠ id ∧ ts.stage? i = some s := by
  rw [stage?_erase] at h
  split at h
  · cases h
  · exact ⟨‹_›, h⟩

theorem stage?_of_spawn (hord : ts.Ordered) {s' : σ} {i : Nat} {s : σ} (h : (ts.spawn s').stage? i = some s) :
    (i = ts.next ∧ s = s') ∨ ts.stage? i = some s := by
  rw [stage?_spawn hord] at h
  split at h
  · cases h
    exact .inl ⟨‹_›, rfl⟩
  · exact .inr h

/-- A task that stands somewhere stands there when another is begun. -/
theorem stage?_spawn_of_some (hord : ts.Ordered) {i : Nat} {s : σ} (hs : ts.stage? i = some s) (s' : σ) :
    (ts.spawn s').stage? i = some s := by
  rw [stage?_spawn hord, if_neg (Nat.ne_of_lt (lt_next_of_stage? hord hs))]
  exact hs

theorem stage?_of_advance {id : Nat} {s' : σ} {i : Nat} {s : σ} (h : (ts.advance id s').stage? i = some s) :
    (i = id ∧ s = s') ∨ (i ≠ id ∧ ts.stage? i = some s) := by
  rw [stage?_advance] at h
  split at h
  · obtain ⟨-, -, rfl⟩ := Option.map_eq_some_iff.1 h
    exact .inl ⟨‹_›, rfl⟩
  · exact .inr ⟨‹_›, h⟩

/-! ## Roles

A role is read off a stage; a task without a role is as good as none. -/

section
variable {α : Type} {role : σ → Option α}

theorem role_advance {id : Nat} {s s' : σ} (hs : ts.stage? id = some s) (hrole : role s' = role s) (i : Nat) :
    ((ts.advance id s').stage? i).bind role = (ts.stage? i).bind role := by
  rw [stage?_advance]
  split
  · rename_i e
    rw [e, hs, Option.map_some, Option.bind_some, Option.bind_some, hrole]
  · rfl

theorem role_spawn (h : ts.Ordered) {s : σ} (hrole : role s = none) (i : Nat) :
    ((ts.spawn s).stage? i).bind role = (ts.stage? i).bind role := by
  rw [stage?_spawn h]
  split
  · rename_i e
    rw [e, stage?_next h (Nat.le_refl _), Option.bind_some, Option.bind_none, hrole]
  · rfl

/-- A task without a role may end. -/
theorem role_erase {id : Nat} (h : (ts.stage? id).bind role = none) (i : Nat) :
    ((ts.erase id).stage? i).bind role = (ts.stage? i).bind role := by
  rw [stage?_erase]
  split
  · rename_i e
    rw [e, h, Option.bind_none]
  · rfl

theorem role_of_cancel? {id : Option Nat} {i : Nat} {a : α} (h : ((ts.cancel? id).stage? i).bind role = some a) :
    id ≠ some i ∧ (ts.stage? i).bind role = some a := by
  rw [stage?_cancel?] at h
  split at h
  · cases h
  · rename_i hi
    exact ⟨hi, h⟩

end

/-! ## Counting -/

section
variable {p : σ → Bool}

theorem stage?_of_mem_standing (h : ts.Ordered) {t : Task σ} (ht : t ∈ ts.standing p) :
    ts.stage? t.id = some t.stage ∧ p t.stage := by
  obtain ⟨hl, hk⟩ := List.mem_filter.1 ht
  simp only [Bool.and_eq_true, Bool.not_eq_true'] at hk
  refine ⟨?_, hk.2⟩
  rw [stage?, find?_of_mem h hl]
  simp [hk.1]

theorem mem_standing {id : Nat} {s : σ} (hs : ts.stage? id = some s) (hk : p s) :
    ∃ t ∈ ts.standing p, t.id = id ∧ t.stage = s := by
  rw [stage?] at hs
  obtain ⟨t, ht, hc⟩ := Option.bind_eq_some_iff.1 hs
  split at hc
  · cases hc
  · rename_i hn
    cases hc
    exact ⟨t, List.mem_filter.2 ⟨mem_of_find? ht, by simp [hn, hk]⟩, id_of_find? ht, rfl⟩

/-- At most one task stands at a stage of a kind if all that do have one number. -/
theorem standing_length_le_one (h : ts.Ordered)
    (hone : ∀ i j s u, ts.stage? i = some s → ts.stage? j = some u → p s → p u → i = j) :
    (ts.standing p).length ≤ 1 := by
  have hp : (ts.standing p).Pairwise fun t u => t.id < u.id :=
    (List.pairwise_map.1 h.increasing).sublist List.filter_sublist
  match hs : ts.standing p with
  | [] => exact Nat.zero_le 1
  | [_] => exact Nat.le_refl 1
  | t :: u :: _ =>
    have ht := stage?_of_mem_standing (p := p) h (t := t) (by rw [hs]; simp)
    have hu := stage?_of_mem_standing (p := p) h (t := u) (by rw [hs]; simp)
    rw [hs, List.pairwise_cons] at hp
    have hlt := hp.1 u List.mem_cons_self
    have heq := hone _ _ _ _ ht.1 hu.1 ht.2 hu.2
    omega

/-- One task stands at a stage of a kind, and no other. -/
theorem standing_length_eq_one (h : ts.Ordered) {id : Nat} {s : σ} (hs : ts.stage? id = some s) (hp : p s)
    (honly : ∀ i u, ts.stage? i = some u → p u → i = id) : (ts.standing p).length = 1 := by
  obtain ⟨t, ht, -⟩ := mem_standing hs hp
  have hle : (ts.standing p).length ≤ 1 :=
    standing_length_le_one h fun i j u v hu hv hpu hpv => (honly i u hu hpu).trans (honly j v hv hpv).symm
  exact Nat.le_antisymm hle (List.length_pos_of_mem ht)

theorem standing_eq_nil_of_imp {q : σ → Bool} (h : ts.standing p = []) (hq : ∀ s, q s → p s) : ts.standing q = [] := by
  rw [standing, List.filter_eq_nil_iff] at h ⊢
  intro t ht hstands
  rw [Bool.and_eq_true] at hstands
  exact h t ht (by rw [hstands.1, hq _ hstands.2]; rfl)

/-- Two tasks of different numbers are counted apart. -/
theorem two_le_standing {i j : Nat} (hij : i ≠ j) {s u : σ} (hs : ts.stage? i = some s) (hu : ts.stage? j = some u)
    (hks : p s) (hku : p u) : 2 ≤ (ts.standing p).length := by
  obtain ⟨t, ht, rfl, -⟩ := mem_standing (p := p) hs hks
  obtain ⟨v, hv, rfl, -⟩ := mem_standing (p := p) hu hku
  match hl : ts.standing p with
  | [] => rw [hl] at ht; cases ht
  | [w] =>
    rw [hl, List.mem_singleton] at ht hv
    exact absurd (by rw [ht, hv]) hij
  | _ :: _ :: _ => simp

end

/-! ## Vacancy -/

section
variable {p : σ → Bool} {me : Option Nat}

/-- Nobody stands at a stage of a kind; one task may be left out. -/
def Vacant (ts : Tasks σ) (p : σ → Bool) (me : Option Nat) : Prop :=
  ∀ id s, me ≠ some id → ts.stage? id = some s → p s = false

theorem Vacant.except (h : ts.Vacant p none) (me : Option Nat) : ts.Vacant p me := fun id s _ => h id s nofun

theorem Vacant.erase {id : Nat} (h : ts.Vacant p (some id)) : (ts.erase id).Vacant p none := by
  intro i s _ hs
  obtain ⟨hi, hold⟩ := stage?_of_erase hs
  exact h i s (fun e => hi (Option.some.inj e).symm) hold

/-- The task that was left out takes its place among the others. -/
theorem Vacant.advance {id : Nat} {s : σ} (h : ts.Vacant p (some id)) (hs : p s = false) :
    (ts.advance id s).Vacant p none := by
  intro i u _ hu
  obtain ⟨-, rfl⟩ | ⟨hi, hold⟩ := stage?_of_advance hu
  · exact hs
  · exact h i u (fun e => hi (Option.some.inj e).symm) hold

theorem Vacant.cancel? (h : ts.Vacant p me) (id : Option Nat) : (ts.cancel? id).Vacant p me :=
  fun i s hi hs => h i s hi (stage?_of_cancel? hs).2

theorem Vacant.spawn (hord : ts.Ordered) {s : σ} (h : ts.Vacant p me) (hs : p s = false) :
    (ts.spawn s).Vacant p me := by
  intro i u hi hu
  obtain ⟨-, rfl⟩ | hold := stage?_of_spawn hord hu
  · exact hs
  · exact h i u hi hold

theorem Vacant.standing (hord : ts.Ordered) (h : ts.Vacant p none) : ts.standing p = [] := by
  refine List.eq_nil_iff_forall_not_mem.2 fun t ht => ?_
  obtain ⟨hs, hp⟩ := stage?_of_mem_standing hord ht
  rw [h t.id t.stage nofun hs] at hp
  cases hp

/-! ## Numbers of tasks -/

/-- How many tasks are at a stage of a kind, whether told to give up or not. -/
def countAt (ts : Tasks σ) (p : σ → Bool) : Nat := (ts.live.filter fun t => p t.stage).length

theorem countAt_erase_le (id : Nat) : (ts.erase id).countAt p ≤ ts.countAt p :=
  (List.filter_sublist.filter _).length_le

theorem countAt_cancel? (id : Option Nat) : (ts.cancel? id).countAt p = ts.countAt p := by
  cases id with
  | none => rfl
  | some id =>
    have hstage : ∀ t : Task σ, (if t.id = id then { t with cancelled := true } else t).stage = t.stage := fun t => by
      split <;> rfl
    simp only [cancel?, Option.elim_some, countAt, cancel, modify, List.filter_map, List.length_map, Function.comp_def,
      hstage]

theorem countAt_spawn {s : σ} (hs : p s = false) : (ts.spawn s).countAt p = ts.countAt p := by
  simp [countAt, spawn, hs]

/-- A task and those before and after it. -/
theorem split_of_find? (h : ts.Ordered) {id : Nat} {t : Task σ} (ht : ts.find? id = some t) :
    ∃ as bs, ts.live = as ++ t :: bs ∧ ∀ u ∈ as ++ bs, u.id ≠ id := by
  obtain ⟨as, bs, hab⟩ := List.append_of_mem (mem_of_find? ht)
  have hp := List.pairwise_map.1 h.increasing
  rw [hab, List.pairwise_append, List.pairwise_cons] at hp
  refine ⟨as, bs, hab, fun u hu => ?_⟩
  rw [← id_of_find? ht]
  rcases List.mem_append.1 hu with hu | hu
  · exact Nat.ne_of_lt (hp.2.2 u hu t List.mem_cons_self)
  · exact Nat.ne_of_gt (hp.2.1.1 u hu)

/-- A task that changes is counted apart from the others. -/
theorem countAt_modify (h : ts.Ordered) {id : Nat} {t : Task σ} (ht : ts.find? id = some t) (f : Task σ → Task σ) :
    (ts.modify id f).countAt p = (ts.erase id).countAt p + (p (f t).stage).toNat := by
  obtain ⟨as, bs, hab, hother⟩ := split_of_find? h ht
  have hsame : ∀ us : List (Task σ), (∀ u ∈ us, u ∈ as ++ bs) →
      us.map (fun u => if u.id = id then f u else u) = us ∧ us.filter (·.id != id) = us := fun us hus =>
    ⟨(List.map_congr_left fun u hu => if_neg (hother u (hus u hu))).trans (List.map_id' us),
      List.filter_eq_self.2 fun u hu => bne_iff_ne.2 (hother u (hus u hu))⟩
  obtain ⟨has, has'⟩ := hsame as fun u hu => List.mem_append_left _ hu
  obtain ⟨hbs, hbs'⟩ := hsame bs fun u hu => List.mem_append_right _ hu
  have hid : t.id = id := id_of_find? ht
  simp only [countAt, modify, erase, hab, List.map_append, List.map_cons, List.filter_append, has, hbs, has', hbs', hid,
    if_true, List.length_append, List.filter_cons, bne_self_eq_false, Bool.false_eq_true, if_false]
  cases p (f t).stage with
  | true => simp only [if_true, List.length_cons, Bool.toNat_true]; omega
  | false => simp only [Bool.false_eq_true, if_false, Bool.toNat_false]; omega

theorem countAt_eq (h : ts.Ordered) {id : Nat} {t : Task σ} (ht : ts.find? id = some t) :
    ts.countAt p = (ts.erase id).countAt p + (p t.stage).toNat := by
  have hid : ts.modify id (fun u => u) = ts := by simp [modify]
  rw [← countAt_modify h ht fun u => u, hid]

/-- A task that goes on to another stage is counted there. -/
theorem countAt_advance_add (h : ts.Ordered) {id : Nat} {t : Task σ} (ht : ts.find? id = some t) (s : σ) :
    (ts.advance id s).countAt p + (p t.stage).toNat = ts.countAt p + (p s).toNat := by
  rw [advance, countAt_modify h ht, countAt_eq h ht]
  exact Nat.add_right_comm _ _ _

/-- A task that goes on to a stage of the same kind is counted as before. -/
theorem countAt_advance (h : ts.Ordered) {id : Nat} {s s' : σ} (hs : ts.stage? id = some s) (hp : p s' = p s) :
    (ts.advance id s').countAt p = ts.countAt p := by
  obtain ⟨t, ht, rfl, -⟩ := find?_of_stage? hs
  have hcount := countAt_advance_add (p := p) h ht s'
  rw [hp] at hcount
  exact Nat.add_right_cancel hcount

end

/-! ## Tasks of a kind -/

section
variable {p : σ → Bool} {id : Nat}

/-- The tasks at a stage of a kind, whether told to give up or not, in order of creation. -/
def among (ts : Tasks σ) (p : σ → Bool) : List (Task σ) := ts.live.filter fun t => p t.stage

theorem mem_among {t : Task σ} : t ∈ ts.among p ↔ t ∈ ts.live ∧ p t.stage := List.mem_filter

theorem mem_among_of_stage? {s : σ} (hs : ts.stage? id = some s) (hp : p s) :
    ∃ t ∈ ts.among p, t.id = id ∧ t.stage = s := by
  obtain ⟨t, ht, hid, hstage⟩ := mem_standing hs hp
  exact ⟨t, mem_among.2 ⟨(List.mem_filter.1 ht).1, by rw [hstage]; exact hp⟩, hid, hstage⟩

theorem Ordered.among (h : ts.Ordered) (p : σ → Bool) : ((ts.among p).map (·.id)).Pairwise (· < ·) :=
  h.increasing.sublist (List.filter_sublist.map _)

/-- A task at a stage of another kind. -/
theorem ne_of_mem_among (h : ts.Ordered) {s : σ} (hs : ts.stage? id = some s) (hp : p s = false) :
    ∀ t ∈ ts.among p, t.id ≠ id := by
  rintro t ht rfl
  obtain ⟨hlive, hstage⟩ := mem_among.1 ht
  rw [(stage_of_mem h hlive hs).1, hp] at hstage
  cases hstage

theorem among_erase (h : ∀ t ∈ ts.among p, t.id ≠ id) : (ts.erase id).among p = ts.among p := by
  simp only [among, erase, List.filter_filter]
  refine List.filter_congr fun t ht => ?_
  cases hp : p t.stage with
  | false => rfl
  | true => simpa using h t (mem_among.2 ⟨ht, hp⟩)

/-- A change that brings nobody to a stage of a kind leaves the tasks of the kind alone. -/
theorem among_modify {f : Task σ → Task σ} (h : ∀ t ∈ ts.among p, t.id ≠ id)
    (hf : ∀ t ∈ ts.live, t.id = id → p (f t).stage = false) : (ts.modify id f).among p = ts.among p := by
  have hkind : ∀ t ∈ ts.live, p (if t.id = id then f t else t).stage = p t.stage := by
    intro t ht
    split
    · rename_i hid
      rw [hf t ht hid]
      exact (Bool.eq_false_iff.2 fun hp => h t (mem_among.2 ⟨ht, hp⟩) hid).symm
    · rfl
  have hsame : (ts.live.filter fun t => p t.stage).map (fun t => if t.id = id then f t else t) =
      (ts.live.filter fun t => p t.stage).map fun t => t :=
    List.map_congr_left fun t ht => if_neg (h t ht)
  simp only [among, modify, List.filter_map, Function.comp_def]
  rw [List.filter_congr hkind, hsame, List.map_id']

theorem among_advance (h : ∀ t ∈ ts.among p, t.id ≠ id) {s : σ} (hs : p s = false) :
    (ts.advance id s).among p = ts.among p := by
  rw [advance]
  exact among_modify h fun _ _ _ => hs

theorem among_cancel? {id : Option Nat} (h : ∀ i ∈ id, ∀ t ∈ ts.among p, t.id ≠ i) :
    (ts.cancel? id).among p = ts.among p := by
  cases id with
  | none => rfl
  | some id =>
    refine among_modify (h id rfl) fun t ht hid => ?_
    exact Bool.eq_false_iff.2 fun hp => h id rfl t (mem_among.2 ⟨ht, hp⟩) hid

/-- A task that goes on to another stage of the kind stays among them. -/
theorem among_advance_within (h : ts.Ordered) {s s' : σ} (hs : ts.stage? id = some s) (hp : p s) (hp' : p s') :
    (ts.advance id s').among p =
      (ts.among p).map fun t => if t.id = id then { t with turn := ts.nextTurn id, stage := s' } else t := by
  have hkind : ∀ t ∈ ts.live,
      p (if t.id = id then { t with turn := ts.nextTurn id, stage := s' } else t).stage = p t.stage := by
    intro t ht
    split
    · rename_i hid
      rw [← hid] at hs
      rw [(stage_of_mem h ht hs).1, hp]
      exact hp'
    · rfl
  simp only [among, advance, modify, List.filter_map, Function.comp_def]
  rw [List.filter_congr hkind]

theorem among_erase_self (ts : Tasks σ) (p : σ → Bool) (id : Nat) :
    (ts.erase id).among p = (ts.among p).filter (·.id != id) := by
  simp only [among, erase, List.filter_filter, Bool.and_comm]

theorem length_among_erase (h : ts.Ordered) {t : Task σ} (ht : t ∈ ts.among p) :
    ((ts.erase t.id).among p).length + 1 = (ts.among p).length := by
  have hnodup : ((ts.among p).map (·.id)).Nodup := (h.among p).imp Nat.ne_of_lt
  have hids : ((ts.erase t.id).among p).map (·.id) = ((ts.among p).map (·.id)).erase t.id := by
    rw [among_erase_self, hnodup.erase_eq_filter, List.filter_map]
    rfl
  have hlen := congrArg List.length hids
  rw [List.length_map, List.length_erase_of_mem (List.mem_map_of_mem ht), List.length_map] at hlen
  have hpos := List.length_pos_of_mem ht
  omega

theorem among_spawn (s : σ) :
    (ts.spawn s).among p = ts.among p ++ if p s then [{ id := ts.next, stage := s }] else [] := by
  simp only [among, spawn, List.filter_append, List.filter_cons, List.filter_nil]

end

/-! ## Lone tasks -/

section
variable {p : σ → Bool} {who : Option Nat} {id : Nat} {s : σ}

/-- No task is at a stage of a kind but one, whether told to give up or not. -/
def Only (ts : Tasks σ) (p : σ → Bool) (who : Option Nat) : Prop :=
  ∀ id t, ts.find? id = some t → p t.stage = true → who = some id

theorem Only.erase (h : ts.Only p who) (id : Nat) : (ts.erase id).Only p who := fun i t ht hp =>
  h i t (find?_of_erase ht).2 hp

theorem Only.erase_self (h : ts.Only p (some id)) : (ts.erase id).Only p none := fun i t ht hp => by
  obtain ⟨hne, hold⟩ := find?_of_erase ht
  exact absurd (Option.some.inj (h i t hold hp)).symm hne

theorem Only.advance (h : ts.Only p who) (hs : p s = true → who = some id) : (ts.advance id s).Only p who := by
  intro i t ht hp
  rw [find?_advance] at ht
  split at ht
  · rename_i hi
    obtain ⟨u, -, rfl⟩ := Option.map_eq_some_iff.1 ht
    rw [hs hp, hi]
  · exact h i t ht hp

theorem Only.spawn (h : ts.Only p who) (hord : ts.Ordered) (hs : p s = true → who = some ts.next) :
    (ts.spawn s).Only p who := by
  intro i t ht hp
  obtain ⟨rfl, rfl⟩ | hold := find?_of_spawn hord ht
  · exact hs hp
  · exact h i t hold hp

theorem Only.cancel? (h : ts.Only p who) : ∀ id, (ts.cancel? id).Only p who
  | none => h
  | some id => by
    intro i t ht hp
    rw [Tasks.cancel?, Option.elim_some, find?_cancel] at ht
    split at ht
    · obtain ⟨u, hu, rfl⟩ := Option.map_eq_some_iff.1 ht
      exact h i u hu hp
    · exact h i t ht hp

theorem Only.weaken (h : ts.Only p none) (who : Option Nat) : ts.Only p who := fun id t ht hp => nomatch h id t ht hp

theorem Only.of_gone (h : ts.Only p (some id)) (hgone : ts.find? id = none) : ts.Only p none := by
  intro i t ht hp
  obtain rfl := Option.some.inj (h i t ht hp)
  rw [hgone] at ht
  cases ht

/-- A task that ends as soon as it is begun is as good as none. -/
theorem Only.spawn_erase (h : ts.Only p who) (hord : ts.Ordered) (s : σ) : ((ts.spawn s).erase ts.next).Only p who := by
  intro i t ht hp
  obtain ⟨hne, ht⟩ := find?_of_erase ht
  obtain ⟨hi, -⟩ | hold := find?_of_spawn hord ht
  · exact absurd hi hne
  · exact h i t hold hp

theorem Only.countAt_eq_zero (h : ts.Only p none) (hord : ts.Ordered) : ts.countAt p = 0 := by
  rw [countAt, List.length_eq_zero_iff, List.filter_eq_nil_iff]
  intro t ht hp
  cases h t.id t (find?_of_mem hord ht) hp

theorem Only.countAt_eq_one (h : ts.Only p (some id)) (hord : ts.Ordered) (hs : ts.stage? id = some s)
    (hp : p s = true) : ts.countAt p = 1 := by
  obtain ⟨t, ht, rfl, -⟩ := find?_of_stage? hs
  rw [countAt_eq hord ht, h.erase_self.countAt_eq_zero (hord.erase id), hp]
  rfl

theorem find?_eq_none_of_cancel? {i : Nat} (h : ts.find? i = none) : ∀ id, (ts.cancel? id).find? i = none
  | none => h
  | some id => by
    rw [cancel?, Option.elim_some, find?_cancel, h]
    exact ite_self _

end

end PoolFeed.Tasks
