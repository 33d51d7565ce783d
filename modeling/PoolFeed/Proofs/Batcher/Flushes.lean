import Mathlib.Data.List.Induction

/-!
# The law of the ticks

The first flush of a loop is due an interval after the loop has been started, and every other an interval after the one
before it, or when that is over if it takes longer (`due`). What this means for flushes that begin when they are due
(`OnTime`) is put together in `Regular`: they do not overlap, nothing is made up for, and as long as none takes longer
than an interval they begin on a grid.
-/

namespace PoolFeed.Batcher

/-- When the next flush of a loop is due, after flushes that took so long. -/
def due (interval start : Nat) (durations : List Nat) : Nat :=
  durations.foldl (fun t d => t + max interval d) (start + interval)

theorem due_concat (interval start : Nat) (ds : List Nat) (d : Nat) :
    due interval start (ds ++ [d]) = due interval start ds + max interval d := by
  simp only [due, List.foldl_append, List.foldl_cons, List.foldl_nil]

theorem due_take_succ (interval start : Nat) {ds : List Nat} {k d : Nat} (h : ds[k]? = some d) :
    due interval start (ds.take (k + 1)) = due interval start (ds.take k) + max interval d := by
  rw [List.take_add_one, h, Option.toList_some, due_concat]

/-- Flushes that take no longer than an interval are due on a grid. -/
theorem due_of_le {interval : Nat} (start : Nat) {ds : List Nat} (h : ∀ d ∈ ds, d ≤ interval) :
    due interval start ds = start + (ds.length + 1) * interval := by
  induction ds using List.reverseRecOn with
  | nil => rw [due, List.foldl_nil, List.length_nil, Nat.zero_add, Nat.one_mul]
  | append_singleton ds d ih =>
    have hd : d ≤ interval := h d (by simp)
    have hds := ih fun x hx => h x (List.mem_append_left _ hx)
    rw [due_concat, hds, Nat.max_eq_left hd, List.length_append, List.length_singleton, Nat.add_assoc, ← Nat.succ_mul]

/-- The flushes of a loop. -/
structure Flushes where
  /-- Those that are over: when each began, and when it was over. -/
  past : List (Nat × Nat) := []
  /-- When those under way began. -/
  present : List Nat := []

namespace Flushes

variable {f : Flushes} {interval start now t : Nat}

/-- When the flushes began, in order. -/
def starts (f : Flushes) : List Nat := f.past.map Prod.fst ++ f.present

/-- How long those took that are over. -/
def durations (f : Flushes) : List Nat := f.past.map fun (began, ended) => ended - began

/-- A flush begins. -/
def opening (f : Flushes) (now : Nat) : Flushes := { f with present := f.present ++ [now] }

/-- The first flush under way is over. -/
def closing (f : Flushes) (now : Nat) : Flushes :=
  match f.present with
  | [] => f
  | began :: rest => { past := f.past ++ [(began, now)], present := rest }

/-- Every flush has begun when it was due, and at most one is under way. -/
structure OnTime (interval start : Nat) (f : Flushes) : Prop where
  starts : ∀ k t, f.starts[k]? = some t → t = due interval start (f.durations.take k)
  forward : ∀ x ∈ f.past, x.1 ≤ x.2
  single : f.present.length ≤ 1

theorem length_durations (f : Flushes) : f.durations.length = f.past.length := List.length_map _

theorem le_of_starts (hsingle : f.present.length ≤ 1) {k : Nat} (h : f.starts[k]? = some t) : k ≤ f.past.length := by
  obtain ⟨hlt, -⟩ := List.getElem?_eq_some_iff.1 h
  rw [Flushes.starts, List.length_append, List.length_map] at hlt
  omega

theorem starts_of_past {k began ended : Nat} (h : f.past[k]? = some (began, ended)) :
    f.starts[k]? = some began ∧ f.durations[k]? = some (ended - began) := by
  obtain ⟨hlt, -⟩ := List.getElem?_eq_some_iff.1 h
  rw [Flushes.starts, List.getElem?_append_left (by simpa using hlt), List.getElem?_map, durations,
    List.getElem?_map, h]
  exact ⟨rfl, rfl⟩

theorem starts_of_present (h : f.present = [t]) : f.starts[f.past.length]? = some t := by
  rw [Flushes.starts, h, List.getElem?_append_right (by simp)]
  simp

namespace OnTime

theorem empty (interval start : Nat) : OnTime interval start {} := ⟨nofun, nofun, Nat.zero_le 1⟩

/-- The flush under way began when it was due. -/
theorem present_eq (h : f.OnTime interval start) (hpresent : f.present = [t]) : t = due interval start f.durations := by
  have hstart := h.starts _ t (starts_of_present hpresent)
  rwa [← length_durations, List.take_length] at hstart

theorem opening (h : f.OnTime interval start) (hpresent : f.present = []) :
    (f.opening (due interval start f.durations)).OnTime interval start where
  starts k t ht := by
    have hstarts : (f.opening (due interval start f.durations)).starts =
        f.starts ++ [due interval start f.durations] := by
      simp [Flushes.starts, Flushes.opening]
    have hlength : f.starts.length = f.durations.length := by simp [Flushes.starts, hpresent, durations]
    rw [hstarts] at ht
    show t = due interval start (f.durations.take k)
    rcases Nat.lt_or_ge k f.starts.length with hlt | hge
    · rw [List.getElem?_append_left hlt] at ht
      exact h.starts k t ht
    · rw [List.getElem?_append_right hge] at ht
      obtain ⟨-, rfl⟩ := List.getElem?_eq_some_iff.1 ht
      rw [List.take_of_length_le (by omega), List.getElem_singleton]
  forward := h.forward
  single := by simp [Flushes.opening, hpresent]

/-- When a flush is over, the next one is due an interval after it began, or now. -/
theorem closing (h : f.OnTime interval start) (hpresent : f.present = [t]) (hle : t ≤ now) :
    (f.closing now).OnTime interval start ∧
    due interval start (f.closing now).durations = t + max interval (now - t) := by
  have hclosing : f.closing now = { past := f.past ++ [(t, now)], present := [] } := by rw [Flushes.closing, hpresent]
  have hdurations : (f.closing now).durations = f.durations ++ [now - t] := by simp [hclosing, durations]
  have hstarts : (f.closing now).starts = f.starts := by simp [hclosing, Flushes.starts, hpresent]
  refine ⟨⟨fun k t' ht' => ?_, ?_, ?_⟩, ?_⟩
  · rw [hstarts] at ht'
    have hk := le_of_starts h.single ht'
    rw [hdurations, List.take_append_of_le_length (by rwa [length_durations])]
    exact h.starts k t' ht'
  · rw [hclosing]
    intro x hx
    rcases List.mem_append.1 hx with hx | hx
    · exact h.forward x hx
    · rw [List.mem_singleton.1 hx]
      exact hle
  · simp [hclosing]
  · rw [hdurations, due_concat, ← h.present_eq hpresent]

end OnTime

/-- The law of the ticks of a loop that was started at a time. -/
structure Regular (interval start : Nat) (f : Flushes) : Prop where
  /-- The first flush begins an interval after the start. -/
  first : ∀ t, f.starts[0]? = some t → t = start + interval
  /-- Every other begins an interval after the one before it, or when that is over if it takes longer. -/
  next : ∀ k t t', f.starts[k]? = some t → f.starts[k + 1]? = some t' →
    ∃ d, f.durations[k]? = some d ∧ t' = t + max interval d
  /-- No flush begins before the one before it is over. -/
  apart : f.present.length ≤ 1 ∧ ∀ k began ended t', f.past[k]? = some (began, ended) → f.starts[k + 1]? = some t' →
    began ≤ ended ∧ ended ≤ t'
  /-- Nothing is made up for: two flushes never begin less than an interval apart. -/
  spaced : ∀ k t t', f.starts[k]? = some t → f.starts[k + 1]? = some t' → t + interval ≤ t'
  /-- As long as no flush takes longer than an interval, they begin on a grid. -/
  grid : ∀ k t, f.starts[k]? = some t → (∀ d ∈ f.durations.take k, d ≤ interval) → t = start + (k + 1) * interval

theorem OnTime.next (h : f.OnTime interval start) {k t' : Nat} (ht : f.starts[k]? = some t)
    (ht' : f.starts[k + 1]? = some t') : ∃ d, f.durations[k]? = some d ∧ t' = t + max interval d := by
  have hk := le_of_starts h.single ht'
  rw [← length_durations] at hk
  have hd : f.durations[k]? = some f.durations[k] := List.getElem?_eq_getElem hk
  refine ⟨_, hd, ?_⟩
  rw [h.starts _ t' ht', due_take_succ interval start hd, ← h.starts k t ht]

theorem OnTime.regular (h : f.OnTime interval start) : f.Regular interval start where
  first t ht := h.starts 0 t ht
  next k t t' ht ht' := h.next ht ht'
  apart := by
    refine ⟨h.single, fun k began ended t' hpast ht' => ?_⟩
    have hle : began ≤ ended := h.forward _ (List.mem_of_getElem? hpast)
    obtain ⟨hstart, hduration⟩ := starts_of_past hpast
    obtain ⟨d, hd, rfl⟩ := h.next hstart ht'
    rw [hduration] at hd
    cases hd
    exact ⟨hle, by omega⟩
  spaced k t t' ht ht' := by
    obtain ⟨d, -, rfl⟩ := h.next ht ht'
    omega
  grid k t ht hle := by
    have hk := le_of_starts h.single ht
    rw [h.starts k t ht, due_of_le start hle, List.length_take, length_durations, Nat.min_eq_left hk]

end Flushes

end PoolFeed.Batcher
