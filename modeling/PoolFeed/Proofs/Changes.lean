import Mathlib.Data.List.Induction
import Mathlib.Data.List.Perm.Basic

/-!
# The last change under a key

Changes are entries by key, oldest first, and the last one under a key counts.
-/

namespace PoolFeed

/-- The value under a key after some changes. -/
def latest {α : Type} (changes : List (String × α)) (key : String) (start : Option α) : Option α :=
  changes.foldl (fun value x => if x.1 = key then some x.2 else value) start

variable {α β : Type} {key : String}

theorem latest_append (l l' : List (String × α)) (start : Option α) :
    latest (l ++ l') key start = latest l' key (latest l key start) := List.foldl_append

theorem latest_eq_or (l : List (String × α)) (start : Option α) :
    latest l key start = (latest l key none).or start := by
  induction l using List.reverseRecOn with
  | nil => rfl
  | append_singleton l x ih =>
    rw [latest_append, latest_append, ih]
    by_cases h : x.1 = key <;> simp [latest, h]

theorem latest_map (f : α → β) (l : List (String × α)) (start : Option α) :
    latest (l.map fun x => (x.1, f x.2)) key (start.map f) = (latest l key start).map f := by
  induction l generalizing start with
  | nil => rfl
  | cons x l ih =>
    simp only [latest, List.map_cons, List.foldl_cons] at ih ⊢
    rw [← ih]
    split <;> rfl

/-- Changes that give every key a value of its own. -/
theorem latest_map_self (f : String → α) (keys : List String) (start : Option α) :
    latest (keys.map fun k => (k, f k)) key start = if key ∈ keys then some (f key) else start := by
  induction keys using List.reverseRecOn with
  | nil => rfl
  | append_singleton keys k ih =>
    rw [List.map_append, latest_append, ih]
    by_cases h : k = key
    · simp [latest, h]
    · simp [latest, h, Ne.symm h]

theorem isSome_latest_iff {l : List (String × α)} : (latest l key none).isSome ↔ ∃ value, (key, value) ∈ l := by
  induction l using List.reverseRecOn with
  | nil => simp [latest]
  | append_singleton l x ih =>
    obtain ⟨k, value⟩ := x
    rw [latest_append]
    by_cases h : k = key
    · subst h
      simp [latest]
    · have hne : ∀ v, (key, v) ≠ (k, value) := fun v he => h (Prod.mk.inj he).1.symm
      simpa [latest, h, hne] using ih

theorem mem_of_latest {l : List (String × α)} {value : α} (h : latest l key none = some value) : (key, value) ∈ l := by
  induction l using List.reverseRecOn with
  | nil => cases h
  | append_singleton l x ih =>
    rw [latest_append] at h
    by_cases hx : x.1 = key
    · simp only [latest, List.foldl_cons, List.foldl_nil, hx, if_true, Option.some.injEq] at h
      simp [← hx, ← h]
    · simp only [latest, List.foldl_cons, List.foldl_nil, hx, if_false] at h
      exact List.mem_append_left _ (ih h)

/-- The same changes in another order change the same keys. -/
theorem isSome_latest_perm {l l' : List (String × α)} (h : l.Perm l') :
    (latest l key none).isSome = (latest l' key none).isSome := by
  rw [Bool.eq_iff_iff, isSome_latest_iff, isSome_latest_iff]
  simp only [h.mem_iff]

/-- Two orders of the same changes leave the same value exactly if they agree on the last one. -/
theorem latest_eq_iff {l l' : List (String × α)} (h : l.Perm l') (start : Option α) :
    latest l key start = latest l' key start ↔ latest l key none = latest l' key none := by
  have hsome : (latest l key none).isSome = (latest l' key none).isSome := isSome_latest_perm h
  rw [latest_eq_or l start, latest_eq_or l' start]
  generalize latest l key none = value at *
  generalize latest l' key none = value' at *
  cases value <;> cases value' <;> simp at hsome ⊢

end PoolFeed
