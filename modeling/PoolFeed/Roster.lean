/-!
# Rosters

| here | there |
| --- | --- |
| `Roster` | a dictionary with texts for keys, such as `RoomBroadcaster._clients` and `PoolRegistry._pools` |
| `get?`, `put`, `erase` | `get`, an assignment to a key, `pop` |

Entries by key, in the order in which the keys first came. Putting a value under a known key keeps
its place.
-/

namespace PoolFeed

abbrev Roster (α : Type) := List (String × α)

namespace Roster

variable {α : Type}

def get? : Roster α → String → Option α
  | [], _ => none
  | (k, v) :: rest, key => if k = key then some v else get? rest key

def has (r : Roster α) (key : String) : Bool := (r.get? key).isSome

def keys (r : Roster α) : List String := r.map (·.1)

/-- Puts a value under a key, in place if the key is known and else at the end. -/
def put : Roster α → String → α → Roster α
  | [], key, value => [(key, value)]
  | (k, v) :: rest, key, value => if k = key then (key, value) :: rest else (k, v) :: put rest key value

def erase (r : Roster α) (key : String) : Roster α := r.filter fun (k, _) => k != key

@[simp] theorem get?_nil (key : String) : get? ([] : Roster α) key = none := rfl

@[simp] theorem get?_put_self : ∀ (r : Roster α) (key : String) (value : α), (r.put key value).get? key = some value
  | [], _, _ => by simp [put, get?]
  | (k, v) :: rest, key, value => by
    by_cases h : k = key
    · simp [put, get?, h]
    · simp [put, get?, h, get?_put_self rest]

theorem get?_put_of_ne {key other : String} (h : other ≠ key) :
    ∀ (r : Roster α) (value : α), (r.put key value).get? other = r.get? other
  | [], _ => by simp [put, get?, Ne.symm h]
  | (k, v) :: rest, value => by
    by_cases hk : k = key
    · subst hk; simp [put, get?, Ne.symm h]
    · simp [put, get?, hk, get?_put_of_ne h rest]

theorem get?_put (r : Roster α) (key other : String) (value : α) :
    (r.put key value).get? other = if other = key then some value else r.get? other := by
  by_cases h : other = key
  · simp [h]
  · simp [h, get?_put_of_ne h]

theorem mem_keys_put {key k : String} : ∀ {r : Roster α} {value : α}, k ∈ (r.put key value).keys ↔ k = key ∨ k ∈ r.keys
  | [], _ => by simp [put, keys]
  | (k', v) :: rest, value => by
    have ih : k ∈ keys (put rest key value) ↔ k = key ∨ k ∈ keys rest := mem_keys_put
    by_cases h : k' = key
    · subst h; simp [put, keys]
    · simp only [put, h, if_false, keys, List.map_cons, List.mem_cons] at ih ⊢
      rw [ih]
      constructor
      · rintro (h | h | h) <;> simp [h]
      · rintro (h | h | h) <;> simp [h]

theorem nodup_keys_put {key : String} : ∀ {r : Roster α} {value : α}, r.keys.Nodup → (r.put key value).keys.Nodup
  | [], _, _ => by simp [put, keys]
  | (k, v) :: rest, value, h => by
    simp only [keys, List.map_cons, List.nodup_cons] at h
    by_cases hk : k = key
    · subst hk; simp only [put, if_true, keys, List.map_cons, List.nodup_cons]; exact h
    · simp only [put, hk, if_false, keys, List.map_cons, List.nodup_cons]
      refine ⟨fun hm => ?_, nodup_keys_put h.2⟩
      rcases mem_keys_put.1 hm with h' | h'
      · exact hk h'
      · exact h.1 h'

end Roster

end PoolFeed
