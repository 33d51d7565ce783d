import PoolFeed.Roster

/-!
# Looking up in rosters

What putting a value in and erasing a key leave of the other entries, and what a look-up finds where no key comes twice.
-/

namespace PoolFeed.Roster

variable {α : Type} {r : Roster α} {key other : String} {value : α}

theorem mem_put {entry : String × α} : ∀ {r : Roster α}, entry ∈ r.put key value → entry = (key, value) ∨ entry ∈ r
  | [], h => .inl (List.mem_singleton.1 h)
  | (k, v) :: rest, h => by
    rw [put] at h
    split at h
    · rcases List.mem_cons.1 h with h | h
      · exact .inl h
      · exact .inr (List.mem_cons_of_mem _ h)
    · rcases List.mem_cons.1 h with h | h
      · exact .inr (List.mem_cons.2 (.inl h))
      · exact (mem_put h).imp_right (List.mem_cons_of_mem _)

theorem mem_of_get? : ∀ {r : Roster α}, r.get? key = some value → (key, value) ∈ r
  | (k, v) :: rest, h => by
    rw [get?] at h
    split at h
    · rename_i hk
      cases h
      exact hk ▸ List.mem_cons_self
    · exact List.mem_cons_of_mem _ (mem_of_get? h)

theorem get?_erase : ∀ r : Roster α, (r.erase key).get? other = if other = key then none else r.get? other
  | [] => (ite_self _).symm
  | (k, v) :: rest => by
    have ih := get?_erase rest
    rw [erase] at ih ⊢
    by_cases hk : k = key
    · rw [List.filter_cons_of_neg (by simp [hk]), ih, get?]
      split
      · rfl
      · rename_i hne
        rw [if_neg fun e => hne (e.symm.trans hk)]
    · rw [List.filter_cons_of_pos (by simp [hk]), get?, get?, ih]
      by_cases ho : k = other
      · rw [if_pos ho, if_pos ho, if_neg fun e => hk (ho.trans e)]
      · rw [if_neg ho, if_neg ho]

theorem has_put : (r.put key value).has other = (other == key || r.has other) := by
  rw [has, get?_put, has]
  by_cases h : other = key
  · simp [h]
  · simp [h]

theorem has_erase : (r.erase key).has other = (other != key && r.has other) := by
  rw [has, get?_erase, has]
  by_cases h : other = key
  · simp [h]
  · simp [h]

theorem nodup_keys_erase (h : r.keys.Nodup) : (r.erase key).keys.Nodup := h.sublist (List.filter_sublist.map _)

theorem get?_eq_none_of_notMem : ∀ {r : Roster α}, key ∉ r.keys → r.get? key = none
  | [], _ => rfl
  | (k, v) :: rest, h => by
    simp only [keys, List.map_cons, List.mem_cons, not_or] at h
    rw [get?, if_neg (Ne.symm h.1)]
    exact get?_eq_none_of_notMem h.2

/-- A new key comes last. -/
theorem put_of_get?_none : ∀ {r : Roster α}, r.get? key = none → r.put key value = r ++ [(key, value)]
  | [], _ => rfl
  | (k, v) :: rest, h => by
    rw [get?] at h
    split at h
    · cases h
    · rename_i hk
      rw [put, if_neg hk, put_of_get?_none h, List.cons_append]

/-- A known key, where none comes twice, has its value replaced in place. -/
theorem put_of_has : ∀ {r : Roster α}, r.keys.Nodup → r.has key = true →
    r.put key value = r.map fun entry => if entry.1 = key then (key, value) else entry
  | (k, v) :: rest, hnodup, h => by
    obtain ⟨hnew, hrest⟩ := List.nodup_cons.1 hnodup
    rw [put, List.map_cons]
    by_cases hk : k = key
    · subst hk
      have hsame : rest.map (fun entry => if entry.1 = k then (k, value) else entry) = rest.map id :=
        List.map_congr_left fun entry hentry => if_neg fun heq : entry.1 = k =>
          hnew (List.mem_map.2 ⟨entry, hentry, heq⟩)
      rw [if_pos rfl, if_pos rfl, hsame, List.map_id]
    · rw [has, get?, if_neg hk] at h
      rw [if_neg hk, if_neg hk, put_of_has hrest h]

theorem get?_of_mem : ∀ {r : Roster α}, r.keys.Nodup → (key, value) ∈ r → r.get? key = some value
  | (k, v) :: rest, hnodup, h => by
    obtain ⟨hnew, hrest⟩ := List.nodup_cons.1 hnodup
    rw [get?]
    rcases List.mem_cons.1 h with heq | h
    · cases heq
      rw [if_pos rfl]
    · rw [if_neg fun heq : k = key => hnew (List.mem_map.2 ⟨_, h, heq.symm⟩), get?_of_mem hrest h]

theorem get?_map {β : Type} (f : α → β) : ∀ r : Roster α,
    get? (r.map fun entry => (entry.1, f entry.2)) key = (r.get? key).map f
  | [] => rfl
  | (k, v) :: rest => by
    rw [List.map_cons, get?, get?, get?_map f rest]
    split <;> rfl

theorem has_iff_mem_keys : ∀ {r : Roster α}, r.has key = true ↔ key ∈ r.keys
  | [] => ⟨nofun, nofun⟩
  | (k, v) :: rest => by
    have ih := @has_iff_mem_keys rest
    rw [has] at ih ⊢
    rw [get?, keys, List.map_cons, List.mem_cons, ← keys, ← ih]
    by_cases hk : k = key
    · rw [if_pos hk]
      exact ⟨fun _ => .inl hk.symm, fun _ => rfl⟩
    · rw [if_neg hk]
      exact ⟨.inr, fun h => h.resolve_left (Ne.symm hk)⟩

theorem length_put : ∀ r : Roster α, (r.put key value).length = r.length + (if r.has key then 0 else 1)
  | [] => rfl
  | (k, v) :: rest => by
    have ih := length_put rest
    rw [has] at ih ⊢
    by_cases hk : k = key
    · simp [put, get?, hk]
    · simp only [put, get?, hk, if_false, List.length_cons, ih]
      omega

/-- Where every value has the name that it is kept under, and no name comes twice, a look-up finds all the values
of a name. -/
theorem filter_values {name : α → String} : ∀ {r : Roster α}, r.keys.Nodup → (∀ x ∈ r, name x.2 = x.1) →
    ∀ key : String, (r.map (·.2)).filter (fun value => name value = key) = (r.get? key).toList
  | [], _, _, _ => rfl
  | (k, v) :: rest, hnodup, hname, key => by
    simp only [keys, List.map_cons, List.nodup_cons] at hnodup
    have hv : name v = k := hname _ List.mem_cons_self
    have ih := filter_values hnodup.2 (fun x hx => hname x (List.mem_cons_of_mem _ hx)) key
    by_cases hk : k = key
    · have hnone : get? rest key = none := get?_eq_none_of_notMem (hk ▸ hnodup.1)
      rw [hnone] at ih
      simp only [List.map_cons, List.filter_cons, hv, hk, decide_true, if_true, ih, get?, Option.toList_none,
        Option.toList_some]
    · simp only [List.map_cons, List.filter_cons, hv, hk, decide_false, Bool.false_eq_true, if_false, ih, get?]

end PoolFeed.Roster
