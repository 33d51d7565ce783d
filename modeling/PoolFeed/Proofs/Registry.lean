import PoolFeed.Registry

/-!
# What a registry answers after a change

A registry is asked through `pools.get?`. Registering a pool changes the answer for that pool only, and
only if its base decimals change; a write-through changes no answer.
-/

namespace PoolFeed.Registry

variable {r : Registry} {address : String}

@[simp] theorem startWrite_pools (decimals : Int) (isNew : Bool) :
    (r.startWrite address decimals isNew).pools = r.pools := by
  unfold startWrite
  split <;> rfl

/-- A registration with known decimals puts them down unless they are known. -/
theorem register_pools (r : Registry) (address : String) (decimals : Int) :
    (r.register address (some decimals)).2.1.pools =
      if (r.pools.get? address).map Scale.base = some decimals then r.pools
      else r.pools.put address ⟨decimals, r.quote⟩ := by
  simp only [register, Option.getD_some]
  split
  · rfl
  · exact startWrite_pools decimals _

/-- The answers after a registration with known decimals. -/
theorem register_get? (r : Registry) (address : String) (decimals : Int) (other : String) :
    (r.register address (some decimals)).2.1.pools.get? other =
      if (r.pools.get? address).map Scale.base ≠ some decimals ∧ other = address then some ⟨decimals, r.quote⟩
      else r.pools.get? other := by
  rw [register_pools]
  by_cases h : (r.pools.get? address).map Scale.base = some decimals
  · simp [h]
  · simp only [h, if_false, Roster.get?_put, ne_eq, not_false_eq_true, true_and]

theorem register_defaults (r : Registry) (address : String) (decimals : Option Int) :
    (r.register address decimals).2.1.defaultBase = r.defaultBase ∧
      (r.register address decimals).2.1.quote = r.quote := by
  simp only [register, startWrite]
  split
  · exact ⟨rfl, rfl⟩
  · split <;> exact ⟨rfl, rfl⟩

/-- The answers after a load: the shared store knows best, and a pool without decimals has the default. -/
theorem load_get? (r : Registry) (tracked : List String) (decimals : Roster Int) (address : String) :
    (r.load tracked decimals).2.1.pools.get? address =
      if address ∈ tracked then some ⟨(decimals.get? address).getD r.defaultBase, r.quote⟩
      else r.pools.get? address := by
  simp only [load]
  generalize r.pools = pools
  induction tracked generalizing pools with
  | nil => rfl
  | cons other tracked ih =>
    simp only [List.foldl_cons, ih, Roster.get?_put, List.mem_cons]
    by_cases hlater : address ∈ tracked
    · simp [hlater]
    · by_cases hother : address = other
      · simp [hother]
      · simp [hlater, hother]

/-- A write that comes to its end changes no answer. -/
theorem writeDone_answers (r : Registry) (ticket : Nat) :
    (r.writeDone ticket).pools = r.pools ∧ (r.writeDone ticket).defaultBase = r.defaultBase ∧
      (r.writeDone ticket).quote = r.quote := by
  unfold writeDone
  split
  · exact ⟨rfl, rfl, rfl⟩
  · split <;> exact ⟨rfl, rfl, rfl⟩

/-- A write that fails changes no answer. -/
theorem writeFailed_answers (r : Registry) (ticket : Nat) (reason : String) :
    (r.writeFailed ticket reason).1.pools = r.pools ∧ (r.writeFailed ticket reason).1.defaultBase = r.defaultBase ∧
      (r.writeFailed ticket reason).1.quote = r.quote := by
  unfold writeFailed
  split <;> exact ⟨rfl, rfl, rfl⟩

end PoolFeed.Registry
