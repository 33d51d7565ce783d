import PoolFeed.Chain.Layouts

/-!
# References and tags

`Transaction.account` refuses a reference from before the start of a table. Where the references of an
instruction are no such ones, `account_eq` says that it answers for every position, with the key that
`keyAt` finds. `callsTo` and `findRecord` are searches from the front: `callsTo_eq_filterMap`,
`findRecord_fst` and `findRecord_snd` give them as searches of the standard library.
-/

namespace PoolFeed

namespace Transaction

/-- The key behind a reference, none if the instruction or the account table is too short for it. -/
def keyAt (t : Transaction) (ix : Instruction) (reference : Nat) : Option String := do
  t.keys[(← ix.accounts[reference]?).toNat]?

/-- All references of an instruction count from the start of the account table. -/
def Forward (ix : Instruction) : Prop := ∀ a ∈ ix.accounts, 0 ≤ a

instance (ix : Instruction) : Decidable (Forward ix) := inferInstanceAs (Decidable (∀ a ∈ ix.accounts, 0 ≤ a))

theorem account_eq (t : Transaction) {ix : Instruction} (h : Forward ix) (reference : Nat) :
    t.account ix reference = .ok (t.keyAt ix reference) := by
  simp only [account, keyAt, pick?, Int.ofNat_le, Int.natCast_nonneg, if_true, Int.toNat_natCast]
  by_cases hr : reference < ix.accounts.length
  · have hk : 0 ≤ ix.accounts[reference] := h _ (List.getElem_mem hr)
    simp only [Nat.not_le.2 hr, if_false, List.getElem?_eq_getElem hr, hk, if_true, Option.bind_eq_bind,
      Option.bind_some]
    by_cases hl : (t.keys.length : Int) ≤ ix.accounts[reference]
    · simp only [hl, if_true]
      rw [List.getElem?_eq_none (by omega)]
    · simp only [hl, if_false]
      have hlt : (ix.accounts[reference]).toNat < t.keys.length := by omega
      rw [List.getElem?_eq_getElem hlt]
  · simp [Nat.le_of_not_lt hr]

theorem mem_of_mem_callsTo {t : Transaction} {program : String} {x : Nat × Instruction} (h : x ∈ t.callsTo program) :
    x.2 ∈ t.instructions := by
  unfold callsTo at h
  obtain ⟨⟨ix, position⟩, hm, rfl⟩ := List.mem_map.1 (List.mem_filter.1 h).1
  exact List.fst_mem_of_mem_zipIdx hm

/-- The calls of a program, cut out of the instructions in one pass. -/
theorem callsTo_eq_filterMap (t : Transaction) (program : String) :
    t.callsTo program = t.instructions.zipIdx.filterMap fun (ix, position) =>
      if t.programOf? ix = some program then some (position, ix) else none := by
  rw [callsTo, List.filter_map, ← List.filterMap_eq_map, ← List.filterMap_eq_filter, List.filterMap_filterMap]
  congr 1
  funext ⟨ix, position⟩
  by_cases hp : t.programOf? ix = some program <;> simp [Option.guard, hp]

end Transaction

namespace Chain

/-- The inner instructions that carry a payload with the tag and are long enough for the layout. -/
def Carries (tag : Bytes) (size : Nat) (ix : Instruction) : Prop := tag <+: ix.data ∧ size ≤ ix.data.length

instance (tag : Bytes) (size : Nat) (ix : Instruction) : Decidable (Carries tag size ix) :=
  inferInstanceAs (Decidable (_ ∧ _))

theorem take_eq_iff_prefix {tag data : Bytes} {n : Nat} (h : tag.length = n) : data.take n = tag ↔ tag <+: data := by
  rw [List.prefix_iff_eq_take, h, eq_comm]

/-- The sizes that are noted are those of the payloads with the tag that are met before one is long enough. -/
theorem findRecord_fst {tag : Bytes} (ht : tag.length = 16) (layout : Layout) : ∀ inner : List Instruction,
    (findRecord tag layout inner).1 =
      (((inner.map (·.data)).filter (tag <+: ·)).takeWhile (·.length < layout.size)).map List.length
  | [] => rfl
  | ix :: rest => by
    have ih := findRecord_fst ht layout rest
    simp only [findRecord, take_eq_iff_prefix ht, ne_eq]
    by_cases hp : tag <+: ix.data
    · by_cases hl : ix.data.length < layout.size
      · simp [hp, hl, ih]
      · simp [hp, hl]
    · simp [hp, ih]

/-- The record that is found comes from the first inner instruction that carries one. -/
theorem findRecord_snd {tag : Bytes} (ht : tag.length = 16) (layout : Layout) : ∀ inner : List Instruction,
    (findRecord tag layout inner).2 = (inner.find? (Carries tag layout.size ·)).bind fun ix => layout.parse? ix.data
  | [] => rfl
  | ix :: rest => by
    have ih := findRecord_snd ht layout rest
    simp only [findRecord, take_eq_iff_prefix ht, ne_eq]
    by_cases hp : tag <+: ix.data
    · by_cases hl : ix.data.length < layout.size
      · simp [Carries, hp, hl, ih, Nat.not_le.2 hl]
      · simp [Carries, hp, hl, Nat.not_lt.1 hl]
    · simp [Carries, hp, ih]

end Chain

end PoolFeed
