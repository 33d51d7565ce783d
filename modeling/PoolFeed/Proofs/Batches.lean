import PoolFeed.Proofs.Batcher.History
import PoolFeed.Proofs.Roster

/-!
# Buffers and limits

Adding a record to a buffer that holds the last records of a list leaves the last records of the longer list
(`cut_concat`). Adding and taking change one key, and account for every record: it waits, has been taken or
has been dropped.
-/

namespace PoolFeed.Batches

open Batcher

variable {ρ : Type} {b : Batches ρ} {key other : String} {record : ρ}

/-! ## Roster sums -/

/-- Records under all keys of a roster. -/
def total (buffers : Roster (List ρ)) : Nat := buffers.foldr (fun entry n => entry.2.length + n) 0

theorem total_put (key : String) (records : List ρ) : ∀ buffers : Roster (List ρ),
    total (buffers.put key records) + ((buffers.get? key).getD []).length = total buffers + records.length
  | [] => by simp [Roster.put, Roster.get?, total]
  | (k, v) :: rest => by
    have ih := total_put key records rest
    by_cases hk : k = key
    · simp only [total, Roster.put, Roster.get?, hk, if_true, List.foldr_cons, Option.getD_some]
      omega
    · simp only [total, Roster.put, Roster.get?, hk, if_false, List.foldr_cons] at ih ⊢
      omega

theorem buffered_eq (b : Batches ρ) : b.buffered = total b.buffers := rfl

theorem pending_of_not_mem (h : key ∉ b.buffers.keys) : b.pending key = [] := by
  rw [pending, Roster.get?_eq_none_of_notMem h]
  rfl

/-! ## Adding -/

/-- What a buffer keeps of its records with one more. -/
theorem enqueue_eq (b : Batches ρ) (key : String) (record : ρ) : (b.enqueue key record).1 =
    { b with
      enqueued := b.enqueued + 1
      dropped := b.dropped + (b.isOver (b.pending key ++ [record]).length).toNat
      buffers := b.buffers.put key
        (if b.isOver (b.pending key ++ [record]).length then (b.pending key ++ [record]).tail
          else b.pending key ++ [record]) } := by
  simp only [enqueue]
  split
  · rename_i h
    have ho : b.isOver (b.pending key ++ [record]).length := h
    simp only [ho, if_true, Bool.toNat_true]
  · rename_i h
    have ho : b.isOver (b.pending key ++ [record]).length = false := Bool.eq_false_iff.2 h
    simp only [ho, Bool.toNat_false, Nat.add_zero]
    rfl

/-- Cutting a list and then the list with one more leaves the same as cutting once. -/
theorem cut_concat (b : Batches ρ) (records : List ρ) (record : ρ) :
    (if b.isOver (cut b.limit records ++ [record]).length then (cut b.limit records ++ [record]).tail
      else cut b.limit records ++ [record]) = cut b.limit (records ++ [record]) := by
  cases hl : b.limit with
  | none => simp [isOver, cut, hl]
  | some m =>
    simp only [isOver, cut, hl, decide_eq_true_eq, List.length_append, List.length_drop, List.length_singleton]
    by_cases hm : m.toNat ≤ records.length
    · have hover : m < ((records.length - (records.length - m.toNat) + 1 : Nat) : Int) := by omega
      have hsucc : records.length + 1 - m.toNat = records.length - m.toNat + 1 := by omega
      rw [if_pos hover, hsucc, ← List.drop_append_of_le_length (by omega), List.tail_drop]
    · have hover : ¬m < ((records.length - (records.length - m.toNat) + 1 : Nat) : Int) := by omega
      rw [if_neg hover, show records.length - m.toNat = 0 by omega, show records.length + 1 - m.toNat = 0 by omega]
      rfl

theorem enqueue_limit (b : Batches ρ) (key : String) (record : ρ) : (b.enqueue key record).1.limit = b.limit := by
  rw [enqueue_eq]

/-- A record that comes joins the buffer of its key. -/
theorem enqueue_pending {records : List ρ} (h : b.pending key = cut b.limit records) (other : String) :
    (b.enqueue key record).1.pending other =
      if other = key then cut b.limit (records ++ [record]) else b.pending other := by
  rw [enqueue_eq, h, cut_concat, pending, Roster.get?_put]
  split <;> rfl

/-- A record that comes is counted, and so is the one that has to go for it. -/
theorem enqueue_account (b : Batches ρ) (key : String) (record : ρ) :
    (b.enqueue key record).1.enqueued = b.enqueued + 1 ∧
    (b.enqueue key record).1.dropped + (b.enqueue key record).1.buffered = b.dropped + b.buffered + 1 := by
  rw [enqueue_eq]
  refine ⟨rfl, ?_⟩
  have hput : ∀ records, total (b.buffers.put key records) + (b.pending key).length =
      total b.buffers + records.length := fun records => total_put key records b.buffers
  simp only [buffered_eq]
  cases b.isOver (b.pending key ++ [record]).length with
  | true =>
    have htail := hput (b.pending key ++ [record]).tail
    simp only [List.length_tail, List.length_append, List.length_singleton] at htail
    simp only [if_true, Bool.toNat_true]
    omega
  | false =>
    have hall := hput (b.pending key ++ [record])
    simp only [List.length_append, List.length_singleton] at hall
    simp only [Bool.false_eq_true, if_false, Bool.toNat_false]
    omega

theorem enqueue_keys (h : b.buffers.keys.Nodup) : (b.enqueue key record).1.buffers.keys.Nodup := by
  rw [enqueue_eq]
  exact Roster.nodup_keys_put h

/-! ## Taking -/

/-- The batch that is taken is the buffer of the first key that has one; that buffer is left empty. -/
theorem take?_eq_some {batch : Batch ρ} {rest : List String} {b' : Batches ρ} :
    ∀ {keys : List String}, b.take? keys = some (batch, rest, b') →
      (∃ skipped, keys = skipped ++ batch.key :: rest ∧ ∀ key ∈ skipped, b.pending key = []) ∧
      batch.records = b.pending batch.key ∧ batch.records ≠ [] ∧
      b' = { b with buffers := b.buffers.put batch.key [] }
  | [], h => by cases h
  | key :: keys, h => by
    rw [take?] at h
    split at h
    · rename_i hp
      obtain ⟨⟨skipped, rfl, hempty⟩, hrest⟩ := take?_eq_some h
      exact ⟨⟨key :: skipped, rfl, List.forall_mem_cons.2 ⟨hp, hempty⟩⟩, hrest⟩
    · rename_i r records hp
      cases h
      exact ⟨⟨[], rfl, nofun⟩, hp.symm, by simp, rfl⟩

/-- No batch is taken if no key has records. -/
theorem take?_eq_none : ∀ {keys : List String}, b.take? keys = none → ∀ key ∈ keys, b.pending key = []
  | [], _ => nofun
  | key :: keys, h => by
    rw [take?] at h
    split at h
    · rename_i hp
      exact List.forall_mem_cons.2 ⟨hp, take?_eq_none h⟩
    · cases h

theorem put_nil_pending (b : Batches ρ) (key other : String) :
    ({ b with buffers := b.buffers.put key [] } : Batches ρ).pending other =
      if other = key then [] else b.pending other := by
  rw [pending, Roster.get?_put]
  split <;> rfl

theorem put_nil_buffered (b : Batches ρ) (key : String) :
    ({ b with buffers := b.buffers.put key [] } : Batches ρ).buffered + (b.pending key).length = b.buffered :=
  total_put key [] b.buffers

end PoolFeed.Batches
