import PoolFeed.Batches

/-!
# Histories of batching

A history tells what happened to a batcher in order: records came, flushes began, batches were taken to be
emitted. In a fair history (`Fair`) every batch is what it should be at its place: the records that came for
its key since the previous batch of that key, cut to the limit. What can be said of the batches of a key
follows from that alone: nothing is lost without a limit (`Fair.flatten_batches`), and other keys do not
matter (`Fair.deal_outline`).
-/

namespace PoolFeed.Batcher

variable {ρ : Type}

inductive Entry (ρ : Type) where
  | came (key : String) (record : ρ)
  /-- A task has begun to flush. -/
  | begun (task : Nat)
  /-- A task has taken a batch and emits it: to the room of its key, as a `trade:batch`. -/
  | taken (task : Nat) (batch : Batch ρ)

abbrev History (ρ : Type) := List (Entry ρ)

/-- The last records, as many as a limit allows. -/
def cut (limit : Option Int) (records : List ρ) : List ρ :=
  match limit with
  | none => records
  | some m => records.drop (records.length - m.toNat)

@[simp] theorem cut_nil (limit : Option Int) : cut limit ([] : List ρ) = [] := by
  cases limit with
  | none => rfl
  | some m => exact List.drop_nil

theorem cut_sublist (limit : Option Int) (records : List ρ) : (cut limit records).Sublist records := by
  cases limit with
  | none => exact List.Sublist.refl records
  | some m => exact List.drop_sublist _ _

namespace History

/-- The records that have come for a key. -/
def records (key : String) (h : History ρ) : List ρ := h.filterMap fun
  | .came k r => if k = key then some r else none
  | _ => none

/-- The records that have come for a key since its last batch was taken. -/
def since (key : String) (h : History ρ) : List ρ := h.foldl (fun records e => match e with
  | .came k r => if k = key then records ++ [r] else records
  | .begun _ => records
  | .taken _ b => if b.key = key then [] else records) []

/-- The batches of a key that have been taken. -/
def batches (key : String) (h : History ρ) : List (List ρ) := h.filterMap fun
  | .taken _ b => if b.key = key then some b.records else none
  | _ => none

/-- The keys whose batches a task has taken since it last began to flush. -/
def flushed (task : Nat) (h : History ρ) : List String := h.foldl (fun keys e => match e with
  | .came _ _ => keys
  | .begun t => if t = task then [] else keys
  | .taken t b => if t = task then keys ++ [b.key] else keys) []

/-- What a history is for one key, without the contents of the batches: a record has come, or a batch was taken. -/
def outline (key : String) (h : History ρ) : List (Option ρ) := h.filterMap fun
  | .came k r => if k = key then some (some r) else none
  | .begun _ => none
  | .taken _ b => if b.key = key then some none else none

/-- The batches that an outline makes, and the records that are left. -/
def deal (limit : Option Int) (o : List (Option ρ)) : List (List ρ) × List ρ := o.foldl (fun d x => match x with
  | some r => (d.1, d.2 ++ [r])
  | none => (d.1 ++ [cut limit d.2], [])) ([], [])

/-- The records in all batches. -/
def emittedRecords (h : History ρ) : Nat := h.foldl (fun n e => match e with
  | .came _ _ | .begun _ => n
  | .taken _ b => n + b.records.length) 0

variable {key : String} {h : History ρ} {task : Nat} {b : Batch ρ}

/-- The last entry of a history is the one that is looked for, or that one is in the rest. -/
theorem split_concat {before after : History ρ} {e x : Entry ρ} (hs : h ++ [e] = before ++ x :: after) :
    (before = h ∧ x = e) ∨ ∃ rest, h = before ++ x :: rest := by
  rcases List.eq_nil_or_concat after with rfl | ⟨rest, y, rfl⟩
  · obtain ⟨rfl, he⟩ := List.append_inj' hs rfl
    cases he
    exact .inl ⟨rfl, rfl⟩
  · rw [List.concat_eq_append, ← List.cons_append, ← List.append_assoc] at hs
    exact .inr ⟨rest, (List.append_inj' hs rfl).1⟩

@[simp] theorem since_came (k : String) (r : ρ) :
    since key (h ++ [.came k r]) = if k = key then since key h ++ [r] else since key h := by
  simp only [since, List.foldl_append, List.foldl_cons, List.foldl_nil]

@[simp] theorem since_begun : since key (h ++ [.begun task]) = since key h := by
  simp only [since, List.foldl_append, List.foldl_cons, List.foldl_nil]

@[simp] theorem since_taken : since key (h ++ [.taken task b]) = if b.key = key then [] else since key h := by
  simp only [since, List.foldl_append, List.foldl_cons, List.foldl_nil]

@[simp] theorem flushed_came (k : String) (r : ρ) : flushed task (h ++ [.came k r]) = flushed task h := by
  simp only [flushed, List.foldl_append, List.foldl_cons, List.foldl_nil]

@[simp] theorem flushed_begun (other : Nat) :
    flushed task (h ++ [.begun other]) = if other = task then [] else flushed task h := by
  simp only [flushed, List.foldl_append, List.foldl_cons, List.foldl_nil]

@[simp] theorem flushed_taken (other : Nat) :
    flushed task (h ++ [.taken other b]) = if other = task then flushed task h ++ [b.key] else flushed task h := by
  simp only [flushed, List.foldl_append, List.foldl_cons, List.foldl_nil]

@[simp] theorem emittedRecords_came (k : String) (r : ρ) : emittedRecords (h ++ [.came k r]) = emittedRecords h := by
  simp only [emittedRecords, List.foldl_append, List.foldl_cons, List.foldl_nil]

@[simp] theorem emittedRecords_begun : emittedRecords (h ++ [.begun task]) = emittedRecords h := by
  simp only [emittedRecords, List.foldl_append, List.foldl_cons, List.foldl_nil]

@[simp] theorem emittedRecords_taken :
    emittedRecords (h ++ [.taken task b]) = emittedRecords h + b.records.length := by
  simp only [emittedRecords, List.foldl_append, List.foldl_cons, List.foldl_nil]

theorem deal_record (limit : Option Int) (o : List (Option ρ)) (r : ρ) :
    deal limit (o ++ [some r]) = ((deal limit o).1, (deal limit o).2 ++ [r]) := by
  simp only [deal, List.foldl_append, List.foldl_cons, List.foldl_nil]

theorem deal_batch (limit : Option Int) (o : List (Option ρ)) :
    deal limit (o ++ [none]) = ((deal limit o).1 ++ [cut limit (deal limit o).2], []) := by
  simp only [deal, List.foldl_append, List.foldl_cons, List.foldl_nil]

end History

open History

/-- Every batch is not empty and holds what came for its key since the one before, cut to the limit; and no
flush takes two batches of one key. -/
inductive Fair (limit : Option Int) : History ρ → Prop
  | nil : Fair limit []
  | came {h : History ρ} (k : String) (r : ρ) : Fair limit h → Fair limit (h ++ [.came k r])
  | begun {h : History ρ} (task : Nat) : Fair limit h → Fair limit (h ++ [.begun task])
  | taken {h : History ρ} {task : Nat} {b : Batch ρ} : Fair limit h → b.records ≠ [] →
    b.records = cut limit (since b.key h) → b.key ∉ flushed task h → Fair limit (h ++ [.taken task b])

namespace Fair

variable {limit : Option Int} {h : History ρ}

/-- The law of a batch, at its place in the history. -/
theorem batch_eq {before after : History ρ} {task : Nat} {b : Batch ρ} (hf : Fair limit h)
    (hsplit : h = before ++ .taken task b :: after) : b.records ≠ [] ∧ b.records = cut limit (since b.key before) := by
  induction hf generalizing after with
  | nil => exact absurd hsplit (by simp)
  | came k r hf ih =>
    rcases split_concat hsplit with ⟨-, he⟩ | ⟨rest, hrest⟩
    · cases he
    · exact ih hrest
  | begun t hf ih =>
    rcases split_concat hsplit with ⟨-, he⟩ | ⟨rest, hrest⟩
    · cases he
    · exact ih hrest
  | taken hf hne heq hnew ih =>
    rcases split_concat hsplit with ⟨rfl, he⟩ | ⟨rest, hrest⟩
    · cases he
      exact ⟨hne, heq⟩
    · exact ih hrest

/-- A flush takes at most one batch of a key. -/
theorem flushed_nodup (hf : Fair limit h) (task : Nat) : (flushed task h).Nodup := by
  induction hf with
  | nil => exact List.nodup_nil
  | came k r hf ih => rwa [flushed_came]
  | begun t hf ih =>
    rw [flushed_begun]
    split
    · exact List.nodup_nil
    · exact ih
  | @taken h t b hf hne heq hnew ih =>
    rw [flushed_taken]
    split
    · rename_i ht
      subst ht
      rw [List.nodup_append]
      refine ⟨ih, by simp, fun k hk k' hk' => ?_⟩
      rw [List.mem_singleton.1 hk']
      exact fun e => hnew (e ▸ hk)
    · exact ih

/-- The batches of a key are those that its outline makes, whatever happens to other keys. -/
theorem deal_outline (hf : Fair limit h) (key : String) :
    deal limit (outline key h) = (batches key h, since key h) := by
  induction hf with
  | nil => rfl
  | @came h k r hf ih =>
    simp only [outline, batches] at ih ⊢
    by_cases hk : k = key
    · simp [hk, deal_record, ih]
    · simp [hk, ih]
  | begun t hf ih => simpa [outline, batches] using ih
  | @taken h t b hf hne heq hnew ih =>
    simp only [outline, batches] at ih ⊢
    by_cases hk : b.key = key
    · simp [hk, deal_batch, ih, heq]
    · simp [hk, ih]

/-- Without a limit nothing is lost, doubled or reordered: the batches of a key and what is left of it are the
records that have come, one after the other. -/
theorem flatten_batches {h : History ρ} (hf : Fair none h) (key : String) :
    (batches key h).flatten ++ since key h = records key h := by
  generalize hl : (none : Option Int) = limit at hf
  induction hf with
  | nil => rfl
  | @came h k r hf ih =>
    simp only [batches, records] at ih ⊢
    by_cases hk : k = key
    · simp [hk, ← ih]
    · simp [hk, ih]
  | begun t hf ih => simpa [batches, records] using ih
  | @taken h t b hf hne heq hnew ih =>
    subst hl
    simp only [batches, records] at ih ⊢
    by_cases hk : b.key = key
    · simp [hk, ← ih, heq, cut]
    · simp [hk, ih]

/-- With a limit some may be lost, and still nothing is doubled or reordered. -/
theorem sublist_batches (hf : Fair limit h) (key : String) :
    ((batches key h).flatten ++ since key h).Sublist (records key h) := by
  induction hf with
  | nil => exact .slnil
  | @came h k r hf ih =>
    simp only [batches, records] at ih ⊢
    by_cases hk : k = key
    · simpa [hk, ← List.append_assoc] using ih
    · simpa [hk] using ih
  | begun t hf ih => simpa [batches, records] using ih
  | @taken h t b hf hne heq hnew ih =>
    simp only [batches, records] at ih ⊢
    by_cases hk : b.key = key
    · subst hk
      have hcut : (cut limit (since b.key h)).Sublist (since b.key h) := cut_sublist limit _
      simpa [heq] using (hcut.append_left _).trans ih
    · simpa [hk] using ih

end Fair

end PoolFeed.Batcher
