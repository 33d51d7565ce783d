import PoolFeed.Log
import PoolFeed.Roster

/-!
# Batches

| here | there |
| --- | --- |
| `Batches` | `TradeBatcher._buffers` and the counters of `TradeBatcher` |
| `enqueue`, `lossNotice` | `TradeBatcher.enqueue` |
| `take?`, `noteEmitted`, `noteFailed` | the passage through one key of `TradeBatcher._flush` |
| `pending`, `buffered` | `TradeBatcher.pending`, and the count of buffered records in `get_stats` |

Records wait under their keys, in order of arrival, until the batch of a key is taken as a whole. A
limit, if there is one, holds for each key: the oldest record goes when one too many comes. A key that
has been seen is kept, with or without records.
-/

namespace PoolFeed

structure Batches (ρ : Type) where
  limit : Option Int := none
  buffers : Roster (List ρ) := []
  enqueued : Nat := 0
  dropped : Nat := 0
  emitted : Nat := 0
  failed : Nat := 0

/-- A batch that has been taken: what is emitted under a key. -/
structure Batch (ρ : Type) where
  key : String
  records : List ρ

namespace Batches

variable {ρ : Type}

/-- The records that wait under a key. -/
def pending (b : Batches ρ) (key : String) : List ρ := (b.buffers.get? key).getD []

/-- Whether so many records are over the limit. -/
def isOver (b : Batches ρ) (count : Nat) : Bool :=
  match b.limit with
  | none => false
  | some limit => decide (limit < count)

/-- Every thousandth loss is told, beginning with the first. -/
def lossNotice (b : Batches ρ) (key : String) : List Log.Entry :=
  match b.limit with
  | some limit =>
    if b.dropped % 1000 = 1 then
      [Log.warning s!"Buffer for {key} over {limit} records, dropping oldest ({b.dropped} dropped so far)" [.pool key]]
    else []
  | none => []

/-- Adds a record under its key. -/
def enqueue (b : Batches ρ) (key : String) (record : ρ) : Batches ρ × List Log.Entry :=
  let waiting := b.pending key ++ [record]
  let b := { b with enqueued := b.enqueued + 1 }
  if b.isOver waiting.length then
    let b := { b with buffers := b.buffers.put key waiting.tail, dropped := b.dropped + 1 }
    (b, b.lossNotice key)
  else ({ b with buffers := b.buffers.put key waiting }, [])

/-- Adds records under one key. -/
def enqueueAll (b : Batches ρ) (key : String) (records : List ρ) : Batches ρ × List Log.Entry :=
  records.foldl (fun (b, log) record =>
    let (b, more) := b.enqueue key record
    (b, log ++ more)) (b, [])

/-- Takes the batch of the first of some keys that has records; the keys after it are left over. -/
def take? (b : Batches ρ) : List String → Option (Batch ρ × List String × Batches ρ)
  | [] => none
  | key :: rest => match b.pending key with
    | [] => b.take? rest
    | r :: records => some (⟨key, r :: records⟩, rest, { b with buffers := b.buffers.put key [] })

/-- A batch has been emitted. -/
def noteEmitted (b : Batches ρ) : Batches ρ := { b with emitted := b.emitted + 1 }

/-- The emission of a batch has failed; its records are lost. -/
def noteFailed (b : Batches ρ) (key reason : String) : Batches ρ × List Log.Entry :=
  ({ b with failed := b.failed + 1 }, [Log.error s!"Failed to emit trade batch for {key}: {reason}" [.pool key]])

/-- Records under all keys. -/
def buffered (b : Batches ρ) : Nat := b.buffers.foldr (fun entry n => entry.2.length + n) 0

end Batches

end PoolFeed
