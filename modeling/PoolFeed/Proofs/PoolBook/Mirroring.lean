import PoolFeed.Proofs.Changes
import PoolFeed.Proofs.PoolBook.Moves
import PoolFeed.Proofs.Text.Integer
import Mathlib

/-!
# When the store ends up with the registry's decimals

| here | there |
| --- | --- |
| `asked`, `stored` | the decimals in the calls of `register`, and in those of `set_pool_decimals`, in order |
| `reloaded` | a new `PoolRegistry` after `load` |

Every registration that changes something has its decimals stored, but in an order of its own: the write of a new
pool has two commands, and that of a correction has one and does not wait for it. `asked` lists the decimals in the
order of the registrations and `stored` in the order in which they reach the store. Once no write is under way the
two lists have the same entries, and the store has the decimals of the registry exactly if they agree on the last
entry of every pool (`mirrors_iff_inOrder`). A correction that is stored before the registration that it corrects
is lost (`overtaken_correction_lost`).
-/

namespace PoolFeed

namespace PoolBook

/-! ## What is asked for and what is stored -/

/-- The decimals that the moves ask for, in the order of the registrations. -/
def asked (b : PoolBook) : List Move → List (String × Int)
  | [] => []
  | m :: moves => (m.asked? b).toList ++ asked (b.step m) moves

/-- The decimals that reach the store, in their order. -/
def stored (b : PoolBook) : List Move → List (String × Int)
  | [] => []
  | m :: moves => (m.stored? b).toList ++ stored (b.step m) moves

/-- What some writes have still to store. -/
def due (writes : List PoolWrite) : List (String × Int) := writes.map fun w => (w.address, w.decimals)

/-- The base decimals of a pool. -/
def base? (b : PoolBook) (address : String) : Option Int := (b.registry.pools.get? address).map Scale.base

section

variable {b b' : PoolBook} {new done : Option (String × Int)}

/-- A registration shows at once. -/
theorem Effect.base? (h : Effect b new done b') (address : String) :
    b'.base? address = latest new.toList address (b.base? address) := by
  cases h with
  | registered other decimals change =>
    simp only [PoolBook.base?, Roster.get?_put, latest, Option.toList_some, List.foldl_cons, List.foldl_nil]
    by_cases he : address = other
    · simp [he]
    · simp [he, Ne.symm he]
  | nothing | told | scaled => rfl

theorem Effect.table (h : Effect b new done b') (address : String) :
    b'.store.decimals.get? address =
      latest (done.toList.map fun x => (x.1, toString x.2)) address (b.store.decimals.get? address) := by
  cases h with
  | told => simp only [Option.toList_none, List.map_nil, latest, List.foldl_nil]; split <;> rfl
  | scaled w before after split stage =>
    simp only [Roster.get?_put, latest, Option.toList_some, List.map_cons, List.map_nil, List.foldl_cons,
      List.foldl_nil]
    by_cases he : address = w.address
    · simp [he]
    · simp [he, Ne.symm he]
  | nothing | registered => rfl

/-- What is asked for is due until it is stored. -/
theorem Effect.due (h : Effect b new done b') :
    (done.toList ++ due b'.registry.writes).Perm (due b.registry.writes ++ new.toList) := by
  cases h with
  | nothing => simp
  | registered => simp [PoolBook.due]
  | told w before after split stage => simp [PoolBook.due, split]
  | scaled w before after split stage => simp [PoolBook.due, split, List.perm_middle.symm]

end

theorem base?_run (address : String) : ∀ {b : PoolBook} (moves : List Move), b.Sound →
    (b.run moves).base? address = latest (asked b moves) address (b.base? address)
  | _, [], _ => rfl
  | b, m :: moves, hb => by
    rw [run_cons, base?_run address moves (hb.step m), (hb.effect m).base?, asked, latest_append]

theorem table_run (address : String) : ∀ {b : PoolBook} (moves : List Move), b.Sound →
    (b.run moves).store.decimals.get? address =
      latest ((stored b moves).map fun x => (x.1, toString x.2)) address (b.store.decimals.get? address)
  | _, [], _ => rfl
  | b, m :: moves, hb => by
    rw [run_cons, table_run address moves (hb.step m), (hb.effect m).table, stored, List.map_append, latest_append]

/-- All that is asked for in a run, and all that was due before it, is stored in it or due after it. -/
theorem due_run : ∀ {b : PoolBook} (moves : List Move), b.Sound →
    (stored b moves ++ due (b.run moves).registry.writes).Perm (due b.registry.writes ++ asked b moves)
  | _, [], _ => by simp [stored, asked]
  | b, m :: moves, hb => by
    have later := due_run moves (hb.step m)
    have first := (hb.effect m).due
    rw [stored, asked, run_cons, List.append_assoc, ← List.append_assoc (due b.registry.writes)]
    refine (later.append_left _).trans ?_
    rw [← List.append_assoc]
    exact first.append_right _

/-! ## The store once no write is under way -/

/-- The store tracks the pools of the registry. -/
def TracksAlike (b : PoolBook) : Prop := ∀ address, address ∈ b.store.tracked ↔ b.registry.isTracked address

/-- The store has the current decimals of every pool. -/
def ScalesAlike (b : PoolBook) : Prop :=
  ∀ address decimals, b.base? address = some decimals → b.store.decimals.get? address = some (toString decimals)

/-- The store has what the registry has, and no write is under way. -/
structure Mirrored (b : PoolBook) : Prop where
  shared : b.registry.shared = true
  quote : ∀ address scale, b.registry.pools.get? address = some scale → scale.quote = b.registry.quote
  idle : b.registry.writes = []
  tracks : b.TracksAlike
  scales : b.ScalesAlike

theorem Mirrored.sound {b : PoolBook} (hb : b.Mirrored) (hw : b.store.Willing) : b.Sound where
  shared := hb.shared
  willing := hw
  ticketed := ⟨by simp [hb.idle], by simp [hb.idle]⟩
  quote := hb.quote
  tracked address := by
    rw [hb.idle]
    simp only [announced, List.filter_nil, List.map_nil, List.not_mem_nil, or_false]
    exact (hb.tracks address).symm

/-- For every pool the last decimals that are asked for are the last to be stored. -/
def InOrder (b : PoolBook) (moves : List Move) : Prop :=
  ∀ address, latest (stored b moves) address none = latest (asked b moves) address none

section

variable {b : PoolBook} {moves : List Move}

/-- The same entries are stored as are asked for, so for the same pools. -/
theorem Mirrored.perm (hb : b.Mirrored) (hw : b.store.Willing) (hdone : (b.run moves).registry.writes = []) :
    (stored b moves).Perm (asked b moves) := by
  simpa [hdone, hb.idle, due] using due_run moves (hb.sound hw)

/-- The decimals that a run leaves in the store for a pool. -/
def held? (b : PoolBook) (moves : List Move) (address : String) : Option Int :=
  latest (stored b moves) address (b.base? address)

theorem Mirrored.held?_eq_iff (hb : b.Mirrored) (hw : b.store.Willing) (hdone : (b.run moves).registry.writes = [])
    (address : String) : held? b moves address = (b.run moves).base? address ↔
      latest (stored b moves) address none = latest (asked b moves) address none := by
  rw [held?, base?_run address moves (hb.sound hw), latest_eq_iff (hb.perm hw hdone)]

/-- Decimals are held for the pools of the registry. -/
theorem Mirrored.isSome_held? (hb : b.Mirrored) (hw : b.store.Willing) (hdone : (b.run moves).registry.writes = [])
    (address : String) : (held? b moves address).isSome = ((b.run moves).base? address).isSome := by
  rw [held?, base?_run address moves (hb.sound hw), latest_eq_or, latest_eq_or (asked b moves), Option.isSome_or,
    Option.isSome_or, isSome_latest_perm (hb.perm hw hdone)]

/-- The table has the decimals that are held for the pools of the registry. -/
theorem Mirrored.get?_run (hb : b.Mirrored) (hw : b.store.Willing) {address : String} {decimals : Int}
    (h : held? b moves address = some decimals) :
    (b.run moves).store.decimals.get? address = some (toString decimals) := by
  have texts : latest ((stored b moves).map fun x => (x.1, toString x.2)) address (none.map toString) =
      (latest (stored b moves) address none).map toString := latest_map toString (stored b moves) none
  rw [table_run address moves (hb.sound hw), latest_eq_or, ← Option.map_none, texts]
  rw [held?, latest_eq_or] at h
  cases hl : latest (stored b moves) address none with
  | some value =>
    rw [hl, Option.some_or] at h
    obtain rfl := Option.some.inj h
    rfl
  | none =>
    rw [hl] at h
    exact hb.scales address decimals h

/-- The store has the decimals of the registry exactly if the last of every pool are held. -/
theorem Mirrored.scalesAlike_iff (hb : b.Mirrored) (hw : b.store.Willing)
    (hdone : (b.run moves).registry.writes = []) : (b.run moves).ScalesAlike ↔ InOrder b moves := by
  refine Iff.trans ?_ (forall_congr' fun address => hb.held?_eq_iff hw hdone address)
  constructor
  · intro h address
    have hsome := hb.isSome_held? hw hdone address
    cases hbase : (b.run moves).base? address with
    | none => simpa [hbase] using hsome
    | some current =>
      rw [hbase] at hsome
      obtain ⟨held, hheld⟩ := Option.isSome_iff_exists.1 hsome
      have text : toString held = toString current :=
        Option.some.inj ((hb.get?_run hw hheld).symm.trans (h address current hbase))
      rw [hheld, Int.repr_inj.1 text]
  · intro h address decimals hbase
    exact hb.get?_run hw ((h address).trans hbase)

/-! ## A registry that is filled from the store -/

/-- A fresh registry with the same defaults, filled from the store. -/
def reloaded (b : PoolBook) : Registry :=
  (b.store.warm { defaultBase := b.registry.defaultBase, quote := b.registry.quote, shared := true }).2.1

/-- A table of texts is read where it holds integers. -/
theorem readDecimals_get? {address text : String} {decimals : Int} (hi : Text.integer? text = some decimals) :
    ∀ {table : Roster String}, table.get? address = some text →
      Roster.get? (SharedStore.readDecimals table).1 address = some decimals
  | (k, t) :: rest, h => by
    simp only [Roster.get?] at h
    simp only [SharedStore.readDecimals]
    by_cases hk : k = address
    · rw [if_pos hk] at h
      obtain rfl := Option.some.inj h
      simp [hi, Roster.get?, hk]
    · rw [if_neg hk] at h
      have ih := readDecimals_get? hi h
      split <;> simpa [Roster.get?, hk] using ih

/-- What a fresh registry answers. -/
theorem reloaded_get? {b : PoolBook} (hw : b.store.Willing) (address : String) :
    b.reloaded.pools.get? address =
      if address ∈ b.store.tracked then
        some ⟨(Roster.get? (SharedStore.readDecimals b.store.decimals).1 address).getD b.registry.defaultBase,
          b.registry.quote⟩
      else none := by
  have tracked : b.store.allTracked = .ok (b.store.tracked.mergeSort fun a b => decide (a ≤ b)) := by
    simp only [SharedStore.allTracked, SharedStore.permit, hw.smembers]
    rfl
  have table : b.store.allDecimals = .ok (SharedStore.readDecimals b.store.decimals) := by
    simp only [SharedStore.allDecimals, SharedStore.permit, hw.hgetall]
    rfl
  simp only [reloaded, SharedStore.warm, tracked, table, Registry.load_get?, List.mem_mergeSort]
  rfl

theorem reloaded_defaults (b : PoolBook) :
    b.reloaded.defaultBase = b.registry.defaultBase ∧ b.reloaded.quote = b.registry.quote := by
  rw [reloaded, SharedStore.warm]
  split <;> exact ⟨rfl, rfl⟩

/-- All decimals are short enough to be read from the store. -/
structure Legible (b : PoolBook) (moves : List Move) : Prop where
  start : ∀ address decimals, b.base? address = some decimals → decimals.natAbs < 10 ^ Text.digitLimit
  asked : ∀ x ∈ asked b moves, x.2.natAbs < 10 ^ Text.digitLimit

theorem Mirrored.natAbs_held_lt (hb : b.Mirrored) (hw : b.store.Willing) (hdone : (b.run moves).registry.writes = [])
    (hl : b.Legible moves) {address : String} {decimals : Int} (h : held? b moves address = some decimals) :
    decimals.natAbs < 10 ^ Text.digitLimit := by
  rw [held?, latest_eq_or, Option.or_eq_some_iff] at h
  obtain h | ⟨-, h⟩ := h
  · exact hl.asked _ ((hb.perm hw hdone).mem_iff.1 (mem_of_latest h))
  · exact hl.start address decimals h

theorem Mirrored.tracksAlike (hb : b.Mirrored) (hw : b.store.Willing) (hdone : (b.run moves).registry.writes = []) :
    (b.run moves).TracksAlike := by
  intro address
  have tracked := ((hb.sound hw).run moves).tracked address
  rw [hdone] at tracked
  simpa [announced, Registry.isTracked, Roster.has] using tracked.symm

/-- A fresh registry answers for a pool what the registry answers exactly if its decimals are held. -/
theorem Mirrored.reloaded_decimalsOf_iff (hb : b.Mirrored) (hw : b.store.Willing)
    (hdone : (b.run moves).registry.writes = []) (hl : b.Legible moves) (address : String) :
    (b.run moves).reloaded.decimalsOf address = (b.run moves).registry.decimalsOf address ↔
      held? b moves address = (b.run moves).base? address := by
  have sound := (hb.sound hw).run moves
  have tracks := hb.tracksAlike hw hdone address
  have hsome := hb.isSome_held? hw hdone address
  have answers := reloaded_get? sound.willing address
  rw [Registry.isTracked, Roster.has] at tracks
  rw [Registry.decimalsOf, Registry.decimalsOf, (reloaded_defaults _).1, (reloaded_defaults _).2]
  cases hget : (b.run moves).registry.pools.get? address with
  | none =>
    have hbase : (b.run moves).base? address = none := by rw [base?, hget, Option.map_none]
    have hheld : held? b moves address = none := by simpa [hbase] using hsome
    rw [answers, if_neg (by simp [tracks, hget]), hbase, hheld]
    exact iff_of_true rfl rfl
  | some scale =>
    have hbase : (b.run moves).base? address = some scale.base := by rw [base?, hget, Option.map_some]
    rw [hbase] at hsome
    obtain ⟨held, hheld⟩ := Option.isSome_iff_exists.1 hsome
    have read := readDecimals_get? (Text.integer?_toString (hb.natAbs_held_lt hw hdone hl hheld)) (hb.get?_run hw hheld)
    have quote := sound.quote address scale hget
    rw [answers, if_pos (by simp [tracks, hget]), read, hbase, hheld, ← quote]
    obtain ⟨base, q⟩ := scale
    simp

/-- **The store mirrors the registry exactly if for every pool the last decimals are stored last.** Whatever the
registrations are and however their writes interleave, once none is under way all that was asked for is stored, the
store tracks the pools of the registry, and so does a registry that is filled from it. Only the order can be wrong. -/
theorem mirrors_iff_inOrder (b : PoolBook) (moves : List Move) (hb : b.Mirrored) (hw : b.store.Willing)
    (hdone : (b.run moves).registry.writes = []) :
    (stored b moves).Perm (asked b moves) ∧ (b.run moves).TracksAlike ∧
    ((b.run moves).ScalesAlike ↔ InOrder b moves) ∧
    (∀ address, (b.run moves).reloaded.isTracked address = (b.run moves).registry.isTracked address) ∧
    (b.Legible moves →
      ((∀ address, (b.run moves).reloaded.decimalsOf address = (b.run moves).registry.decimalsOf address) ↔
        InOrder b moves)) := by
  refine ⟨hb.perm hw hdone, hb.tracksAlike hw hdone, hb.scalesAlike_iff hw hdone, fun address => ?_, fun hl => ?_⟩
  · have tracks := hb.tracksAlike hw hdone address
    rw [Registry.isTracked, Roster.has, reloaded_get? ((hb.sound hw).run moves).willing]
    cases hmem : (b.run moves).registry.isTracked address <;> simp_all
  · exact forall_congr' fun address =>
      (hb.reloaded_decimalsOf_iff hw hdone hl address).trans (hb.held?_eq_iff hw hdone address)

end

/-- A registry without pools next to an empty store. -/
def fresh : PoolBook := ⟨{ shared := true }, {}⟩

theorem mirrored_fresh : fresh.Mirrored where
  shared := rfl
  quote _ _ h := by cases h
  idle := rfl
  tracks address := by simp [fresh, Registry.isTracked, Roster.has]
  scales _ _ h := by cases h

theorem willing_fresh : fresh.store.Willing := ⟨rfl, rfl, rfl, rfl⟩

/-- Two pools whose writes interleave; the correction of the first is stored after what it corrects. -/
def interleaved : List Move := [
  .register "A" none, .command 0, .register "A" (some 9), .register "B" (some (-4)),
  .command 2, .command 0, .command 2, .command 1]

theorem mirrors_interleaved :
    (fresh.run interleaved).registry.writes = [] ∧ (fresh.run interleaved).ScalesAlike ∧
    ∀ address,
      (fresh.run interleaved).reloaded.decimalsOf address = (fresh.run interleaved).registry.decimalsOf address := by
  have hdone : (fresh.run interleaved).registry.writes = [] := by decide +kernel
  have hasked : asked fresh interleaved = [("A", 6), ("A", 9), ("B", -4)] := by decide +kernel
  have hstored : stored fresh interleaved = [("A", 6), ("B", -4), ("A", 9)] := by decide +kernel
  have hlegible : fresh.Legible interleaved := ⟨nofun, by rw [hasked]; decide +kernel⟩
  have horder : fresh.InOrder interleaved := by
    intro address
    rw [hasked, hstored]
    by_cases hA : "A" = address
    · subst hA; decide
    · by_cases hB : "B" = address <;> simp [latest, hA, hB]
  obtain ⟨-, -, scales, -, reload⟩ := mirrors_iff_inOrder fresh interleaved mirrored_fresh willing_fresh hdone
  exact ⟨hdone, scales.2 horder, (reload hlegible).2 horder⟩

/-- A pool and its correction, where the correction is stored before the decimals that it corrects. -/
def overtaken : List Move := [.register "A" none, .register "A" (some 9), .command 0, .command 1, .command 0]

/-- The registry has the correction, and no write has failed or is under way, but the store has what was corrected,
and so has a registry that is filled from it. -/
theorem overtaken_correction_lost :
    fresh.Mirrored ∧ fresh.store.Willing ∧
    (fresh.run overtaken).registry.writes = [] ∧ (fresh.run overtaken).registry.failed = 0 ∧
    (fresh.run overtaken).registry.decimalsOf "A" = ⟨9, 9⟩ ∧
    (fresh.run overtaken).store.decimals.get? "A" = some "6" ∧
    (fresh.run overtaken).reloaded.decimalsOf "A" = ⟨6, 9⟩ :=
  ⟨mirrored_fresh, willing_fresh, by decide +kernel⟩

end PoolBook

end PoolFeed
