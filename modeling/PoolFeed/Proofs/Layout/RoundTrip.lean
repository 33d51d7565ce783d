import Mathlib.Data.List.Forall2
import PoolFeed.Chain.Layouts
import PoolFeed.Proofs.Layout.Offsets

/-!
# Records and their bytes

| here | there |
| --- | --- |
| `Chart` | where `parse` of a layout finds each field |
| `charts` | `MIGRATE_EVENT`, `CREATE_POOL_ARGS`, `BUY_ARGS`, `SELL_ARGS`, `TRADE_EVENT`, `CREATE_POOL_EVENT` |

A chart says where each field of a record lies. Reading a record is reading the fields of its layout's chart, and it needs
as many bytes as the layout is wide (`parse?_eq`). A field that was read is written with the same bytes, and a value that a
field can hold is read from the bytes that it is written with; so the records of a layout and the byte strings of its size
stand for each other (`encode_of_parse`, `parse?_encode`). `layouts_round_trip` says all this of the layouts of the two
programs, with their offsets written out.
-/

namespace PoolFeed

/-! ## Numbers with a sign -/

namespace Bytes

variable {width n : Nat} {i : Int}

theorem natOfSigned_signedOfNat (h : n < span width) : natOfSigned width (signedOfNat width n) = n := by
  have hspan : (n : Int) < span width := by exact_mod_cast h
  unfold signedOfNat natOfSigned
  split
  · rw [Int.emod_eq_of_lt (Int.natCast_nonneg n) hspan, Int.toNat_natCast]
  · rw [Int.sub_emod_right, Int.emod_eq_of_lt (Int.natCast_nonneg n) hspan, Int.toNat_natCast]

/-- A number below zero is spelled as the number that many above it as there are spellings. -/
theorem natOfSigned_eq (hlo : -(span width : Int) ≤ 2 * i) (hhi : 2 * i < span width) :
    (natOfSigned width i : Int) = if 0 ≤ i then i else i + span width := by
  unfold natOfSigned
  split
  · rename_i hpos
    rw [Int.emod_eq_of_lt hpos (by omega), Int.toNat_of_nonneg hpos]
  · rename_i hneg
    rw [← Int.add_emod_right, Int.emod_eq_of_lt (by omega) (by omega), Int.toNat_of_nonneg (by omega)]

theorem natOfSigned_lt (hlo : -(span width : Int) ≤ 2 * i) (hhi : 2 * i < span width) :
    natOfSigned width i < span width := by
  have h := natOfSigned_eq hlo hhi
  split at h
  · omega
  · omega

theorem signedOfNat_natOfSigned (hlo : -(span width : Int) ≤ 2 * i) (hhi : 2 * i < span width) :
    signedOfNat width (natOfSigned width i) = i := by
  have h := natOfSigned_eq hlo hhi
  unfold signedOfNat
  split at h
  · rw [if_pos (by omega), h]
  · rw [if_neg (by omega), h]
    omega

theorem signedOfNat_bounds (h : n < span width) :
    -(span width : Int) ≤ 2 * signedOfNat width n ∧ 2 * signedOfNat width n < span width := by
  unfold signedOfNat
  split
  · omega
  · omega

end Bytes

/-! ## Fields -/

namespace FieldType

variable {t : FieldType} {b : Bytes} {v : FieldValue}

theorem write_read (h : b.length = t.size) : t.write (t.read b) = b := by
  cases t with
  | raw n => rfl
  | unsigned n =>
    simp only [size] at h
    rw [read, write, Int.toNat_natCast, ← h, Bytes.ofLeNat_leNat]
  | signed n =>
    simp only [size] at h
    rw [read, write, Bytes.leInt, ← h, Bytes.natOfSigned_signedOfNat (Bytes.leNat_lt b), Bytes.ofLeNat_leNat]

theorem admits_read (h : b.length = t.size) : t.Admits (t.read b) := by
  have hlt := Bytes.leNat_lt b
  cases t with
  | raw n => exact h
  | unsigned n =>
    simp only [size] at h
    rw [h] at hlt
    exact ⟨Int.natCast_nonneg _, by exact_mod_cast hlt⟩
  | signed n =>
    simp only [size] at h
    rw [h] at hlt
    rw [read, Admits, Bytes.leInt, h]
    exact Bytes.signedOfNat_bounds hlt

theorem length_write (h : t.Admits v) : (t.write v).length = t.size := by
  cases t with
  | raw n =>
    cases v with
    | raw b => exact h
    | number i => cases h
  | unsigned n =>
    cases v with
    | raw b => cases h
    | number i => exact Bytes.length_ofLeNat _ _
  | signed n =>
    cases v with
    | raw b => cases h
    | number i => exact Bytes.length_ofLeNat _ _

theorem read_write (h : t.Admits v) : t.read (t.write v) = v := by
  cases t with
  | raw n =>
    cases v with
    | raw b => rfl
    | number i => cases h
  | unsigned n =>
    cases v with
    | raw b => cases h
    | number i =>
      obtain ⟨hpos, hlt⟩ := h
      rw [read, write, Bytes.leNat_ofLeNat (by omega), Int.toNat_of_nonneg hpos]
  | signed n =>
    cases v with
    | raw b => cases h
    | number i =>
      obtain ⟨hlo, hhi⟩ := h
      rw [read, write, Bytes.leInt, Bytes.length_ofLeNat, Bytes.leNat_ofLeNat (Bytes.natOfSigned_lt hlo hhi),
        Bytes.signedOfNat_natOfSigned hlo hhi]

end FieldType

/-! ## Charts -/

/-- The fields of a record with their offsets. -/
abbrev Chart := List (String × Nat × FieldType)

/-- The record that lies at the offsets of a chart. -/
def Chart.read (chart : Chart) (b : Bytes) : Record :=
  chart.map fun (name, offset, t) => (name, t.read (b.slice offset t.size))

namespace Layout

/-- The fields of a layout that starts at an offset. -/
def chartFrom : Nat → Layout → Chart
  | _, [] => []
  | offset, (name, t) :: rest => (name, offset, t) :: chartFrom (offset + t.size) rest

/-- The values that a record of the layout can have. -/
def Admits (layout : Layout) (values : List FieldValue) : Prop :=
  List.Forall₂ (fun field v => field.2.Admits v) layout values

variable {layout : Layout} {b : Bytes} {r : Record} {values : List FieldValue}

theorem parse?_cons {name : String} {t : FieldType} {rest : Layout} (h : t.size ≤ b.length) :
    parse? ((name, t) :: rest) b =
      (parse? rest (b.drop t.size)).map fun fields => (name, t.read (b.take t.size)) :: fields := by
  rw [parse?, if_neg (by omega)]

theorem parse?_drop (layout : Layout) (b : Bytes) (offset : Nat) (h : offset + layout.size ≤ b.length) :
    layout.parse? (b.drop offset) = some ((layout.chartFrom offset).read b) := by
  induction layout generalizing offset with
  | nil => rfl
  | cons field rest ih =>
    obtain ⟨name, t⟩ := field
    simp only [size] at h
    have hfits : t.size ≤ (b.drop offset).length := by
      rw [List.length_drop]
      omega
    rw [parse?_cons hfits, List.drop_drop, ih (offset + t.size) (by omega)]
    rfl

/-- A record is read from as many bytes as its layout is wide, each field at its offset. -/
theorem parse?_eq (layout : Layout) (b : Bytes) :
    layout.parse? b = if layout.size ≤ b.length then some ((layout.chartFrom 0).read b) else none := by
  split
  · rename_i h
    have hparse := layout.parse?_drop b 0 (by omega)
    rwa [List.drop_zero] at hparse
  · rename_i h
    apply Option.not_isSome_iff_eq_none.1
    rwa [parse?_isSome_iff]

/-- What stands behind a record does not matter. -/
theorem parse?_take (layout : Layout) (b : Bytes) : layout.parse? (b.take layout.size) = layout.parse? b := by
  induction layout generalizing b with
  | nil => rfl
  | cons field rest ih =>
    obtain ⟨name, t⟩ := field
    have hlength : (b.take (size ((name, t) :: rest))).length < t.size ↔ b.length < t.size := by
      simp only [size, List.length_take]
      omega
    have htake : (b.take (size ((name, t) :: rest))).take t.size = b.take t.size := by
      rw [List.take_take, size, Nat.min_eq_left (Nat.le_add_right _ _)]
    have hdrop : (b.take (size ((name, t) :: rest))).drop t.size = (b.drop t.size).take (size rest) := by
      rw [List.drop_take, size, Nat.add_sub_cancel_left]
    simp only [parse?, hlength, htake, hdrop, ih]

/-- A record that was read can be written, and is written with the bytes that it was read from. -/
theorem encode_of_parse (h : layout.parse? b = some r) :
    layout.Admits (r.map (·.2)) ∧ layout.encode (r.map (·.2)) = b.take layout.size := by
  induction layout generalizing b r with
  | nil =>
    cases h
    exact ⟨.nil, rfl⟩
  | cons field rest ih =>
    obtain ⟨name, t⟩ := field
    rw [parse?] at h
    split at h
    · cases h
    rename_i hfits
    obtain ⟨fields, hfields, rfl⟩ := Option.map_eq_some_iff.1 h
    obtain ⟨hadmits, hencode⟩ := ih hfields
    have hlength : (b.take t.size).length = t.size := List.length_take_of_le (by omega)
    refine ⟨.cons (FieldType.admits_read hlength) hadmits, ?_⟩
    rw [List.map_cons, encode, FieldType.write_read hlength, hencode, size, List.take_add]

/-- Values that a record can have are read from the bytes that they are written with, whatever follows. -/
theorem parse?_encode (h : layout.Admits values) (suffix : Bytes) :
    layout.parse? (layout.encode values ++ suffix) = some ((layout.map (·.1)).zip values) := by
  induction h with
  | nil => rfl
  | @cons field v rest values hfield hrest ih =>
    obtain ⟨name, t⟩ := field
    have hlength : (t.write v).length = t.size := FieldType.length_write hfield
    have hfits : t.size ≤ (t.write v ++ encode rest values ++ suffix).length := by
      simp only [List.length_append]
      omega
    rw [encode, parse?_cons hfits, List.append_assoc, ← hlength, List.drop_left, List.take_left, ih,
      FieldType.read_write hfield]
    rfl

/-- A layout is as wide as a size says, has its fields where a chart says, and its records and their bytes stand for each
other. -/
structure RoundTrips (layout : Layout) (size : Nat) (chart : Chart) : Prop where
  parses : ∀ b, (layout.parse? b).isSome ↔ size ≤ b.length
  fields : ∀ b r, layout.parse? b = some r → r = chart.read b
  writes : ∀ b r, layout.parse? b = some r → layout.Admits (r.map (·.2)) ∧ layout.encode (r.map (·.2)) = b.take size
  front : ∀ b b', b.take size = b'.take size → layout.parse? b = layout.parse? b'
  reads : ∀ values suffix, layout.Admits values →
    layout.parse? (layout.encode values ++ suffix) = some ((chart.map (·.1)).zip values)

theorem chartFrom_names (layout : Layout) (offset : Nat) : (layout.chartFrom offset).map (·.1) = layout.map (·.1) := by
  induction layout generalizing offset with
  | nil => rfl
  | cons field rest ih =>
    obtain ⟨name, t⟩ := field
    rw [chartFrom, List.map_cons, List.map_cons, ih]

theorem roundTrips (layout : Layout) : layout.RoundTrips layout.size (layout.chartFrom 0) where
  parses := layout.parse?_isSome_iff
  fields b r h := by
    rw [parse?_eq] at h
    split at h
    · exact (Option.some.inj h).symm
    · cases h
  writes _ _ h := encode_of_parse h
  front b b' h := by rw [← layout.parse?_take b, h, parse?_take]
  reads values suffix h := by rw [chartFrom_names, parse?_encode h]

end Layout

/-! ## The layouts of the programs -/

namespace Chain

/-- The sizes of the layouts, and where their fields lie. -/
def charts : List (String × Nat × Chart) := [
  ("MIGRATE_EVENT", 176, [
    ("discriminator", 0, .raw 16),
    ("user", 16, .raw 32),
    ("mint", 48, .raw 32),
    ("mint_amount", 80, .unsigned 8),
    ("sol_amount", 88, .unsigned 8),
    ("pool_migration_fee", 96, .unsigned 8),
    ("bonding_curve", 104, .raw 32),
    ("timestamp", 136, .signed 8),
    ("pool", 144, .raw 32)]),
  ("CREATE_POOL_ARGS", 18, [
    ("index", 0, .unsigned 2),
    ("base_amount_in", 2, .unsigned 8),
    ("quote_amount_in", 10, .unsigned 8)]),
  ("BUY_ARGS", 16, [
    ("base_amount_out", 0, .unsigned 8),
    ("max_quote_amount_in", 8, .unsigned 8)]),
  ("SELL_ARGS", 16, [
    ("base_amount_in", 0, .unsigned 8),
    ("min_quote_amount_out", 8, .unsigned 8)]),
  ("TRADE_EVENT", 128, [
    ("discriminator", 0, .raw 16),
    ("timestamp", 16, .signed 8),
    ("base_amount", 24, .unsigned 8),
    ("quote_amount_limit", 32, .unsigned 8),
    ("user_base_token_reserves", 40, .unsigned 8),
    ("user_quote_token_reserves", 48, .unsigned 8),
    ("pool_base_token_reserves", 56, .unsigned 8),
    ("pool_quote_token_reserves", 64, .unsigned 8),
    ("quote_amount", 72, .unsigned 8),
    ("lp_fee_basis_points", 80, .unsigned 8),
    ("lp_fee", 88, .signed 8),
    ("protocol_fee_basis_points", 96, .unsigned 8),
    ("protocol_fee", 104, .signed 8),
    ("quote_amount_with_lp_fee", 112, .unsigned 8),
    ("user_quote_amount", 120, .unsigned 8)]),
  ("CREATE_POOL_EVENT", 124, [
    ("discriminator", 0, .raw 16),
    ("timestamp", 16, .signed 8),
    ("index", 24, .unsigned 2),
    ("creator", 26, .raw 32),
    ("base_mint", 58, .raw 32),
    ("quote_mint", 90, .raw 32),
    ("base_mint_decimals", 122, .unsigned 1),
    ("quote_mint_decimals", 123, .unsigned 1)])]

/-- The charts are those of the layouts. -/
theorem charts_eq : charts = layouts.map fun (name, layout) => (name, layout.size, layout.chartFrom 0) := by
  decide

/-- **Each layout of the two programs is as wide as its chart says and has its fields there, and its records and their bytes
stand for each other.** -/
theorem layouts_round_trip :
    List.Forall₂ (fun entry chart => entry.1 = chart.1 ∧ entry.2.RoundTrips chart.2.1 chart.2.2) layouts charts := by
  rw [charts_eq, List.forall₂_map_right_iff, List.forall₂_same]
  intro entry _
  exact ⟨rfl, entry.2.roundTrips⟩

end Chain

end PoolFeed
