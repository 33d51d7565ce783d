import PoolFeed.Layout

/-!
# Where the fields of a layout lie

A layout says only how wide its fields are, one after the other. `Layout.field?` adds the widths up to
the offset of a field, and `lookup_parse` is the law of reading: every field of a record that could be
read holds the bytes at its offset, whatever comes before or after them.
-/

namespace PoolFeed

namespace Bytes

/-- So many bytes from an offset on. -/
def slice (b : Bytes) (offset width : Nat) : Bytes := (b.drop offset).take width

/-- The little-endian number in so many bytes at an offset. -/
def natAt (b : Bytes) (offset width : Nat) : Nat := leNat (b.slice offset width)

/-- The little-endian two's complement number in so many bytes at an offset. -/
def intAt (b : Bytes) (offset width : Nat) : Int := leInt (b.slice offset width)

theorem slice_drop (b : Bytes) (m offset width : Nat) : slice (b.drop m) offset width = b.slice (m + offset) width := by
  simp [slice, List.drop_drop]

theorem natAt_drop (b : Bytes) (m offset width : Nat) : natAt (b.drop m) offset width = b.natAt (m + offset) width := by
  rw [natAt, slice_drop, natAt]

end Bytes

namespace Layout

/-- The offset and the type of a field. -/
def field? : Layout → String → Option (Nat × FieldType)
  | [], _ => none
  | (n, t) :: rest, name =>
    if name = n then some (0, t) else (field? rest name).map fun f => (t.size + f.1, f.2)

/-- A record that was read holds in each field what the bytes at the field's offset say. -/
theorem lookup_parse : ∀ {layout : Layout} {b : Bytes} {r : Record} {name : String} {offset : Nat} {t : FieldType},
    layout.parse? b = some r → layout.field? name = some (offset, t) →
    r.lookup name = some (t.read (b.slice offset t.size))
  | [], _, _, _, _, _, _, hf => by simp [field?] at hf
  | (n, t) :: rest, b, r, name, offset, t', hp, hf => by
    simp only [parse?] at hp
    split at hp
    · simp at hp
    obtain ⟨r', hr', rfl⟩ := Option.map_eq_some_iff.1 hp
    simp only [field?] at hf
    by_cases hn : name = n
    · simp only [hn, if_true, Option.some.injEq, Prod.mk.injEq] at hf
      obtain ⟨rfl, rfl⟩ := hf
      simp [hn, Bytes.slice]
    · simp only [hn, if_false] at hf
      obtain ⟨⟨o, t''⟩, hf', he⟩ := Option.map_eq_some_iff.1 hf
      simp only [Prod.mk.injEq] at he
      obtain ⟨rfl, rfl⟩ := he
      have hne : (name == n) = false := by simp [hn]
      rw [List.lookup_cons, hne, lookup_parse hr' hf', Bytes.slice_drop]

theorem parse_number_unsigned {layout : Layout} {b : Bytes} {r : Record} {name : String} {offset width : Nat}
    (hp : layout.parse? b = some r) (hf : layout.field? name = some (offset, .unsigned width)) :
    r.number name = b.natAt offset width := by
  simp only [Record.number, lookup_parse hp hf, FieldType.read, FieldType.size, Bytes.natAt]

theorem parse_number_signed {layout : Layout} {b : Bytes} {r : Record} {name : String} {offset width : Nat}
    (hp : layout.parse? b = some r) (hf : layout.field? name = some (offset, .signed width)) :
    r.number name = b.intAt offset width := by
  simp only [Record.number, lookup_parse hp hf, FieldType.read, FieldType.size, Bytes.intAt]

theorem exists_parse {layout : Layout} {b : Bytes} (h : layout.size ≤ b.length) : ∃ r, layout.parse? b = some r :=
  Option.isSome_iff_exists.1 ((parse?_isSome_iff layout b).2 h)

end Layout

end PoolFeed
