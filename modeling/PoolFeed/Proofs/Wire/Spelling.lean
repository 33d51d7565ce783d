import PoolFeed.Wire.Message

/-!
# How messages are spelled

The rules of the wire, told from the writer's side. A tag stands before every field; a number, a word of four or eight
bytes or a chunk with its length follows it, or fields and a closing tag if it opens a group (`Payload`, `Fields`).
`Spells` says which bytes spell a message under a schema: the entries of the message in their order, and between them any
fields that the schema does not name. `Spells.read` is the other direction: the reader finds exactly those entries.
-/

namespace PoolFeed.Wire

/-! ## Tags and payloads -/

/-- A number that a tag can carry. -/
def IsFieldNumber (k : Nat) : Prop := 1 ≤ k ∧ 8 * k < word32

instance (k : Nat) : Decidable (IsFieldNumber k) := inferInstanceAs (Decidable (_ ∧ _))

/-- What follows a tag of a form, unless it is a group. -/
inductive Payload : (form : Nat) → RawValue → Bytes → Prop
  | varint {n : Nat} : n < word64 → Payload 0 (.varint n) (Varint.write n)
  | wide {b : Bytes} : b.length = 8 → Payload 1 (.fixed b) b
  | chunk {b : Bytes} : b.length < chunkLimit → Payload 2 (.chunk b) (sized b)
  | narrow {b : Bytes} : b.length = 4 → Payload 5 (.fixed b) b

variable {k form n d depth : Nat} {v : RawValue} {b p rest : Bytes}

theorem readTag?_tag (hk : IsFieldNumber k) (hform : form < 8) (rest : Bytes) :
    readTag? (tag k form ++ rest) = some (k, form, rest) := by
  obtain ⟨hpos, hlt⟩ := hk
  have hword : 8 * k + form < word32 := by
    simp only [word32] at *
    omega
  have hread : Varint.read? 5 (tag k form ++ rest) = some (8 * k + form, rest) :=
    Varint.read?_write_append rest (Nat.lt_of_lt_of_le hword (by decide))
  have hdiv : (8 * k + form) / 8 = k := by omega
  have hmod : (8 * k + form) % 8 = form := by omega
  have hlow : 8 ≤ 8 * k + form := by omega
  simp [readTag?, hread, hword, hlow, hdiv, hmod]

theorem take?_append (hn : b.length = n) (rest : Bytes) : take? n (b ++ rest) = some (b, rest) := by
  subst hn
  simp [take?]

theorem read?_length (hb : b.length < chunkLimit) (rest : Bytes) :
    Varint.read? 5 (Varint.write b.length ++ rest) = some (b.length, rest) :=
  Varint.read?_write_append rest (Nat.lt_of_lt_of_le hb (by decide))

theorem read?_number (hn : n < word64) (rest : Bytes) : Varint.read? 10 (Varint.write n ++ rest) = some (n, rest) :=
  Varint.read?_write_append rest (Nat.lt_of_lt_of_le hn (by decide))

namespace Payload

theorem read (h : Payload form v p) (rest : Bytes) : readValue? form (p ++ rest) = some (v, rest) := by
  cases h with
  | varint hn => simp [readValue?, read?_number hn, Nat.mod_eq_of_lt hn]
  | wide hb | narrow hb => simp [readValue?, take?_append hb]
  | chunk hb => simp [readValue?, sized, read?_length hb, take?_append rfl, Nat.not_le.2 hb]

theorem form_lt (h : Payload form v p) : form < 8 := by
  cases h <;> decide

theorem form_ne (h : Payload form v p) : form ≠ 3 ∧ form ≠ 4 := by
  cases h <;> decide

end Payload

theorem tag_length_pos (k form : Nat) : 0 < (tag k form).length := by
  rw [tag, Varint.write]
  split <;> simp

/-! ## Groups -/

/-- Fields of any numbers and forms, one after the other. A group holds fields again, down to some depth. -/
inductive Fields : (depth : Nat) → Bytes → Prop
  | nil {d : Nat} : Fields d []
  | plain {d k form : Nat} {v : RawValue} {p b : Bytes} : IsFieldNumber k → Payload form v p → Fields d b → Fields d (tag k form ++ p ++ b)
  | group {d k : Nat} {inside b : Bytes} : IsFieldNumber k → Fields d inside → Fields (d + 1) b →
    Fields (d + 1) (tag k 3 ++ inside ++ tag k 4 ++ b)

/-- A group is passed over up to its closing tag. -/
theorem Fields.skip (h : Fields d b) (hk : IsFieldNumber k) (hd : d < depth) (fuel : Nat) (hfuel : b.length < fuel)
    (rest : Bytes) : skipGroup? fuel depth k (b ++ tag k 4 ++ rest) = some rest := by
  induction h generalizing k fuel depth rest with
  | nil =>
    obtain ⟨fuel, rfl⟩ := Nat.exists_eq_succ_of_ne_zero (Nat.ne_of_gt hfuel)
    obtain ⟨depth, rfl⟩ := Nat.exists_eq_succ_of_ne_zero (Nat.ne_of_gt (Nat.zero_lt_of_lt hd))
    simp [skipGroup?, readTag?_tag hk]
  | @plain d k' form v p b hk' hp hb ih =>
    obtain ⟨fuel, rfl⟩ := Nat.exists_eq_succ_of_ne_zero (Nat.ne_of_gt (Nat.zero_lt_of_lt hfuel))
    obtain ⟨depth, rfl⟩ := Nat.exists_eq_succ_of_ne_zero (Nat.ne_of_gt (Nat.zero_lt_of_lt hd))
    have htag := tag_length_pos k' form
    simp only [List.length_append] at hfuel
    have hrest := ih hk hd fuel (by omega) rest
    simp only [List.append_assoc] at hrest ⊢
    rw [skipGroup?, readTag?_tag hk' hp.form_lt]
    simp only [Option.bind_eq_bind, Option.bind_some]
    split
    · exact absurd rfl hp.form_ne.1
    · exact absurd rfl hp.form_ne.2
    · rw [hp.read, Option.bind_some]
      exact hrest
  | @group d k' inside b hk' hin hb ihin ihb =>
    obtain ⟨fuel, rfl⟩ := Nat.exists_eq_succ_of_ne_zero (Nat.ne_of_gt (Nat.zero_lt_of_lt hfuel))
    obtain ⟨depth, rfl⟩ := Nat.exists_eq_succ_of_ne_zero (Nat.ne_of_gt (Nat.zero_lt_of_lt hd))
    have htag := tag_length_pos k' 3
    simp only [List.length_append] at hfuel
    have hinside := ihin hk' (show _ < depth by omega) fuel (by omega) (b ++ tag k 4 ++ rest)
    have hrest := ihb hk hd fuel (by omega) rest
    simp only [List.append_assoc] at hinside hrest ⊢
    rw [skipGroup?, readTag?_tag hk' (by decide)]
    simp only [Option.bind_eq_bind, Option.bind_some]
    rw [hinside, Option.bind_some]
    exact hrest

/-! ## Raw fields -/

theorem tag_append_ne_nil (k form : Nat) (b : Bytes) : tag k form ++ b ≠ [] := by
  intro h
  have hlen := congrArg List.length h
  have htag := tag_length_pos k form
  simp only [List.length_append, List.length_nil] at hlen
  omega

/-- Fields as a reader lists them: groups are left out. -/
inductive Lists : List (Nat × RawValue) → Bytes → Prop
  | nil : Lists [] []
  | plain {k form : Nat} {v : RawValue} {p b : Bytes} {fs : List (Nat × RawValue)} : IsFieldNumber k →
    Payload form v p → Lists fs b → Lists ((k, v) :: fs) (tag k form ++ p ++ b)
  | group {d k : Nat} {inside b : Bytes} {fs : List (Nat × RawValue)} : IsFieldNumber k → Fields d inside →
    d < depthLimit → Lists fs b → Lists fs (tag k 3 ++ inside ++ tag k 4 ++ b)

theorem Lists.read {fs : List (Nat × RawValue)} (h : Lists fs b) (fuel : Nat) (hfuel : b.length ≤ fuel) :
    readRaw? fuel b = some fs := by
  induction h generalizing fuel with
  | nil => simp [readRaw?]
  | @plain k form v p b fs hk hp hb ih =>
    have htag := tag_length_pos k form
    simp only [List.length_append] at hfuel
    obtain ⟨fuel, rfl⟩ := Nat.exists_eq_succ_of_ne_zero (n := fuel) (by omega)
    have hrest := ih fuel (by omega)
    rw [List.append_assoc, readRaw?, readTag?_tag hk hp.form_lt]
    · simp [hp.form_ne.1, hp.read, hrest]
    · exact tag_append_ne_nil k form _
  | @group d k inside b fs hk hin hd hb ih =>
    have htag := tag_length_pos k 3
    simp only [List.length_append] at hfuel
    obtain ⟨fuel, rfl⟩ := Nat.exists_eq_succ_of_ne_zero (n := fuel) (by omega)
    have hrest := ih fuel (by omega)
    have hskip := hin.skip hk hd ((inside ++ (tag k 4 ++ b)).length + 1)
      (by simp only [List.length_append]; omega) b
    simp only [List.append_assoc] at hskip ⊢
    rw [readRaw?, readTag?_tag hk (by decide)]
    · simp only [Option.bind_eq_bind, Option.bind_some, if_true]
      rw [hskip, Option.bind_some]
      exact hrest
    · exact tag_append_ne_nil k 3 _

/-! ## Messages -/

/-- The entries that a raw field makes under a schema. -/
def entries? (depth : Nat) (schema : Schema) (field : Nat × RawValue) : Option Message :=
  match schema.lookup field.1, field.2 with
  | some .number, .varint n => some [(field.1, Value.number n)]
  | some .numbers, .varint n => some [(field.1, Value.number n)]
  | some .numbers, .chunk c => (unpack? c.length c).map (·.map fun n => (field.1, Value.number n))
  | some .data, .chunk c => some [(field.1, Value.data c)]
  | some .text, .chunk c => if isText c then some [(field.1, Value.data c)] else none
  | some (.message inner), .chunk c => (readMessage? depth inner c).map fun m => [(field.1, Value.message m)]
  | _, _ => some []

theorem readMessage?_succ (depth : Nat) (schema : Schema) (b : Bytes) : readMessage? (depth + 1) schema b =
    (readRaw? b.length b).bind fun raw => (raw.mapM (entries? depth schema)).map List.flatten := by
  have hentries : ∀ raw : List (Nat × RawValue), (do
      let fields ← raw.mapM (entries? depth schema)
      return fields.flatten) = (raw.mapM (entries? depth schema)).map List.flatten := fun raw => by
    cases raw.mapM (entries? depth schema) <;> rfl
  rw [readMessage?]
  simp only [← hentries]
  rfl

/-- The bytes of a message under a schema. Fields that the schema does not name may stand anywhere, in any form. Messages
and groups are nested down to some depth. -/
inductive Spells : (depth : Nat) → Schema → Message → Bytes → Prop
  | nil {d : Nat} {s : Schema} : Spells d s [] []
  | foreign {d k form : Nat} {s : Schema} {m : Message} {v : RawValue} {p b : Bytes} : IsFieldNumber k →
    s.lookup k = none → Payload form v p → Spells d s m b → Spells d s m (tag k form ++ p ++ b)
  | foreignGroup {d k : Nat} {s : Schema} {m : Message} {inside b : Bytes} : IsFieldNumber k →
    s.lookup k = none → Fields d inside → Spells (d + 1) s m b →
    Spells (d + 1) s m (tag k 3 ++ inside ++ tag k 4 ++ b)
  | number {d k n : Nat} {s : Schema} {m : Message} {b : Bytes} : IsFieldNumber k →
    s.lookup k = some .number ∨ s.lookup k = some .numbers → n < word64 → Spells d s m b →
    Spells d s ((k, .number n) :: m) (tag k 0 ++ Varint.write n ++ b)
  | packed {d k : Nat} {ns : List Nat} {s : Schema} {m : Message} {b : Bytes} : IsFieldNumber k →
    s.lookup k = some .numbers → (∀ n ∈ ns, n < word64) → (ns.flatMap Varint.write).length < chunkLimit →
    Spells d s m b →
    Spells d s (ns.map (fun n => (k, .number n)) ++ m) (tag k 2 ++ sized (ns.flatMap Varint.write) ++ b)
  | data {d k : Nat} {c : Bytes} {s : Schema} {m : Message} {b : Bytes} : IsFieldNumber k →
    s.lookup k = some .data ∨ s.lookup k = some .text ∧ isText c → c.length < chunkLimit → Spells d s m b →
    Spells d s ((k, .data c) :: m) (tag k 2 ++ sized c ++ b)
  | message {d k : Nat} {s inner : Schema} {m part : Message} {c b : Bytes} : IsFieldNumber k →
    s.lookup k = some (.message inner) → Spells d inner part c → c.length < chunkLimit → Spells (d + 1) s m b →
    Spells (d + 1) s ((k, .message part) :: m) (tag k 2 ++ sized c ++ b)

theorem unpack?_write {ns : List Nat} (hns : ∀ n ∈ ns, n < word64) (fuel : Nat)
    (hfuel : (ns.flatMap Varint.write).length ≤ fuel) : unpack? fuel (ns.flatMap Varint.write) = some ns := by
  induction ns generalizing fuel with
  | nil => simp [unpack?]
  | cons n ns ih =>
    have hlen : 0 < (Varint.write n).length := by
      rw [Varint.write]
      split <;> simp
    have hn : n < word64 := hns n (by simp)
    simp only [List.flatMap_cons, List.length_append] at hfuel ⊢
    obtain ⟨fuel, rfl⟩ := Nat.exists_eq_succ_of_ne_zero (n := fuel) (by omega)
    rw [unpack?, read?_number hn]
    · simp [ih (fun i hi => hns i (by simp [hi])) fuel (by omega), Nat.mod_eq_of_lt hn]
    · intro h
      have := congrArg List.length h
      simp only [List.length_append, List.length_nil] at this
      omega

namespace Spells

variable {s : Schema} {m m' : Message} {b' : Bytes}

/-- The raw fields of a spelling, and what they make. -/
theorem lists (h : Spells d s m b) (hd : d < depthLimit) : ∀ {depth : Nat}, d ≤ depth →
    ∃ fs parts, Lists fs b ∧ fs.mapM (entries? depth s) = some parts ∧ parts.flatten = m := by
  induction h with
  | nil => exact fun _ => ⟨[], [], .nil, rfl, rfl⟩
  | foreign hk hnone hp hb ih =>
    intro depth hdepth
    obtain ⟨fs, parts, hlists, hparts, rfl⟩ := ih hd hdepth
    refine ⟨_ :: fs, [] :: parts, .plain hk hp hlists, ?_, rfl⟩
    simp [entries?, hnone, hparts]
  | foreignGroup hk hnone hin hb ih =>
    intro depth hdepth
    obtain ⟨fs, parts, hlists, hparts, rfl⟩ := ih hd hdepth
    exact ⟨fs, parts, .group hk hin (Nat.lt_of_succ_lt hd) hlists, hparts, rfl⟩
  | @number d k n s m b hk hs hn hb ih =>
    intro depth hdepth
    obtain ⟨fs, parts, hlists, hparts, rfl⟩ := ih hd hdepth
    refine ⟨_ :: fs, [(k, .number n)] :: parts, .plain hk (.varint hn) hlists, ?_, rfl⟩
    rcases hs with hs | hs <;> simp [entries?, hs, hparts]
  | @packed d k ns s m b hk hs hns hlen hb ih =>
    intro depth hdepth
    obtain ⟨fs, parts, hlists, hparts, rfl⟩ := ih hd hdepth
    refine ⟨_ :: fs, (ns.map fun n => (k, .number n)) :: parts, .plain hk (.chunk hlen) hlists, ?_, rfl⟩
    simp [entries?, hs, unpack?_write hns _ (Nat.le_refl _), hparts, -List.length_flatMap]
  | @data d k c s m b hk hs hlen hb ih =>
    intro depth hdepth
    obtain ⟨fs, parts, hlists, hparts, rfl⟩ := ih hd hdepth
    refine ⟨_ :: fs, [(k, .data c)] :: parts, .plain hk (.chunk hlen) hlists, ?_, rfl⟩
    rcases hs with hs | ⟨hs, htext⟩
    · simp [entries?, hs, hparts]
    · simp [entries?, hs, htext, hparts]
  | @message d k s inner m part c b hk hs hin hlen hb ihin ihb =>
    intro depth hdepth
    obtain ⟨fs, parts, hlists, hparts, rfl⟩ := ihb hd hdepth
    obtain ⟨depth, rfl⟩ := Nat.exists_eq_succ_of_ne_zero (n := depth) (by omega)
    obtain ⟨fs', parts', hlists', hparts', rfl⟩ := ihin (Nat.lt_of_succ_lt hd) (Nat.le_of_succ_le_succ hdepth)
    have hread : readMessage? (depth + 1) inner c = some parts'.flatten := by
      rw [readMessage?_succ, hlists'.read _ (Nat.le_refl _), Option.bind_some, hparts', Option.map_some]
    refine ⟨_ :: fs, [(k, .message parts'.flatten)] :: parts, .plain hk (.chunk hlen) hlists, ?_, rfl⟩
    simp [entries?, hs, hread, hparts]

/-- **What is spelled is read.** The reader finds the message that the bytes spell, whatever foreign fields stand
between its own. -/
theorem read (h : Spells d s m b) (hd : d < depthLimit) : s.read? b = some m := by
  obtain ⟨fs, parts, hlists, hparts, rfl⟩ := h.lists hd (show _ ≤ 99 from Nat.le_of_lt_succ hd)
  rw [Schema.read?, depthLimit, readMessage?_succ, hlists.read _ (Nat.le_refl _), Option.bind_some, hparts,
    Option.map_some]

end Spells

end PoolFeed.Wire
