import Mathlib.Data.List.Forall2
import Mathlib.Data.List.Nodup
import PoolFeed.Proofs.Wire.Spelling
import PoolFeed.Wire.Update

/-!
# Updates on the wire

| here | there |
| --- | --- |
| `Update.Told` | the messages of `load_geyser_protos` that make up a `SubscribeUpdateTransaction` |
| `Update.meant` | `TransactionEnvelope.from_update` |

Which messages tell of an update (`Update.Told`), by the numbers of their fields: a field with its default value may be
left out, and fields that are of no interest may stand beside those that are. Reading such a message gives the update back,
and the view that the readers use is the transaction that it tells of. `round_trip` puts this together with the rules of the
wire.
-/

namespace PoolFeed.Wire

/-! ## Fields of a message -/

namespace Message

/-- A field has one value; it may be left out if the value is the default. -/
def Says (m : Message) (k : Nat) (v : Value) (isDefault : Prop) : Prop := m.values k = [v] ∨ m.values k = [] ∧ isDefault

/-- A field holds a message; it may be left out if that is empty. -/
def Holds (m : Message) (k : Nat) (part : Message) : Prop := m.Says k (.message part) (part = [])

/-- A repeated field holds some messages, in order. -/
def Repeats (m : Message) (k : Nat) (parts : List Message) : Prop := m.values k = parts.map .message

/-- A repeated field holds some byte strings, in order. -/
def Lists (m : Message) (k : Nat) (chunks : List Bytes) : Prop := m.values k = chunks.map .data

variable {m : Message} {k : Nat}

theorem Says.number {n : Nat} (h : m.Says k (.number n) (n = 0)) : m.number k = n := by
  rcases h with h | ⟨h, rfl⟩ <;> simp [Message.number, h]

theorem Says.number32 {n : Nat} (h : m.Says k (.number n) (n = 0)) (hn : n < word32) : m.number32 k = n := by
  rw [Message.number32, h.number, Nat.mod_eq_of_lt hn]

theorem Says.data {b : Bytes} (h : m.Says k (.data b) (b = [])) : m.data k = b := by
  rcases h with h | ⟨h, rfl⟩ <;> simp [Message.data, asData, h]

theorem Holds.child {part : Message} (h : m.Holds k part) : m.child k = part := by
  rcases h with h | ⟨h, rfl⟩ <;> simp [Message.child, asMessage, h]

theorem Repeats.children {parts : List Message} (h : m.Repeats k parts) : m.children k = parts := by
  rw [Message.children, h, List.map_map]
  exact List.map_id' parts

theorem Lists.allData {chunks : List Bytes} (h : m.Lists k chunks) : m.allData k = chunks := by
  rw [Message.allData, h, List.map_map]
  exact List.map_id' chunks

end Message

/-! ## What a message tells -/

/-- A message tells of an instruction, at the top or inside. -/
structure Call.Told (c : Call) (m : Message) : Prop where
  program : m.Says 1 (.number c.programIndex) (c.programIndex = 0)
  accounts : m.Says 2 (.data c.accounts) (c.accounts = [])
  data : m.Says 3 (.data c.data) (c.data = [])

/-- A message tells of the inner instructions of one at the top. -/
structure CallGroup.Told (g : CallGroup) (m : Message) : Prop where
  index : m.Says 1 (.number g.index) (g.index = 0)
  calls : ∃ parts, m.Repeats 2 parts ∧ List.Forall₂ Call.Told g.calls parts

/-- The message of a transaction: its keys and its instructions. -/
structure Update.BodyTold (u : Update) (m : Message) : Prop where
  keys : m.Lists 2 u.staticKeys
  calls : ∃ parts, m.Repeats 4 parts ∧ List.Forall₂ Call.Told u.calls parts

/-- What became of a transaction: its inner instructions and the keys that were looked up. -/
structure Update.DetailsTold (u : Update) (m : Message) : Prop where
  groups : ∃ parts, m.Repeats 5 parts ∧ List.Forall₂ CallGroup.Told u.groups parts
  writable : m.Lists 12 u.writableKeys
  readonly : m.Lists 13 u.readonlyKeys

structure Update.InfoTold (u : Update) (m : Message) : Prop where
  signature : m.Says 1 (.data u.signature) (u.signature = [])
  body : ∃ transaction body, m.Holds 3 transaction ∧ transaction.Holds 2 body ∧ u.BodyTold body
  details : ∃ details, m.Holds 4 details ∧ u.DetailsTold details

/-- A message tells of an update. -/
structure Update.Told (u : Update) (m : Message) : Prop where
  info : ∃ info, m.Holds 1 info ∧ u.InfoTold info
  slot : m.Says 2 (.number u.slot) (u.slot = 0)

/-- The numbers of an update fit their fields, and no two groups have one index. -/
structure Update.Fits (u : Update) : Prop where
  slot : u.slot < word64
  calls : ∀ c ∈ u.calls, c.programIndex < word32
  indexes : ∀ g ∈ u.groups, g.index < word32
  inner : ∀ g ∈ u.groups, ∀ c ∈ g.calls, c.programIndex < word32
  distinct : (u.groups.map (·.index)).Nodup

/-! ## Reading -/

theorem Call.Told.read {c : Call} {m : Message} (h : c.Told m) (hc : c.programIndex < word32) :
    Call.ofMessage m = c := by
  rw [Call.ofMessage, h.program.number32 hc, h.accounts.data, h.data.data]

theorem Call.read_all {calls : List Call} {parts : List Message} (h : List.Forall₂ Call.Told calls parts)
    (hcalls : ∀ c ∈ calls, c.programIndex < word32) : parts.map Call.ofMessage = calls := by
  induction h with
  | nil => rfl
  | cons h _ ih =>
    rw [List.map_cons, h.read (hcalls _ (by simp)), ih fun c hc => hcalls c (by simp [hc])]

theorem CallGroup.Told.read {g : CallGroup} {m : Message} (h : g.Told m) (hindex : g.index < word32)
    (hcalls : ∀ c ∈ g.calls, c.programIndex < word32) : CallGroup.ofMessage m = g := by
  obtain ⟨parts, hparts, htold⟩ := h.calls
  rw [CallGroup.ofMessage, h.index.number32 hindex, hparts.children, Call.read_all htold hcalls]

theorem CallGroup.read_all {groups : List CallGroup} {parts : List Message}
    (h : List.Forall₂ CallGroup.Told groups parts) (hindexes : ∀ g ∈ groups, g.index < word32)
    (hcalls : ∀ g ∈ groups, ∀ c ∈ g.calls, c.programIndex < word32) : parts.map CallGroup.ofMessage = groups := by
  induction h with
  | nil => rfl
  | cons h _ ih =>
    rw [List.map_cons, h.read (hindexes _ (by simp)) (hcalls _ (by simp)),
      ih (fun g hg => hindexes g (by simp [hg])) fun g hg => hcalls g (by simp [hg])]

/-- A message that tells of an update is read as that update. -/
theorem Update.Told.read {u : Update} {m : Message} (h : u.Told m) (hu : u.Fits) : Update.ofMessage m = u := by
  obtain ⟨info, hinfo, hsignature, ⟨transaction, body, htransaction, hbody, hkeys, calls, hcalls, hcallsTold⟩,
    details, hdetails, ⟨groups, hgroups, hgroupsTold⟩, hwritable, hreadonly⟩ := h.info
  simp only [Update.ofMessage, hinfo.child, htransaction.child, hbody.child, hdetails.child, hsignature.data,
    h.slot.number, hkeys.allData, hwritable.allData, hreadonly.allData, hcalls.children, hgroups.children,
    Call.read_all hcallsTold hu.calls, CallGroup.read_all hgroupsTold hu.indexes hu.inner]

/-! ## The readers' view -/

/-- The instruction that a call stands for. -/
def Call.meant (c : Call) : Instruction where
  programIndex := c.programIndex
  data := c.data
  accounts := c.accounts.map fun a => (a.toNat : Int)

/-- The transaction that an update stands for. -/
def Update.meant (u : Update) : Transaction where
  signature := u.signature
  slot := u.slot
  keys := u.staticKeys.map Base58.encode ++ u.writableKeys.map Base58.encode ++ u.readonlyKeys.map Base58.encode
  instructions := u.calls.map Call.meant
  inner := u.groups.map fun g => ((g.index : Int), g.calls.map Call.meant)

/-- Groups of different indexes are put in one after the other. -/
theorem foldl_putGroup (groups : List CallGroup) : ∀ inner : List (Int × List Instruction),
    (inner.map (·.1) ++ groups.map fun g => (g.index : Int)).Nodup →
    groups.foldl putGroup inner = inner ++ groups.map fun g => ((g.index : Int), g.calls.map Call.meant) := by
  induction groups with
  | nil => simp
  | cons g groups ih =>
    intro inner hnodup
    have hnew : inner.any (·.1 == (g.index : Int)) = false := by
      rw [List.any_eq_false]
      intro old hold heq
      rw [List.map_cons, List.nodup_append] at hnodup
      exact hnodup.2.2 _ (List.mem_map_of_mem hold) _ List.mem_cons_self (by simpa using heq)
    have hput : putGroup inner g = inner ++ [((g.index : Int), g.calls.map Call.meant)] := by
      simp only [putGroup]
      rw [if_neg (by simp [hnew])]
      rfl
    rw [List.foldl_cons, hput, ih]
    · simp
    · simpa using hnodup

theorem Update.toTransaction_eq {u : Update} (hdistinct : (u.groups.map (·.index)).Nodup) :
    u.toTransaction = u.meant := by
  have hnodup : (u.groups.map fun g => (g.index : Int)).Nodup := by
    have hmap := List.Nodup.map (f := fun n : Nat => (n : Int)) (fun _ _ h => Int.ofNat_inj.1 h) hdistinct
    rwa [List.map_map] at hmap
  have hinner := foldl_putGroup u.groups [] (by simpa using hnodup)
  rw [List.nil_append] at hinner
  simp only [Update.toTransaction, Update.meant, List.map_append, hinner]
  rfl

/-! ## Writing -/

/-- Every entry of a message is one of its schema. -/
inductive Typed : (depth : Nat) → Schema → Message → Prop
  | nil {d : Nat} {s : Schema} : Typed d s []
  | number {d k n : Nat} {s : Schema} {m : Message} : IsFieldNumber k → s.lookup k = some .number → n < word64 →
    Typed d s m → Typed d s ((k, .number n) :: m)
  | data {d k : Nat} {c : Bytes} {s : Schema} {m : Message} : IsFieldNumber k → s.lookup k = some .data →
    Typed d s m → Typed d s ((k, .data c) :: m)
  | message {d k : Nat} {s inner : Schema} {m part : Message} : IsFieldNumber k →
    s.lookup k = some (.message inner) → Typed d inner part → Typed (d + 1) s m →
    Typed (d + 1) s ((k, .message part) :: m)

namespace Typed

variable {d k : Nat} {s inner : Schema} {m m' : Message}

/-- A message that is not too long is spelled as it is written. -/
theorem spells (h : Typed d s m) (hlen : m.encode.length < chunkLimit) : Spells d s m m.encode := by
  induction h with
  | nil => exact .nil
  | @number d k n s m hk hs hn _ ih =>
    simp only [Message.encode, encodeFields, Value.encode, List.length_append] at hlen ih ⊢
    exact .number hk (.inl hs) hn (ih (by omega))
  | @data d k c s m hk hs _ ih =>
    simp only [Message.encode, encodeFields, Value.encode, sized, List.length_append] at hlen ih ⊢
    exact .data hk (.inl hs) (by omega) (ih (by omega))
  | @message d k s inner m part hk hs _ _ ihpart ih =>
    simp only [Message.encode, encodeFields, Value.encode, sized, List.length_append] at hlen ih ihpart ⊢
    exact .message hk hs (ihpart (by omega)) (by omega) (ih (by omega))

theorem append (h : Typed d s m) (h' : Typed d s m') : Typed d s (m ++ m') := by
  induction h with
  | nil => exact h'
  | number hk hs hn _ ih => exact .number hk hs hn (ih h')
  | data hk hs _ ih => exact .data hk hs (ih h')
  | message hk hs hpart _ _ ih => exact .message hk hs hpart (ih h')

theorem numberField {n : Nat} (hk : IsFieldNumber k) (hs : s.lookup k = some .number) (hn : n < word64)
    (isDefault : Bool) : Typed d s (field k (.number n) isDefault) := by
  unfold field
  split
  · exact .nil
  · exact .number hk hs hn .nil

theorem dataField {c : Bytes} (hk : IsFieldNumber k) (hs : s.lookup k = some .data) (isDefault : Bool) :
    Typed d s (field k (.data c) isDefault) := by
  unfold field
  split
  · exact .nil
  · exact .data hk hs .nil

theorem chunks (hk : IsFieldNumber k) (hs : s.lookup k = some .data) (chunks : List Bytes) :
    Typed d s (chunks.map fun c => (k, .data c)) := by
  induction chunks with
  | nil => exact .nil
  | cons c chunks ih => exact .data hk hs ih

theorem parts {α : Type} {f : α → Message} (hk : IsFieldNumber k) (hs : s.lookup k = some (.message inner))
    {xs : List α} (h : ∀ x ∈ xs, Typed d inner (f x)) : Typed (d + 1) s (xs.map fun x => (k, .message (f x))) := by
  induction xs with
  | nil => exact .nil
  | cons x xs ih => exact .message hk hs (h x (by simp)) (ih fun y hy => h y (by simp [hy]))

end Typed

theorem Call.typed {c : Call} (hc : c.programIndex < word32) {s : Schema} (hprogram : s.lookup 1 = some .number)
    (haccounts : s.lookup 2 = some .data) (hdata : s.lookup 3 = some .data) (d : Nat) : Typed d s c.toMessage := by
  have hn : c.programIndex < word64 := Nat.lt_trans hc (by decide)
  exact ((Typed.numberField (by decide) hprogram hn _).append (.dataField (by decide) haccounts _)).append
    (.dataField (by decide) hdata _)

theorem CallGroup.typed {g : CallGroup} (hindex : g.index < word32) (hcalls : ∀ c ∈ g.calls, c.programIndex < word32)
    (d : Nat) : Typed (d + 1) [(1, .number), (2, .message innerCallSchema)] g.toMessage := by
  refine (Typed.numberField (by decide) rfl (Nat.lt_trans hindex (by decide)) _).append ?_
  exact .parts (by decide) rfl fun c hc => Call.typed (hcalls c hc) rfl rfl rfl d

/-- The message that is written for an update fits the schema. -/
theorem Update.Fits.typed {u : Update} (hu : u.Fits) : Typed 4 updateSchema u.toMessage := by
  have hbody : Typed 1 bodySchema (u.staticKeys.map (fun k => (2, .data k)) ++
      u.calls.map fun c => (4, .message c.toMessage)) :=
    (Typed.chunks (by decide) rfl _).append (.parts (by decide) rfl fun c hc => Call.typed (hu.calls c hc) rfl rfl rfl 0)
  have hdetails : Typed 2 metaSchema (u.groups.map (fun g => (5, .message g.toMessage)) ++
      u.writableKeys.map (fun k => (12, .data k)) ++ u.readonlyKeys.map fun k => (13, .data k)) :=
    ((Typed.parts (by decide) rfl fun g hg => CallGroup.typed (hu.indexes g hg) (hu.inner g hg) 0).append
      (.chunks (by decide) rfl _)).append (.chunks (by decide) rfl _)
  unfold Update.toMessage
  refine .message (by decide) rfl (Typed.append (.dataField (by decide) rfl _) ?_)
    (.numberField (by decide) rfl hu.slot _)
  refine .message (by decide) rfl (.message (by decide) rfl hbody .nil) ?_
  exact .message (by decide) rfl hdetails .nil

/-! ## What is written tells of the update -/

@[simp] theorem values_nil (j : Nat) : Message.values [] j = [] := rfl

theorem values_append (m m' : Message) (j : Nat) : Message.values (m ++ m') j = m.values j ++ Message.values m' j := by
  simp [Message.values]

theorem values_cons (k j : Nat) (v : Value) (m : Message) :
    Message.values ((k, v) :: m) j = if k = j then v :: m.values j else m.values j := by
  by_cases hj : k = j <;> simp [Message.values, hj]

theorem values_field (k j : Nat) (v : Value) (isDefault : Bool) :
    (field k v isDefault).values j = if k = j ∧ isDefault = false then [v] else [] := by
  cases isDefault <;> by_cases hj : k = j <;> simp [field, Message.values, hj]

theorem values_map {α : Type} (xs : List α) (f : α → Value) (k j : Nat) :
    Message.values (xs.map fun x => (k, f x)) j = if k = j then xs.map f else [] := by
  by_cases hj : k = j <;> simp [Message.values, List.filter_map, Function.comp_def, hj]

theorem Call.told_toMessage (c : Call) : c.Told c.toMessage := by
  constructor <;> simp only [Message.Says, Call.toMessage, values_append, values_field]
  · by_cases h : c.programIndex = 0 <;> simp [h]
  · by_cases h : c.accounts = [] <;> simp [h]
  · by_cases h : c.data = [] <;> simp [h]

theorem CallGroup.told_toMessage (g : CallGroup) : g.Told g.toMessage := by
  refine ⟨?_, g.calls.map Call.toMessage, ?_, ?_⟩
  · simp only [Message.Says, CallGroup.toMessage, values_append, values_field, values_map]
    by_cases h : g.index = 0 <;> simp [h]
  · simp [Message.Repeats, CallGroup.toMessage, values_append, values_field, values_map]
  · exact List.forall₂_map_right_iff.2 (List.forall₂_same.2 fun c _ => c.told_toMessage)

theorem Update.told_toMessage (u : Update) : u.Told u.toMessage := by
  have hbody : u.BodyTold (u.staticKeys.map (fun k => (2, .data k)) ++ u.calls.map fun c => (4, .message c.toMessage)) := by
    refine ⟨?_, u.calls.map Call.toMessage, ?_, ?_⟩
    · simp [Message.Lists, values_append, values_map]
    · simp [Message.Repeats, values_append, values_map]
    · exact List.forall₂_map_right_iff.2 (List.forall₂_same.2 fun c _ => c.told_toMessage)
  have hdetails : u.DetailsTold (u.groups.map (fun g => (5, .message g.toMessage)) ++
      u.writableKeys.map (fun k => (12, .data k)) ++ u.readonlyKeys.map fun k => (13, .data k)) := by
    refine ⟨⟨u.groups.map CallGroup.toMessage, ?_, ?_⟩, ?_, ?_⟩
    · simp [Message.Repeats, values_append, values_map]
    · exact List.forall₂_map_right_iff.2 (List.forall₂_same.2 fun g _ => g.told_toMessage)
    · simp [Message.Lists, values_append, values_map]
    · simp [Message.Lists, values_append, values_map]
  have hinfo : ∀ body details, u.BodyTold body → u.DetailsTold details →
      u.InfoTold (field 1 (.data u.signature) u.signature.isEmpty ++
        [(3, .message [(2, .message body)]), (4, .message details)]) := by
    intro body details hbody hdetails
    refine ⟨?_, ⟨[(2, .message body)], body, .inl ?_, .inl ?_, hbody⟩, details, .inl ?_, hdetails⟩
    · by_cases h : u.signature = [] <;> simp [Message.Says, values_append, values_cons, values_field, h]
    · simp [values_append, values_cons, values_field]
    · simp [values_cons]
    · simp [values_append, values_cons, values_field]
  refine ⟨⟨_, .inl ?_, hinfo _ _ hbody hdetails⟩, ?_⟩
  · simp [Update.toMessage, values_cons, values_field]
  · by_cases h : u.slot = 0 <;> simp [Update.toMessage, Message.Says, values_cons, values_field, h]

/-! ## The round trip -/

/-- **What is spelled is the transaction that is read.** Bytes that spell a message which tells of an update are read as the
transaction it stands for, with whatever fields of other numbers stand anywhere between those of the schema. And every
update has such bytes: those of its own message, as long as a chunk can hold them. -/
theorem round_trip (u : Update) (hu : u.Fits) :
    (∀ d m b, d < depthLimit → u.Told m → Spells d updateSchema m b →
      (Update.ofBytes? b).map Update.toTransaction = some u.meant) ∧
    (u.encode.length < chunkLimit → u.Told u.toMessage ∧ Spells 4 updateSchema u.toMessage u.encode) := by
  refine ⟨fun d m b hd htold hspells => ?_, fun hlen => ⟨u.told_toMessage, hu.typed.spells hlen⟩⟩
  have hread : Update.ofBytes? b = some u := by
    rw [Update.ofBytes?, hspells.read hd, Option.map_some, htold.read hu]
  rw [hread, Option.map_some, Update.toTransaction_eq hu.distinct]

/-- A swap with an inner transfer, and two keys that were looked up. -/
def loadedSwap : Update where
  slot := 250000000
  signature := [0, 9, 200]
  staticKeys := [[1, 1], [2, 2]]
  writableKeys := [[3]]
  readonlyKeys := [[0, 4]]
  calls := [⟨1, [0, 2, 3], [51, 230]⟩]
  groups := [⟨0, [⟨3, [2, 0], [9]⟩]⟩]

theorem loadedSwap_fits : loadedSwap.Fits := by
  constructor <;> decide

/-- The swap is read with a time of creation, a word and a group in front that the schema does not name. -/
theorem round_trip_loadedSwap : loadedSwap.Fits ∧
    (Update.ofBytes? (tag 11 2 ++ sized [8, 1] ++ (tag 7 1 ++ [1, 2, 3, 4, 5, 6, 7, 8] ++
      (tag 12 3 ++ (tag 1 0 ++ Varint.write 300 ++ []) ++ tag 12 4 ++ loadedSwap.encode)))).map Update.toTransaction =
      some loadedSwap.meant := by
  have hfits := loadedSwap_fits
  obtain ⟨hread, hwritten⟩ := round_trip loadedSwap hfits
  obtain ⟨htold, hspells⟩ := hwritten (by decide +kernel)
  refine ⟨hfits, hread 4 _ _ (by decide) htold ?_⟩
  refine .foreign (by decide) rfl (.chunk (by decide)) (.foreign (by decide) rfl (.wide rfl) ?_)
  exact .foreignGroup (by decide) rfl (.plain (by decide) (.varint (by decide)) .nil) hspells

end PoolFeed.Wire
