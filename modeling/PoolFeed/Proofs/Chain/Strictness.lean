import PoolFeed.Proofs.Chain.Authority

/-!
# References that leave the account table

| here | there |
| --- | --- |
| `StrictAt` | "None if either index is out of range" (`TransactionEnvelope.account`), as `program_id` has it |

A program index outside the account table calls no program. An account reference should be as strict (`addressOf?`):
outside the table it is nobody's. `account` takes a reference below zero for a place counted from the end of the table,
so one just below zero names an account after all, and one farther below is an error that ends the reading of the
transaction. `strict_iff` says that references are strict exactly where they do not start below zero, and that both
readers are strict where the references are.
-/

namespace PoolFeed

namespace Transaction

/-- The key at an index of the account table, none outside of it. -/
def keyIn? (t : Transaction) (index : Int) : Option String := if 0 ≤ index then t.keys[index.toNat]? else none

/-- The address behind an account reference, if the instruction has that reference and it lies in the table. -/
def addressOf? (t : Transaction) (ix : Instruction) (position : Nat) : Option String :=
  ix.accounts[position]?.bind t.keyIn?

/-- Programs are resolved by the same rule. -/
theorem programOf?_eq (t : Transaction) (ix : Instruction) : t.programOf? ix = t.keyIn? ix.programIndex := rfl

/-- The reference at a position is resolved by the rule, without an error. -/
def StrictAt (t : Transaction) (ix : Instruction) (position : Nat) : Prop :=
  t.account ix position = .ok (t.addressOf? ix position)

variable {t : Transaction} {ix : Instruction} {position : Nat}

theorem strictAt_of_missing (h : ix.accounts[position]? = none) : t.StrictAt ix position := by
  have hlen : ix.accounts.length ≤ position := List.getElem?_eq_none_iff.1 h
  unfold StrictAt account addressOf?
  rw [if_pos (by omega), h]
  rfl

/-- What a reference does, if the instruction has it. -/
theorem account_of_getElem? {a : Int} (h : ix.accounts[position]? = some a) :
    t.account ix position =
      if (t.keys.length : Int) ≤ a then .ok none
      else match pick? t.keys a with
        | none => .error .beforeStart
        | some address => .ok (some address) := by
  obtain ⟨hlt, -⟩ := List.getElem?_eq_some_iff.1 h
  have hpick : pick? ix.accounts position = some a := by
    rw [pick?, if_pos (Int.natCast_nonneg _), Int.toNat_natCast, h]
  have hlen : ¬ (ix.accounts.length : Int) ≤ position := by omega
  have haccount : t.account ix position = _ := if_neg hlen
  rw [hpick] at haccount
  exact haccount

theorem strictAt_of_nonneg {a : Int} (h : ix.accounts[position]? = some a) (ha : 0 ≤ a) : t.StrictAt ix position := by
  rw [StrictAt, account_of_getElem? h, addressOf?, h, Option.bind_some, keyIn?, if_pos ha]
  split
  · rw [List.getElem?_eq_none (by omega)]
  · have hlt : a.toNat < t.keys.length := by omega
    rw [pick?, if_pos ha, List.getElem?_eq_getElem hlt]

/-- Below zero a reference is an error or the address of somebody. -/
theorem not_strictAt_of_neg {a : Int} (h : ix.accounts[position]? = some a) (ha : a < 0) : ¬ t.StrictAt ix position := by
  rw [StrictAt, account_of_getElem? h, addressOf?, h, Option.bind_some, keyIn?, if_neg (by omega), if_neg (by omega)]
  cases pick? t.keys a with
  | none => exact nofun
  | some address => exact nofun

/-- A reference is resolved by the rule exactly if it is missing or not below zero. -/
theorem strictAt_iff : t.StrictAt ix position ↔ ∀ a, ix.accounts[position]? = some a → 0 ≤ a := by
  cases h : ix.accounts[position]? with
  | none => exact iff_of_true (strictAt_of_missing h) nofun
  | some a =>
    rcases Int.lt_or_le a 0 with ha | ha
    · exact iff_of_false (not_strictAt_of_neg h ha) fun hall => absurd (hall a rfl) (by omega)
    · refine iff_of_true (strictAt_of_nonneg h ha) ?_
      rintro _ ⟨⟩
      exact ha

theorem forall_strictAt_iff : (∀ position, t.StrictAt ix position) ↔ Forward ix := by
  simp only [strictAt_iff, Forward, List.mem_iff_getElem?]
  exact ⟨fun h a ⟨position, ha⟩ => h position a ha, fun h position a ha => h a ⟨position, ha⟩⟩

end Transaction

namespace Chain

open Transaction (StrictAt Forward)

/-! ## Migrations -/

namespace Migrations

/-- The mint that a call names, if it is a migrate call with enough references and that of the mint is in the table. -/
def mintIn? (t : Transaction) (ix : Instruction) : Option String :=
  if migrateCall <+: ix.data ∧ 24 ≤ ix.accounts.length then t.addressOf? ix 2 else none

/-- The first usable one of some calls: it names a mint, and one of its own inner instructions reports the migration. -/
def usable? (t : Transaction) (calls : List (Nat × Instruction)) : Option (String × Instruction) :=
  calls.findSome? fun (position, ix) => (mintIn? t ix).bind fun mint =>
    ((t.innerOf position).find? (Carries migrateEventTag migrateEvent.size ·)).map fun e => (mint, e)

/-- Where the references of the mints are strict, the first usable call is the one that is reported. -/
theorem found?_eq_usable? (t : Transaction) : ∀ calls : List (Nat × Instruction), (∀ x ∈ calls, t.StrictAt x.2 2) →
    found? t calls = usable? t calls
  | [], _ => rfl
  | (position, ix) :: rest, h => by
    have ih := found?_eq_usable? t rest fun x hx => h x (List.mem_cons_of_mem _ hx)
    have hmint : t.account ix 2 = .ok (t.addressOf? ix 2) := h _ List.mem_cons_self
    have htag : ix.data.take 8 = migrateCall ↔ migrateCall <+: ix.data := take_eq_iff_prefix rfl
    simp only [found?, usable?, List.findSome?_cons, ne_eq, htag, hmint, migrateMinAccounts]
    by_cases hcall : migrateCall <+: ix.data
    · by_cases hlen : ix.accounts.length < 24
      · have hunnamed : mintIn? t ix = none := if_neg fun h => absurd hlen (Nat.not_lt.2 h.2)
        rw [if_pos (Or.inr hlen), hunnamed]
        exact ih
      · have hnamed : mintIn? t ix = t.addressOf? ix 2 := if_pos ⟨hcall, Nat.not_lt.1 hlen⟩
        rw [if_neg (by simp [hcall, hlen]), hnamed]
        cases t.addressOf? ix 2 with
        | none => exact ih
        | some mint =>
          simp only [Option.bind_some]
          cases (t.innerOf position).find? (Carries migrateEventTag migrateEvent.size ·) with
          | none => exact ih
          | some e => rfl
    · have hunnamed : mintIn? t ix = none := if_neg fun h => absurd h.1 hcall
      rw [if_pos (Or.inl hcall), hunnamed]
      exact ih

end Migrations

/-! ## Swaps -/

namespace Swaps

/-- The references that a call needs. -/
def Call.needed (call : Call) : List Nat := [0, call.actorReference, 3, 4]

/-- Where the needed references of a call are strict, it names its parties only if all of them are in the table. -/
theorem parties_of_strictAt {t : Transaction} {ix : Instruction} {call : Call}
    (h : ∀ reference ∈ call.needed, t.StrictAt ix reference) {reference : Nat} (hneeded : reference ∈ call.needed)
    (hnone : t.addressOf? ix reference = none) : parties t ix call = .ok none := by
  have at0 : t.account ix 0 = .ok (t.addressOf? ix 0) := h 0 (by simp [Call.needed])
  have at3 : t.account ix 3 = .ok (t.addressOf? ix 3) := h 3 (by simp [Call.needed])
  have at4 : t.account ix 4 = .ok (t.addressOf? ix 4) := h 4 (by simp [Call.needed])
  have actor : t.account ix call.actorReference = .ok (t.addressOf? ix call.actorReference) :=
    h call.actorReference (by simp [Call.needed])
  have hparties : parties t ix call = .ok (do
      return ⟨← t.addressOf? ix 0, ← t.addressOf? ix call.actorReference, ← t.addressOf? ix 3,
        ← t.addressOf? ix 4⟩) := by
    simp only [parties, at0, at3, at4, actorPosition_eq, actor]
    rfl
  rw [hparties]
  simp only [Call.needed, List.mem_cons, List.not_mem_nil, or_false] at hneeded
  rcases hneeded with rfl | rfl | rfl | rfl <;> simp [hnone]

/-- The event of a transaction needs all parties of its first known call. -/
theorem read_eq_none {d : Swaps} {t : Transaction} {position : Nat} {ix : Instruction} {call : Call} (ms : Int)
    (hfirst : firstKnown d.program t = some (position, ix, call)) (hnone : parties t ix call = .ok none) :
    (d.read (.ok ms) t).1 = none := by
  rw [read_event_eq, drafted?, firstCall_callsTo, hfirst]
  simp only [hnone]
  split <;> rfl

end Swaps

/-! ## Both readers -/

/-- References are strict in a transaction and for its readers: each is resolved by the rule, a call that needs one
from outside the table gives no event, and the first migrate call that is usable is reported whatever stands before
it. -/
structure Strict (t : Transaction) : Prop where
  resolves : ∀ ix ∈ t.instructions, ∀ position, t.StrictAt ix position
  swaps : ∀ (d : Swaps) (ms : Int) (position : Nat) (ix : Instruction) (call : Swaps.Call),
    Swaps.firstKnown d.program t = some (position, ix, call) →
    (∃ reference ∈ call.needed, t.addressOf? ix reference = none) → (d.read (.ok ms) t).1 = none
  migrations : ∀ (d : Migrations) (ms : Int),
    (d.read (.ok ms) t).1 = (Migrations.usable? t (t.callsTo d.program)).map (Migrations.reported t ms)

/-- The readers are strict where the references are. -/
theorem strict_of_strictAt {t : Transaction} (h : ∀ ix ∈ t.instructions, ∀ position, t.StrictAt ix position) :
    Strict t where
  resolves := h
  swaps d ms position ix call hfirst hneeded := by
    obtain ⟨reference, hreference, hnone⟩ := hneeded
    have hix := Swaps.mem_of_firstKnown hfirst
    exact Swaps.read_eq_none ms hfirst (Swaps.parties_of_strictAt (fun r _ => h ix hix r) hreference hnone)
  migrations d ms := by
    rw [Migrations.read_event, Migrations.found?_eq_usable?]
    intro x hx
    exact h x.2 (Transaction.mem_of_mem_callsTo hx) 2

/-- **A reference is strict exactly if it is missing or not below zero, and a transaction is exactly if none of its
references is below zero.** -/
theorem strict_iff (t : Transaction) :
    (∀ (ix : Instruction) (position : Nat), t.StrictAt ix position ↔ ∀ a, ix.accounts[position]? = some a → 0 ≤ a) ∧
    (Strict t ↔ ∀ ix ∈ t.instructions, Forward ix) := by
  refine ⟨fun ix position => Transaction.strictAt_iff, ?_⟩
  constructor
  · intro h ix hix
    exact Transaction.forall_strictAt_iff.1 (h.resolves ix hix)
  · intro h
    exact strict_of_strictAt fun ix hix => Transaction.forall_strictAt_iff.2 (h ix hix)

/-- A migrate call on the curve, with the reference of its mint given. -/
def migrateOf (mint : Int) : Instruction := ⟨1, migrateCall, [0, 0, mint] ++ List.replicate 21 0⟩

/-- A migration whose mint is referred to by −1. -/
def wrappedMigration : Transaction := { genuineMigration with instructions := [migrateOf (-1)] }

/-- A migration behind a call whose mint is referred to by −4, in a table of three keys. -/
def blockedMigration : Transaction :=
  { genuineMigration with
    instructions := [migrateOf (-4), migrateOf 0]
    inner := [(1, [⟨1, migrationPayload 50 60 1, []⟩])] }

/-- The first is reported with the last key of the table as its mint, the second is not reported. -/
theorem negativeReferences_not_strict :
    (wrappedMigration.addressOf? (migrateOf (-1)) 2 = none ∧
      wrappedMigration.account (migrateOf (-1)) 2 = .ok (some "other") ∧
      (Migrations.read { program := "curve" } (.ok 1700000000000) wrappedMigration).1 =
        some ⟨"8", 5, 1700000000000, "other", "11111111111111111111111111111112", 60, 50⟩ ∧
      ¬ Strict wrappedMigration) ∧
    (blockedMigration.account (migrateOf (-4)) 2 = .error .beforeStart ∧
      Migrations.usable? blockedMigration (blockedMigration.callsTo "curve") =
        some ("mint", ⟨1, migrationPayload 50 60 1, []⟩) ∧
      (Migrations.read { program := "curve" } (.ok 1700000000000) blockedMigration).1 = none ∧
      ¬ Strict blockedMigration) := by
  refine ⟨⟨by decide, rfl, by decide +kernel, fun h => ?_⟩, ⟨rfl, by decide +kernel, by decide +kernel,
    fun h => ?_⟩⟩
  · exact Transaction.not_strictAt_of_neg (a := -1) rfl (by decide) (h.resolves _ List.mem_cons_self 2)
  · exact Transaction.not_strictAt_of_neg (a := -4) rfl (by decide) (h.resolves _ List.mem_cons_self 2)

end Chain

end PoolFeed
