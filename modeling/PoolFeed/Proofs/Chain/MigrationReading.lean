import PoolFeed.Chain.Migrations
import PoolFeed.Proofs.Chain.References
import PoolFeed.Proofs.Layout.Offsets
import Mathlib.Data.List.TakeWhile

/-!
# What the reader of migrations reports

| here | there |
| --- | --- |
| `reference` | `PumpFunMigrationDecoder.decode`, taken apart |
| `confirmed?`, `cutShort` | what `_find_event` finds for each call, and what it passes over |

`Migrations.scan` is one walk over the calls of the program that skips, counts and stops in one go. The
reference here takes it apart: `named` are the calls that get as far as their inner instructions, with the
mint of each, `confirmed?` is the first of them that has a payload, and `cutShort` are the payloads that
are met before that one and refused. `read_reports_first` makes the two equal for every transaction whose
references count from the start of the account table.
-/

namespace PoolFeed.Chain.Migrations

open Transaction (Forward keyAt)

/-! ## The reference -/

/-- The mint that an instruction names, if it is a migrate call with enough references. -/
def mint? (t : Transaction) (ix : Instruction) : Option String :=
  if migrateCall <+: ix.data ∧ 24 ≤ ix.accounts.length then t.keyAt ix 2 else none

/-- The top-level instructions that call the program and name a mint, by their positions. -/
def named (program : String) (t : Transaction) : List (Nat × String) :=
  t.instructions.zipIdx.filterMap fun (ix, position) =>
    if t.programOf? ix = some program then (mint? t ix).map fun mint => (position, mint) else none

/-- The payloads with the tag of the event among the inner instructions of the call at a position. -/
def tagged (t : Transaction) (position : Nat) : List Bytes :=
  ((t.innerOf position).map (·.data)).filter (migrateEventTag <+: ·)

/-- The payload of a call: the first one with the tag that is not cut short. -/
def payload? (t : Transaction) (position : Nat) : Option Bytes := (tagged t position).find? (176 ≤ ·.length)

/-- The first call that has a payload: its mint and the payload. -/
def confirmed? (t : Transaction) (calls : List (Nat × String)) : Option (String × Bytes) :=
  calls.findSome? fun (position, mint) => (payload? t position).map fun e => (mint, e)

/-- The payloads that are met, call after call, before one is long enough. -/
def cutShort (t : Transaction) (calls : List (Nat × String)) : List Bytes :=
  (calls.flatMap fun (position, _) => tagged t position).takeWhile (·.length < 176)

/-- A migration: a payload has the tokens at byte 80, the sum at byte 88 and the pool at byte 144. -/
def migrationOf (t : Transaction) (ms : Int) (mint : String) (e : Bytes) : Migration where
  signature := t.signatureText
  slot := t.slot
  timestamp := ms
  mint := mint
  pool := Base58.encode (e.slice 144 32)
  solAmount := e.natAt 88 8
  tokenAmount := e.natAt 80 8

/-- The migration of a transaction, and the reader that has counted it. -/
def reference (d : Migrations) (ms : Int) (t : Transaction) : Option Migration × Migrations :=
  let calls := named d.program t
  let event := (confirmed? t calls).map fun (mint, e) => migrationOf t ms mint e
  (event, { d with
    successes := d.successes + event.isSome.toNat
    failures := d.failures + (cutShort t calls).length })

/-! ## One call -/

theorem size_migrateEvent : migrateEvent.size = 176 := rfl

theorem report_eq (t : Transaction) (ms : Int) (mint : String) {e : Bytes} {r : Record}
    (hr : migrateEvent.parse? e = some r) : report t mint ms r = migrationOf t ms mint e := by
  have pool : r.lookup "pool" = some ((FieldType.raw 32).read (e.slice 144 32)) := Layout.lookup_parse hr rfl
  have sol := Layout.parse_number_unsigned hr (show migrateEvent.field? "sol_amount" = some (88, .unsigned 8) from rfl)
  have tokens := Layout.parse_number_unsigned hr
    (show migrateEvent.field? "mint_amount" = some (80, .unsigned 8) from rfl)
  simp [report, migrationOf, Record.raw, pool, sol, tokens, FieldType.read]

theorem length_migrateEventTag : migrateEventTag.length = 16 := rfl

/-- What is found among the inner instructions of a call is its payload. -/
theorem findRecord_payload (t : Transaction) (position : Nat) :
    (findRecord migrateEventTag migrateEvent (t.innerOf position)).2 =
      (payload? t position).bind migrateEvent.parse? := by
  have both : (fun ix : Instruction => decide (Carries migrateEventTag 176 ix)) =
      fun ix => decide (migrateEventTag <+: ix.data) && decide (176 ≤ ix.data.length) :=
    funext fun ix => Bool.decide_and _ _
  rw [findRecord_snd length_migrateEventTag, size_migrateEvent, both, payload?, tagged, List.find?_filter,
    List.find?_map, Option.bind_map]
  simp only [Bool.decide_and, Bool.decide_eq_true]
  rfl

/-- What is noted among the inner instructions of a call are the payloads that are cut short. -/
theorem findRecord_cutShort (t : Transaction) (position : Nat) :
    (findRecord migrateEventTag migrateEvent (t.innerOf position)).1 =
      ((tagged t position).takeWhile (·.length < 176)).map List.length :=
  findRecord_fst length_migrateEventTag migrateEvent (t.innerOf position)

/-- A payload is long enough to be read. -/
theorem payload?_parses {t : Transaction} {position : Nat} {e : Bytes} (h : payload? t position = some e) :
    ∃ r, migrateEvent.parse? e = some r :=
  Layout.exists_parse (by simpa [size_migrateEvent] using List.find?_some h)

/-- Without a payload all that have the tag are cut short. -/
theorem takeWhile_tagged {t : Transaction} {position : Nat} (h : payload? t position = none) :
    (tagged t position).takeWhile (·.length < 176) = tagged t position := by
  rw [payload?, List.find?_eq_none] at h
  rw [List.takeWhile_eq_self_iff]
  intro e he
  have hlong := h e he
  simp only [decide_eq_true_eq] at hlong ⊢
  omega

/-- A payload ends the part that is cut short. -/
theorem takeWhile_tagged_append {t : Transaction} {position : Nat} {e : Bytes} (h : payload? t position = some e)
    (later : List Bytes) :
    (tagged t position ++ later).takeWhile (·.length < 176) = (tagged t position).takeWhile (·.length < 176) := by
  obtain ⟨hlong, before, after, hsplit, -⟩ := List.find?_eq_some_iff_append.1 h
  have hstop : (decide (e.length < 176)) = false := by simpa using hlong
  rw [hsplit, List.append_assoc, List.cons_append, List.takeWhile_append, List.takeWhile_append]
  simp [hstop]

/-! ## All calls -/

/-- A scan that says of the calls that name a mint what the reference says of them. -/
structure Scan.Agrees (s : Scan) (t : Transaction) (ms : Int) (calls : List (Nat × String)) : Prop where
  event : s.event = (confirmed? t calls).map fun (mint, e) => migrationOf t ms mint e
  confirmed : s.confirmed = (confirmed? t calls).isSome.toNat
  refused : s.refused = (cutShort t calls).length

section

variable {t : Transaction} {ms : Int} {s : Scan} {calls : List (Nat × String)} {position : Nat} {mint : String}

/-- A call that does not get as far as its inner instructions is only logged. -/
theorem Scan.Agrees.skipped (h : s.Agrees t ms calls) (log : List Log.Entry) : (s.after log 0).Agrees t ms calls where
  event := h.event
  confirmed := h.confirmed
  refused := by simpa [Scan.after] using h.refused

/-- A call without a payload adds what is cut short in it. -/
theorem Scan.Agrees.unconfirmed (h : s.Agrees t ms calls) (hp : payload? t position = none) (log : List Log.Entry) :
    (s.after log (tagged t position).length).Agrees t ms ((position, mint) :: calls) := by
  have hc : confirmed? t ((position, mint) :: calls) = confirmed? t calls := by simp [confirmed?, hp]
  have hall := takeWhile_tagged hp
  have hr : cutShort t ((position, mint) :: calls) = tagged t position ++ cutShort t calls := by
    rw [cutShort, List.flatMap_cons, List.takeWhile_append, hall, if_pos rfl, cutShort]
  exact ⟨by rw [hc]; exact h.event, by rw [hc]; exact h.confirmed, by
    rw [hr, List.length_append, ← h.refused]; rfl⟩

/-- The first call that has a payload decides. -/
theorem Scan.agrees_of_payload {e : Bytes} (hp : payload? t position = some e) (log : List Log.Entry) :
    Scan.Agrees ⟨some (migrationOf t ms mint e), 1, ((tagged t position).takeWhile (·.length < 176)).length, log⟩
      t ms ((position, mint) :: calls) := by
  have hc : confirmed? t ((position, mint) :: calls) = some (mint, e) := by simp [confirmed?, hp]
  have hr : cutShort t ((position, mint) :: calls) = (tagged t position).takeWhile (·.length < 176) := by
    rw [cutShort, List.flatMap_cons, takeWhile_tagged_append hp]
  exact ⟨by rw [hc]; rfl, by rw [hc]; rfl, by rw [hr]⟩

end

/-- The calls among some that name a mint. -/
def naming (t : Transaction) (calls : List (Nat × Instruction)) : List (Nat × String) :=
  calls.filterMap fun (position, ix) => (mint? t ix).map fun mint => (position, mint)

theorem naming_cons_none {t : Transaction} {ix : Instruction} (h : mint? t ix = none) (position : Nat)
    (calls : List (Nat × Instruction)) : naming t ((position, ix) :: calls) = naming t calls := by
  simp [naming, h]

theorem naming_cons_some {t : Transaction} {ix : Instruction} {mint : String} (h : mint? t ix = some mint)
    (position : Nat) (calls : List (Nat × Instruction)) :
    naming t ((position, ix) :: calls) = (position, mint) :: naming t calls := by
  simp [naming, h]

theorem naming_callsTo (t : Transaction) (program : String) : naming t (t.callsTo program) = named program t := by
  rw [naming, t.callsTo_eq_filterMap, List.filterMap_filterMap, named]
  congr 1
  funext ⟨ix, position⟩
  by_cases hp : t.programOf? ix = some program <;> simp [hp]

/-- The walk over the calls says what the reference says, whichever of them it skips. -/
theorem scan_agrees (t : Transaction) (ms : Int) : ∀ calls : List (Nat × Instruction), (∀ x ∈ calls, Forward x.2) →
    (scan t (.ok ms) calls).Agrees t ms (naming t calls)
  | [], _ => ⟨rfl, rfl, rfl⟩
  | (position, ix) :: rest, h => by
    have ih := scan_agrees t ms rest fun x hx => h x (List.mem_cons_of_mem _ hx)
    have htag : ix.data.take 8 = migrateCall ↔ migrateCall <+: ix.data := take_eq_iff_prefix rfl
    have hmint : t.account ix 2 = .ok (t.keyAt ix 2) := t.account_eq (h _ List.mem_cons_self) 2
    simp only [scan, ne_eq, htag, hmint, migrateMinAccounts]
    by_cases hcall : migrateCall <+: ix.data
    · by_cases hlen : ix.accounts.length < 24
      · rw [naming_cons_none (by simp [mint?, Nat.not_le.2 hlen])]
        simpa only [hcall, hlen, not_true_eq_false, if_false, if_true] using ih.skipped _
      have hnamed : mint? t ix = t.keyAt ix 2 := if_pos ⟨hcall, Nat.not_lt.1 hlen⟩
      simp only [hcall, hlen, not_true_eq_false, if_false]
      cases hkey : t.keyAt ix 2 with
      | none =>
        rw [naming_cons_none (hnamed.trans hkey)]
        exact ih.skipped _
      | some mint =>
        rw [naming_cons_some (hnamed.trans hkey)]
        simp only [findRecord_payload, findRecord_cutShort, List.length_map]
        cases hp : payload? t position with
        | none =>
          rw [takeWhile_tagged hp]
          exact ih.unconfirmed hp _
        | some e =>
          obtain ⟨r, hr⟩ := payload?_parses hp
          simp only [Option.bind_some, hr, report_eq t ms mint hr]
          exact Scan.agrees_of_payload hp _
    · rw [naming_cons_none (by simp [mint?, hcall])]
      simpa only [hcall, not_false_eq_true, if_true] using ih

/-- A call has a payload if one of its own inner instructions carries it. -/
theorem payload?_isSome_iff (t : Transaction) (position : Nat) :
    (payload? t position).isSome ↔ ∃ e ∈ t.innerOf position, Carries migrateEventTag 176 e := by
  simp [payload?, tagged, List.find?_isSome, Carries]

/-- There is a confirmed call if one names a mint and has a payload. -/
theorem confirmed?_isSome_iff (program : String) (t : Transaction) :
    (confirmed? t (named program t)).isSome ↔
      ∃ (position : Nat) (ix : Instruction), t.instructions[position]? = some ix ∧ t.programOf? ix = some program ∧
        migrateCall <+: ix.data ∧ 24 ≤ ix.accounts.length ∧ (t.keyAt ix 2).isSome ∧
        ∃ e ∈ t.innerOf position, Carries migrateEventTag 176 e := by
  simp only [← payload?_isSome_iff]
  simp only [confirmed?, List.findSome?_isSome_iff, Option.isSome_map, named, List.mem_filterMap, Prod.exists]
  constructor
  · rintro ⟨position, mint, ⟨ix, position', hm, hn⟩, hp⟩
    split at hn
    · rename_i hprogram
      obtain ⟨mint', hmint, heq⟩ := Option.map_eq_some_iff.1 hn
      obtain ⟨rfl, rfl⟩ := Prod.mk.inj heq
      rw [mint?] at hmint
      split at hmint
      · rename_i hcall
        exact ⟨_, ix, List.mk_mem_zipIdx_iff_getElem?.1 hm, hprogram, hcall.1, hcall.2, by simp [hmint], hp⟩
      · cases hmint
    · cases hn
  · rintro ⟨position, ix, hix, hprogram, hcall, hlen, hkey, hp⟩
    obtain ⟨mint, hmint⟩ := Option.isSome_iff_exists.1 hkey
    have hnamed : mint? t ix = some mint := by rw [mint?, if_pos ⟨hcall, hlen⟩, hmint]
    exact ⟨position, mint, ⟨ix, position, List.mk_mem_zipIdx_iff_getElem?.2 hix, by simp [hprogram, hnamed]⟩, hp⟩

/-- **The first confirmed migration is reported.** Whatever the instructions, the account table and the inner
instructions are, the reader reports the first call that names a mint and has a payload, and counts it and the
payloads cut short before it. It reports one exactly if there is such a call, whatever stands before it. -/
theorem read_reports_first (d : Migrations) (ms : Int) (t : Transaction) (h : ∀ ix ∈ t.instructions, Forward ix) :
    ((d.read (.ok ms) t).1, (d.read (.ok ms) t).2.1) = d.reference ms t ∧
    ((d.read (.ok ms) t).1.isSome ↔
      ∃ (position : Nat) (ix : Instruction), t.instructions[position]? = some ix ∧ t.programOf? ix = some d.program ∧
        migrateCall <+: ix.data ∧ 24 ≤ ix.accounts.length ∧ (t.keyAt ix 2).isSome ∧
        ∃ e ∈ t.innerOf position, Carries migrateEventTag 176 e) := by
  have hcalls : ∀ x ∈ t.callsTo d.program, Forward x.2 := by
    intro x hx
    rw [t.callsTo_eq_filterMap] at hx
    obtain ⟨⟨ix, position⟩, hm, he⟩ := List.mem_filterMap.1 hx
    simp only at he
    split at he
    · obtain rfl := Option.some.inj he
      exact h ix (List.fst_mem_of_mem_zipIdx hm)
    · cases he
  have agrees := scan_agrees t ms _ hcalls
  rw [naming_callsTo] at agrees
  have event : (d.read (.ok ms) t).1 = (confirmed? t (named d.program t)).map fun (mint, e) => migrationOf t ms mint e :=
    agrees.event
  refine ⟨?_, by rw [event, Option.isSome_map, confirmed?_isSome_iff]⟩
  simp only [read, reference, agrees.event, agrees.confirmed, agrees.refused, Option.isSome_map]

/-- A migrate call with too few references, one whose mint is past the table, one by another program, one whose only
payload is cut short, the one that counts, and another behind it. The one that counts is confirmed by the last of
its inner instructions: the first has the tag of another event and the second is cut short. -/
def crowdedMigration : Transaction where
  signature := [7]
  slot := 5
  keys := ["mint", "curve", "other"]
  instructions := [
    ⟨1, migrateCall, List.replicate 23 0⟩,
    ⟨1, migrateCall, [0, 0, 3] ++ List.replicate 21 0⟩,
    ⟨2, migrateCall, List.replicate 24 0⟩,
    ⟨1, migrateCall, List.replicate 24 0⟩,
    ⟨1, migrateCall ++ [1], [9, 9, 0] ++ List.replicate 22 9⟩,
    ⟨1, migrateCall, [0, 0, 1] ++ List.replicate 21 0⟩]
  inner := [
    (0, [⟨1, migrateEventTag ++ List.replicate 160 1, []⟩]),
    (1, [⟨1, migrateEventTag, []⟩, ⟨1, migrateEventTag ++ List.replicate 160 1, []⟩]),
    (2, [⟨2, migrateEventTag ++ List.replicate 160 1, []⟩]),
    (3, [⟨1, migrateEventTag ++ List.replicate 159 1, []⟩]),
    (4, [⟨1, buyEventTag ++ List.replicate 160 1, []⟩, ⟨1, migrateEventTag, []⟩,
      ⟨1, migrateEventTag ++ List.replicate 64 0 ++ Bytes.ofLeNat 8 1000 ++ Bytes.ofLeNat 8 84 ++
        List.replicate 79 0 ++ [1, 255], []⟩]),
    (5, [⟨1, migrateEventTag ++ List.replicate 160 1, []⟩])]

theorem read_crowdedMigration :
    (∀ ix ∈ crowdedMigration.instructions, Forward ix) ∧
    ((read { program := "curve" } (.ok 1700000000000) crowdedMigration).1,
      (read { program := "curve" } (.ok 1700000000000) crowdedMigration).2.1) =
      (some ⟨"8", 5, 1700000000000, "mint", "11111111111111111111111111111112", 84, 1000⟩,
        { program := "curve", successes := 1, failures := 2 }) := by
  have forward : ∀ ix ∈ crowdedMigration.instructions, Forward ix := by decide
  refine ⟨forward, ?_⟩
  rw [(read_reports_first _ _ _ forward).1]
  decide +kernel

end PoolFeed.Chain.Migrations
