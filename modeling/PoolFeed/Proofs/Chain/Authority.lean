import PoolFeed.Chain.Migrations
import PoolFeed.Proofs.Chain.SwapReading

/-!
# Whose payload an event is made of

| here | there |
| --- | --- |
| `source?` | the inner instruction that `_find_event` of the decoder takes |
| `Authentic` | "confirms them against the self-CPI events the program emits" (`PumpSwapDecoder`) |

A program reports what it has done in an inner instruction by which it calls itself. Inner instructions of
other programs stand in the same groups, and the readers know a report by its tag alone, not by the program
that was called. `source?` is the inner instruction whose payload a reader uses. It is one of the program's
own exactly if it would be used as well without the inner instructions of other programs, and then those
have no say in the event (`authentic_iff_unchanged`). A payload that another program puts in front of the
program's own is taken for it (`forgedMigration_reported`).
-/

namespace PoolFeed

/-- What a search finds passes a second test exactly if the search finds the same where all else is left out. -/
theorem find?_passes_iff {α : Type} (p q : α → Bool) (l : List α) :
    (∀ a ∈ l.find? p, q a) ↔ (l.filter q).find? p = l.find? p := by
  constructor
  · intro h
    cases hf : l.find? p with
    | none =>
      rw [List.find?_eq_none] at hf ⊢
      exact fun a ha => hf a (List.mem_filter.1 ha).1
    | some a =>
      obtain ⟨hp, before, after, rfl, hbefore⟩ := List.find?_eq_some_iff_append.1 hf
      have hq : q a := h a hf
      rw [List.filter_append, List.filter_cons_of_pos hq]
      refine List.find?_eq_some_iff_append.2 ⟨hp, _, _, rfl, fun b hb => hbefore b (List.mem_filter.1 hb).1⟩
  · intro h a ha
    rw [← h] at ha
    exact (List.mem_filter.1 (List.mem_of_find?_eq_some ha)).2

namespace Transaction

/-- An instruction calls the program. -/
def Calls (t : Transaction) (program : String) (ix : Instruction) : Prop := t.programOf? ix = some program

instance (t : Transaction) (program : String) (ix : Instruction) : Decidable (t.Calls program ix) :=
  inferInstanceAs (Decidable (_ = _))

/-- The transaction without the inner instructions of other programs. -/
def only (t : Transaction) (program : String) : Transaction :=
  { t with inner := t.inner.map fun (position, group) => (position, group.filter (t.Calls program ·)) }

theorem innerOf_only (t : Transaction) (program : String) (position : Int) :
    (t.only program).innerOf position = (t.innerOf position).filter (t.Calls program ·) := by
  simp only [innerOf, only]
  induction t.inner with
  | nil => rfl
  | cons x inner ih =>
    rw [List.map_cons, List.lookup_cons, List.lookup_cons]
    split
    · rfl
    · exact ih

/-- Two transactions that differ at most in inner instructions of other programs. -/
structure SameFor (program : String) (t u : Transaction) : Prop where
  signature : t.signature = u.signature
  slot : t.slot = u.slot
  keys : t.keys = u.keys
  instructions : t.instructions = u.instructions
  inner : ∀ position : Int, (t.only program).innerOf position = (u.only program).innerOf position

namespace SameFor

variable {program : String} {t u : Transaction}

theorem signatureText (h : SameFor program t u) : t.signatureText = u.signatureText := by
  rw [Transaction.signatureText, h.signature, Transaction.signatureText]

theorem account (h : SameFor program t u) : t.account = u.account := by
  funext ix position
  rw [Transaction.account, Transaction.account, h.keys]

theorem callsTo (h : SameFor program t u) : t.callsTo = u.callsTo := by
  funext program
  simp only [Transaction.callsTo, programOf?, h.keys, h.instructions]

end SameFor

end Transaction

namespace Chain

open Transaction (Calls SameFor)

/-! ## Migrations -/

namespace Migrations

/-- The first migrate call that is reported: its mint, and the inner instruction that reports it. -/
def found? (t : Transaction) : List (Nat × Instruction) → Option (String × Instruction)
  | [] => none
  | (position, ix) :: rest =>
    if ix.data.take 8 ≠ migrateCall ∨ ix.accounts.length < migrateMinAccounts then found? t rest
    else match t.account ix 2 with
      | .error _ => none
      | .ok none => found? t rest
      | .ok (some mint) =>
        match (t.innerOf position).find? (Carries migrateEventTag migrateEvent.size ·) with
        | none => found? t rest
        | some e => some (mint, e)

/-- The inner instruction whose payload becomes the migration. -/
def source? (d : Migrations) (t : Transaction) : Option Instruction := (found? t (t.callsTo d.program)).map (·.2)

/-- The payload of a migration is the program's own. -/
def Authentic (d : Migrations) (t : Transaction) : Prop := ∀ e ∈ d.source? t, t.Calls d.program e

/-- The migration that the payload of an inner instruction reports. -/
def reported (t : Transaction) (ms : Int) (x : String × Instruction) : Migration :=
  report t x.1 ms ((migrateEvent.parse? x.2.data).getD [])

theorem scan_event (t : Transaction) (ms : Int) :
    ∀ calls, (scan t (.ok ms) calls).event = (found? t calls).map (reported t ms)
  | [] => rfl
  | (position, ix) :: rest => by
    have ih := scan_event t ms rest
    have hrecord := findRecord_snd (show migrateEventTag.length = 16 from rfl) migrateEvent (t.innerOf position)
    simp only [scan, found?]
    by_cases htag : ix.data.take 8 = migrateCall
    · by_cases hlen : ix.accounts.length < migrateMinAccounts
      · simpa [htag, hlen, Scan.after] using ih
      · simp only [htag, hlen, ne_eq, not_true_eq_false, or_self, if_false]
        match t.account ix 2 with
        | .error e => rfl
        | .ok none => exact ih
        | .ok (some mint) =>
          cases hfind : (t.innerOf position).find? (Carries migrateEventTag migrateEvent.size ·) with
          | none =>
            rw [hfind, Option.bind_none] at hrecord
            simp only [hrecord]
            exact ih
          | some e =>
            have hc : Carries migrateEventTag migrateEvent.size e := by simpa using List.find?_some hfind
            obtain ⟨r, hr⟩ := Layout.exists_parse hc.2
            rw [hfind, Option.bind_some, hr] at hrecord
            simp [hrecord, reported, hr]
    · simpa [htag] using ih

/-- A migration is what the payload of its source says. -/
theorem read_event (d : Migrations) (ms : Int) (t : Transaction) :
    (d.read (.ok ms) t).1 = (found? t (t.callsTo d.program)).map (reported t ms) := scan_event t ms _

theorem found?_congr {program : String} {t u : Transaction} (h : SameFor program t u) :
    ∀ calls, found? (t.only program) calls = found? (u.only program) calls
  | [] => rfl
  | (position, ix) :: rest => by
    have hacc : (t.only program).account = (u.only program).account := h.account
    simp only [found?, hacc, h.inner, found?_congr h rest]

/-- Where the inner instructions of other programs are left out, they are no source. -/
theorem calls_of_found?_only (t : Transaction) (program : String) :
    ∀ calls, ∀ x ∈ found? (t.only program) calls, t.Calls program x.2
  | [], _, h => by cases h
  | (position, ix) :: rest, x, h => by
    have ih := calls_of_found?_only t program rest x
    rw [found?] at h
    split at h
    · exact ih h
    · split at h
      · cases h
      · exact ih h
      · split at h
        · exact ih h
        · rename_i e he
          cases h
          rw [Transaction.innerOf_only] at he
          simpa using (List.mem_filter.1 (List.mem_of_find?_eq_some he)).2

theorem found?_only (t : Transaction) (program : String) :
    ∀ calls, (∀ x ∈ found? t calls, t.Calls program x.2) → found? (t.only program) calls = found? t calls
  | [], _ => rfl
  | (position, ix) :: rest, h => by
    have ih := found?_only t program rest
    have hacc : (t.only program).account = t.account := rfl
    rw [found?] at h
    rw [found?, found?, hacc]
    split at h
    · rename_i hskip
      rw [if_pos hskip, if_pos hskip]
      exact ih h
    · rename_i hskip
      rw [if_neg hskip, if_neg hskip]
      split at h
      · rfl
      · exact ih h
      · have hfind := find?_passes_iff (Carries migrateEventTag migrateEvent.size ·) (t.Calls program ·)
          (t.innerOf position)
        rw [← Transaction.innerOf_only] at hfind
        split at h
        · rename_i hnone
          rw [hfind.1 (by rw [hnone]; nofun), hnone]
          exact ih h
        · rename_i e hsome
          have he : t.Calls program e := h _ rfl
          rw [hfind.1 (by rw [hsome]; rintro a ⟨⟩; exact decide_eq_true he), hsome]

theorem authentic_iff (d : Migrations) (t : Transaction) :
    d.Authentic t ↔ d.source? (t.only d.program) = d.source? t := by
  have hcalls : (t.only d.program).callsTo = t.callsTo := rfl
  constructor
  · intro h
    rw [source?, hcalls, found?_only t d.program _ fun x hx => h _ (Option.mem_map_of_mem _ hx), source?]
  · intro h e he
    rw [← h, source?, hcalls] at he
    obtain ⟨x, hx, rfl⟩ := Option.map_eq_some_iff.1 he
    exact calls_of_found?_only t d.program _ x hx

/-- Migrations with payloads of the program's own do not depend on other programs. -/
theorem Authentic.read_eq {d : Migrations} {t u : Transaction} (ht : d.Authentic t) (hu : d.Authentic u)
    (h : SameFor d.program t u) (ms : Int) : (d.read (.ok ms) t).1 = (d.read (.ok ms) u).1 := by
  have hfound := found?_congr h (t.callsTo d.program)
  rw [found?_only t d.program _ fun x hx => ht _ (Option.mem_map_of_mem _ hx), h.callsTo,
    found?_only u d.program _ fun x hx => hu _ (Option.mem_map_of_mem _ hx)] at hfound
  have hreported : reported t ms = reported u ms := by
    funext x
    simp only [reported, report, h.signatureText, h.slot]
  rw [read_event, read_event, h.callsTo, hfound, hreported]

end Migrations

/-! ## Swaps -/

namespace Swaps

/-- The call that is drafted, with its position and its parties. -/
def drafted? (d : Swaps) (t : Transaction) : Option (Nat × Instruction × Call × Parties) :=
  match firstCall (t.callsTo d.program) with
  | none => none
  | some (position, ix, call) =>
    if (ix.data.drop 8).length < call.args.size ∨ ix.accounts.length < swapMinAccounts then none
    else match parties t ix call with
      | .ok (some p) => some (position, ix, call, p)
      | .ok none | .error _ => none

/-- The inner instruction whose payload fills the event in. -/
def source? (d : Swaps) (t : Transaction) : Option Instruction :=
  (drafted? d t).bind fun (position, _, call, _) =>
    (t.innerOf position).find? (Carries call.eventTag call.event.size ·)

/-- The payload that fills the event in is the program's own. -/
def Authentic (d : Swaps) (t : Transaction) : Prop := ∀ e ∈ d.source? t, t.Calls d.program e

/-- The draft is filled in with what the payload of an inner instruction says, if there is one. -/
def filled (t : Transaction) (ms : Int) (ix : Instruction) (call : Call) (p : Parties) (e : Option Instruction) :
    Event :=
  let args := (call.args.parse? (ix.data.drop 8)).getD []
  let record := e.bind fun e => call.event.parse? e.data
  match call with
  | .createPool => .poolCreation (mergePool (draftPool t p ms args) record)
  | .trade side => .trade (mergeTrade (draftTrade t p ms side args) record)

/-- An event is what its call and the payload of its source say. -/
theorem read_event_eq (d : Swaps) (ms : Int) (t : Transaction) : (d.read (.ok ms) t).1 =
    (drafted? d t).map fun (_, ix, call, p) => filled t ms ix call p (d.source? t) := by
  simp only [read, source?, drafted?]
  cases firstCall (t.callsTo d.program) with
  | none => rfl
  | some found =>
    obtain ⟨position, ix, call⟩ := found
    simp only [scan]
    split
    · rfl
    · rcases parties t ix call with _ | _ | p
      · rfl
      · rfl
      · have hrecord := findRecord_snd (length_eventTag call) call.event (t.innerOf position)
        cases call <;> simp only [merged, hrecord, Option.map_some, Option.bind_some, filled]

theorem drafted?_congr {d : Swaps} {t u : Transaction} (h : SameFor d.program t u) : drafted? d t = drafted? d u := by
  simp only [drafted?, parties, h.callsTo, h.account]

theorem source?_only (d : Swaps) (t : Transaction) : d.source? (t.only d.program) = (drafted? d t).bind
    fun (position, _, call, _) =>
      ((t.innerOf position).filter (t.Calls d.program ·)).find? (Carries call.eventTag call.event.size ·) := by
  have hdraft : drafted? d (t.only d.program) = drafted? d t := rfl
  simp only [source?, hdraft, Transaction.innerOf_only]

theorem authentic_iff (d : Swaps) (t : Transaction) : d.Authentic t ↔ d.source? (t.only d.program) = d.source? t := by
  rw [source?_only, Authentic, source?]
  cases drafted? d t with
  | none => exact ⟨fun _ => rfl, nofun⟩
  | some x =>
    simp only [Option.bind_some]
    simpa using find?_passes_iff (Carries x.2.2.1.eventTag x.2.2.1.event.size ·) (t.Calls d.program ·)
      (t.innerOf x.1)

/-- Events with payloads of the program's own do not depend on other programs. -/
theorem Authentic.read_eq {d : Swaps} {t u : Transaction} (ht : d.Authentic t) (hu : d.Authentic u)
    (h : SameFor d.program t u) (ms : Int) : (d.read (.ok ms) t).1 = (d.read (.ok ms) u).1 := by
  have hsource : d.source? t = d.source? u := by
    rw [← (authentic_iff d t).1 ht, ← (authentic_iff d u).1 hu, source?, source?]
    have hdraft : drafted? d (t.only d.program) = drafted? d (u.only d.program) :=
      drafted?_congr (t := t) (u := u) h
    simp only [hdraft, h.inner]
  have hfilled : filled t ms = filled u ms := by
    funext ix call p e
    simp only [filled, draftPool, draftTrade, h.signatureText, h.slot]
  rw [read_event_eq, read_event_eq, drafted?_congr h, hsource, hfilled]

end Swaps

/-! ## Both readers -/

/-- **The payload of an event is the program's own exactly if the reader would use it as well without the inner
instructions of other programs.** Among such transactions those inner instructions make no difference. -/
theorem authentic_iff_unchanged (m : Migrations) (s : Swaps) (t : Transaction) :
    (m.Authentic t ↔ m.source? (t.only m.program) = m.source? t) ∧
    (s.Authentic t ↔ s.source? (t.only s.program) = s.source? t) ∧
    ∀ ms,
      (m.read (.ok ms) t).1 = (Migrations.found? t (t.callsTo m.program)).map (Migrations.reported t ms) ∧
      (s.read (.ok ms) t).1 =
        (s.drafted? t).map (fun (_, ix, call, p) => Swaps.filled t ms ix call p (s.source? t)) ∧
      (∀ u, SameFor m.program t u → m.Authentic t → m.Authentic u →
        (m.read (.ok ms) t).1 = (m.read (.ok ms) u).1) ∧
      ∀ u, SameFor s.program t u → s.Authentic t → s.Authentic u →
        (s.read (.ok ms) t).1 = (s.read (.ok ms) u).1 :=
  ⟨m.authentic_iff t, s.authentic_iff t, fun ms => ⟨m.read_event ms t, s.read_event_eq ms t,
    fun _ h ht hu => ht.read_eq hu h ms, fun _ h ht hu => ht.read_eq hu h ms⟩⟩

/-- A payload that reports a migration into the pool whose last byte is given. -/
def migrationPayload (tokens lamports : Nat) (pool : UInt8) : Bytes :=
  migrateEventTag ++ List.replicate 64 0 ++ Bytes.ofLeNat 8 tokens ++ Bytes.ofLeNat 8 lamports ++
    List.replicate 48 0 ++ List.replicate 31 0 ++ [pool]

/-- A migration into pool 1, as its program reports it. -/
def genuineMigration : Transaction where
  signature := [7]
  slot := 5
  keys := ["mint", "curve", "other"]
  instructions := [⟨1, migrateCall, List.replicate 24 0⟩]
  inner := [(0, [⟨1, migrationPayload 50 60 1, []⟩])]

/-- The same migration with an inner instruction of another program that is no report. -/
def accompaniedMigration : Transaction :=
  { genuineMigration with inner := [(0, [⟨2, [9], []⟩, ⟨1, migrationPayload 50 60 1, []⟩])] }

theorem accompaniedMigration_unchanged :
    SameFor "curve" genuineMigration accompaniedMigration ∧
    Migrations.Authentic { program := "curve" } genuineMigration ∧
    Migrations.Authentic { program := "curve" } accompaniedMigration ∧
    (Migrations.read { program := "curve" } (.ok 1700000000000) genuineMigration).1 =
      (Migrations.read { program := "curve" } (.ok 1700000000000) accompaniedMigration).1 := by
  have honly : genuineMigration.only "curve" = accompaniedMigration.only "curve" := by decide +kernel
  have hsame : SameFor "curve" genuineMigration accompaniedMigration :=
    ⟨rfl, rfl, rfl, rfl, fun position => by rw [honly]⟩
  obtain ⟨hgenuine, -, hread⟩ := authentic_iff_unchanged { program := "curve" } {} genuineMigration
  obtain ⟨haccompanied, -, -⟩ := authentic_iff_unchanged { program := "curve" } {} accompaniedMigration
  have hg := hgenuine.2 (by decide +kernel)
  have ha := haccompanied.2 (by decide +kernel)
  exact ⟨hsame, hg, ha, (hread 1700000000000).2.2.1 _ hsame hg ha⟩

/-- The same migration, where another program reports pool 2 in front of it. -/
def forgedMigration : Transaction :=
  { genuineMigration with inner := [(0, [⟨2, migrationPayload 7 8 2, []⟩, ⟨1, migrationPayload 50 60 1, []⟩])] }

/-- What another program reports is taken for the migration. -/
theorem forgedMigration_reported :
    SameFor "curve" genuineMigration forgedMigration ∧
    ¬ Migrations.Authentic { program := "curve" } forgedMigration ∧
    (Migrations.read { program := "curve" } (.ok 1700000000000) genuineMigration).1 =
      some ⟨"8", 5, 1700000000000, "mint", "11111111111111111111111111111112", 60, 50⟩ ∧
    (Migrations.read { program := "curve" } (.ok 1700000000000) forgedMigration).1 =
      some ⟨"8", 5, 1700000000000, "mint", "11111111111111111111111111111113", 8, 7⟩ := by
  have honly : genuineMigration.only "curve" = forgedMigration.only "curve" := by decide +kernel
  have hsource : Migrations.source? { program := "curve" } forgedMigration = some ⟨2, migrationPayload 7 8 2, []⟩ := by
    decide +kernel
  refine ⟨⟨rfl, rfl, rfl, rfl, fun position => by rw [honly]⟩, fun h => ?_, by decide +kernel, by decide +kernel⟩
  exact absurd (h _ hsource) (by decide +kernel)

end Chain

end PoolFeed
