import Mathlib.Data.List.Forall2
import PoolFeed.Batcher.Basic
import PoolFeed.Lookups.Turn
import PoolFeed.Proofs.Chain.Authority
import PoolFeed.Proofs.Intake.Faults

/-!
# What the intake feeds

| here | there |
| --- | --- |
| `Fanout` | `TransactionProcessor` with its `TradeBatcher` and its `MetadataQueue` |
| `processed` | `process` of one envelope after the other |

Trades go to the batcher, jobs to the lookups, and migrations are announced. Transactions are handled here one after
the other, each to its end; meanwhile the ledger answers its write and the shared store the write-through, as they like.
`storage_faults_leave_no_trace` says that no fault of theirs shows anywhere but in the count of storage errors.
-/

namespace PoolFeed.Intake

/-! ## What the intake feeds -/

/-- Traffic together with the parts that it feeds. -/
structure Fanout where
  traffic : Traffic
  batcher : Batcher Json := {}
  lookups : Lookups := {}
  /-- What was to be announced, in order. -/
  announced : List Json := []

namespace Fanout

/-- Passes an effect on to the part that it is meant for. -/
def feed (s : Fanout) : Effect → Fanout
  | .savePool _ | .saveTrade _ _ => s
  | .lookUp job => { s with lookups := (s.lookups.enqueue job).2.lookups }
  | .announce m => { s with announced := s.announced ++ [announcement m] }
  | .batch pool line => { s with batcher := (s.batcher.enqueue pool [line.payload]).1 }

/-- A move, with its effects passed on. -/
def step (s : Fanout) (m : Move) : Fanout := (s.traffic.effects m).foldl feed { s with traffic := s.traffic.step m }

/-- The same without what the stores leave behind. -/
def bare (s : Fanout) : Fanout := { s with traffic := s.traffic.bare }

variable {s s' : Fanout}

theorem feed_traffic (s : Fanout) (e : Effect) : (s.feed e).traffic = s.traffic := by
  cases e <;> rfl

theorem foldl_feed_traffic (es : List Effect) : ∀ s : Fanout, (es.foldl feed s).traffic = s.traffic := by
  induction es with
  | nil => exact fun _ => rfl
  | cons e es ih => exact fun s => (ih (s.feed e)).trans (s.feed_traffic e)

@[simp] theorem step_traffic (s : Fanout) (m : Move) : (s.step m).traffic = s.traffic.step m := foldl_feed_traffic _ _

theorem bare_foldl_feed (es : List Effect) :
    ∀ {s s' : Fanout}, s.bare = s'.bare → (es.foldl feed s).bare = (es.foldl feed s').bare := by
  induction es with
  | nil => exact fun h => h
  | cons e es ih =>
    intro s s' h
    refine ih ?_
    have hfeed (s : Fanout) : (s.feed e).bare = s.bare.feed e := by cases e <;> rfl
    rw [hfeed, hfeed, h]

/-- Moves with the same effects feed the same. -/
theorem bare_step {m m' : Move} (h : s.bare = s'.bare)
    (htraffic : (s.traffic.step m).bare = (s'.traffic.step m').bare)
    (heffects : s.traffic.effects m = s'.traffic.effects m') : (s.step m).bare = (s'.step m').bare := by
  unfold step
  rw [heffects]
  refine bare_foldl_feed _ ?_
  show ({ s.bare with traffic := (s.traffic.step m).bare } : Fanout) =
    { s'.bare with traffic := (s'.traffic.step m').bare }
  rw [h, htraffic]

theorem bare_writeThrough (s : Fanout) (ticket : Nat) (failure : Option String) :
    (s.step (.writeThrough ticket failure)).bare = s.bare :=
  congrArg (fun t => { s with traffic := t }) (s.traffic.bare_writeThrough ticket failure)

end Fanout

/-! ## One after the other -/

/-- What the stores answer while a transaction is handled. -/
structure Answers where
  /-- To its own write. -/
  saved : Option String := none
  /-- To the write-through, by tickets: before the transaction, during its write, and during its announcement. -/
  before : List (Nat × Option String) := []
  whileSaving : List (Nat × Option String) := []
  whileAnnouncing : List (Nat × Option String) := []

/-- A transaction has ended. It fails without any effect, or because its announcement has failed. -/
def Errand.Ended (announced : Option String) (e : Errand) : Prop :=
  e.progress = .finished ∨ (∃ fault, e.progress = .failed fault ∧ e.effects = []) ∨
    ∃ reason, e.progress = .failed (.announcement reason) ∧ announced = some reason

/-- A transaction and its surroundings. -/
structure Visit where
  arrival : Arrival
  /-- What is answered to its announcement, if it comes to one. -/
  announced : Option String := none
  /-- What the parts that are fed do of their own accord before it. -/
  aside : Batcher Json × Lookups → Batcher Json × Lookups := id

namespace Fanout

/-- Takes answers to the write-through. -/
def share (s : Fanout) (answers : List (Nat × Option String)) : Fanout :=
  answers.foldl (fun s (ticket, failure) => s.step (.writeThrough ticket failure)) s

/-- Leaves the parts that are fed to themselves. -/
def leave (s : Fanout) (aside : Batcher Json × Lookups → Batcher Json × Lookups) : Fanout :=
  { s with batcher := (aside (s.batcher, s.lookups)).1, lookups := (aside (s.batcher, s.lookups)).2 }

/-- Handles one transaction to its end. -/
def process (s : Fanout) (x : Answers) (v : Visit) : Fanout :=
  let n := s.traffic.errands.length
  let s := ((s.leave v.aside).share x.before).step (.arrive v.arrival)
  let s := (s.share x.whileSaving).step (.answer n x.saved)
  (s.share x.whileAnnouncing).step (.answer n v.announced)

variable {s s' : Fanout}

theorem bare_share (answers : List (Nat × Option String)) : ∀ s : Fanout, (s.share answers).bare = s.bare := by
  induction answers with
  | nil => exact fun _ => rfl
  | cons answer answers ih =>
    exact fun s => (ih (s.step (.writeThrough answer.1 answer.2))).trans (s.bare_writeThrough _ _)

theorem traffic_bare (h : s.bare = s'.bare) : s.traffic.bare = s'.traffic.bare := (congrArg Fanout.traffic h :)

theorem bare_arrive (h : s.bare = s'.bare) (a : Arrival) :
    (s.step (.arrive a)).bare = (s'.step (.arrive a)).bare := by
  obtain ⟨htraffic, heffects⟩ := Traffic.bare_arrive (traffic_bare h) a
  exact bare_step h htraffic heffects

theorem bare_answer (h : s.bare = s'.bare) (j : Nat) {f g : Option String}
    (hanswers : ∀ e w, s.traffic.errands[j]? = some e → e.progress = .waits w → w.isSave ∨ f = g) :
    (s.step (.answer j f)).bare = (s'.step (.answer j g)).bare := by
  obtain ⟨htraffic, heffects⟩ := Traffic.bare_answer (traffic_bare h) j hanswers
  exact bare_step h htraffic heffects

theorem errands_share (s : Fanout) (answers : List (Nat × Option String)) :
    (s.share answers).traffic.errands = s.traffic.errands :=
  Traffic.errands_bare (traffic_bare (bare_share answers s))

theorem intake_share (answers : List (Nat × Option String)) :
    ∀ s : Fanout, (s.share answers).traffic.intake = s.traffic.intake := by
  induction answers with
  | nil => exact fun _ => rfl
  | cons answer answers ih => exact fun s => ih (s.step (.writeThrough answer.1 answer.2))

theorem errands_arrive (s : Fanout) (a : Arrival) :
    (s.step (.arrive a)).traffic.errands = s.traffic.errands ++ [s.traffic.intake.opened s.traffic.registry a] := by
  rw [step_traffic]
  rfl

/-- Whatever the stores answer, a transaction does the same. -/
theorem bare_process (h : s.bare = s'.bare) (x y : Answers) (v : Visit) :
    (s.process x v).bare = (s'.process y v).bare := by
  have hleave : (s.leave v.aside).bare = (s'.leave v.aside).bare := congrArg (fun s => s.leave v.aside) h
  have hbefore : ((s.leave v.aside).share x.before).bare = ((s'.leave v.aside).share y.before).bare := by
    rw [bare_share, bare_share, hleave]
  have harrived := bare_arrive hbefore v.arrival
  have herrands : ((s.leave v.aside).share x.before).traffic.errands = s.traffic.errands := errands_share _ _
  simp only [process, ← Traffic.errands_bare (traffic_bare h)]
  refine bare_answer ?_ _ fun _ _ _ _ => .inr rfl
  rw [bare_share, bare_share]
  refine bare_answer (by rw [bare_share, bare_share, harrived]) _ fun e w he hw => ?_
  rw [errands_share, errands_arrive, herrands, List.getElem?_concat_length] at he
  cases he
  obtain ⟨w', hsave, hprogress, -⟩ | ⟨hnone, -⟩ := opened_opens ((s.leave v.aside).share x.before).traffic.intake
    ((s.leave v.aside).share x.before).traffic.registry v.arrival
  · cases hprogress.symm.trans hw
    exact .inl hsave
  · exact absurd hw (hnone w)

/-- The answer to the last transaction's write. -/
theorem saved_errand {s : Fanout} {before : List Errand} {e : Errand} (h : s.traffic.errands = before ++ [e])
    (hopens : e.Opens) (failure : Option String) : ∃ e' : Errand,
    (s.step (.answer before.length failure)).traffic.errands = before ++ [e'] ∧
    (s.step (.answer before.length failure)).traffic.intake.storageErrors =
      s.traffic.intake.storageErrors + (e'.saves && failure.isSome).toNat ∧
    ((∀ w, e'.progress ≠ .waits w) ∧ e'.Ended none ∨ e'.saves ∧ ∃ m, e'.progress = .waits (.announcing m)) := by
  rw [step_traffic]
  obtain ⟨w, hsave, hw, heffects⟩ | ⟨hidle, hnone⟩ := hopens
  · obtain ⟨herrands, hcount⟩ := Traffic.answer_waiting h hw failure
    have hsaves : Errand.saves ⟨e.event, e.effects ++ (s.traffic.intake.resume s.traffic.registry w failure).effects,
        (s.traffic.intake.resume s.traffic.registry w failure).progress⟩ := by
      simp [Errand.saves, heffects, w.isSave_effect, hsave]
    refine ⟨_, herrands, by rw [hcount, hsave, hsaves], ?_⟩
    obtain hover | hannounces := resume_saved s.traffic.intake s.traffic.registry hsave failure
    · refine .inl ⟨fun w hw => ?_, .inl hover⟩
      cases hover.symm.trans hw
    · exact .inr ⟨hsaves, hannounces⟩
  · rw [Traffic.answer_idle h hidle]
    have hsaves : e.saves = false := by rw [Errand.saves, hnone]; rfl
    refine ⟨e, h, by rw [hsaves]; rfl, .inl ⟨hidle, ?_⟩⟩
    cases hp : e.progress with
    | waits w => exact absurd hp (hidle w)
    | finished => exact .inl hp
    | failed fault => exact .inr (.inl ⟨fault, hp, hnone⟩)

/-- The answer to the last transaction's announcement, if it comes to one. -/
theorem announced_errand {s : Fanout} {before : List Errand} {e : Errand} (h : s.traffic.errands = before ++ [e])
    (hsaved : (∀ w, e.progress ≠ .waits w) ∧ e.Ended none ∨ e.saves ∧ ∃ m, e.progress = .waits (.announcing m))
    (failure : Option String) : ∃ e' : Errand,
    (s.step (.answer before.length failure)).traffic.errands = before ++ [e'] ∧
    (s.step (.answer before.length failure)).traffic.intake.storageErrors = s.traffic.intake.storageErrors ∧
    e'.saves = e.saves ∧ e'.Ended failure := by
  rw [step_traffic]
  obtain ⟨hidle, hended⟩ | ⟨hsaves, m, hw⟩ := hsaved
  · rw [Traffic.answer_idle h hidle]
    refine ⟨e, h, rfl, rfl, ?_⟩
    obtain hover | hquit | ⟨reason, -, hreason⟩ := hended
    · exact .inl hover
    · exact .inr (.inl hquit)
    · cases hreason
  · obtain ⟨herrands, hcount⟩ := Traffic.answer_waiting h hw failure
    refine ⟨_, herrands, hcount, ?_, ?_⟩
    · rw [hsaves]
      simp only [Errand.saves, List.any_append, Bool.or_eq_true] at hsaves ⊢
      exact .inl hsaves
    · cases failure with
      | none => exact .inl rfl
      | some reason => exact .inr (.inr ⟨reason, rfl, rfl⟩)

theorem process_errand (s : Fanout) (x : Answers) (v : Visit) : ∃ e : Errand,
    (s.process x v).traffic.errands = s.traffic.errands ++ [e] ∧ e.Ended v.announced ∧
    (s.process x v).traffic.intake.storageErrors =
      s.traffic.intake.storageErrors + (e.saves && x.saved.isSome).toNat := by
  have hstart : ((s.leave v.aside).share x.before).traffic.errands = s.traffic.errands := errands_share _ _
  have hnone : ((s.leave v.aside).share x.before).traffic.intake = s.traffic.intake := intake_share _ _
  simp only [process]
  generalize (s.leave v.aside).share x.before = s₁ at hstart hnone ⊢
  have harrived : ((s₁.step (.arrive v.arrival)).share x.whileSaving).traffic.errands =
      s.traffic.errands ++ [s₁.traffic.intake.opened s₁.traffic.registry v.arrival] := by
    rw [errands_share, errands_arrive, hstart]
  have hcount : ((s₁.step (.arrive v.arrival)).share x.whileSaving).traffic.intake.storageErrors =
      s.traffic.intake.storageErrors := by
    rw [intake_share, step_traffic, ← hnone]
    exact begin_storageErrors _ _ _
  obtain ⟨e, herrands, hcount', hsaved⟩ := saved_errand harrived (opened_opens _ _ v.arrival) x.saved
  rw [hcount] at hcount'
  generalize ((s₁.step (.arrive v.arrival)).share x.whileSaving).step (.answer s.traffic.errands.length x.saved) = s₂
    at herrands hcount' ⊢
  obtain ⟨e', herrands', hcount'', hsaves, hended⟩ := announced_errand
    ((errands_share s₂ x.whileAnnouncing).trans herrands) hsaved v.announced
  refine ⟨e', herrands', hended, ?_⟩
  rw [hcount'', intake_share, hcount', hsaves]

end Fanout

/-! ## All transactions -/

/-- Handles transactions, each to its end before the next comes; the stores answer each by its number. -/
def processed (i : Intake) (r : Registry) (b : Batcher Json) (l : Lookups) (answers : Nat → Answers)
    (vs : List Visit) : Fanout :=
  vs.foldl (fun s v => s.process (answers s.traffic.errands.length) v)
    { traffic := { intake := i, registry := r }, batcher := b, lookups := l }

/-- How many writes have failed, of those that were asked for. -/
def refused (answers : Nat → Answers) (errands : List Errand) : Nat :=
  errands.zipIdx.countP fun (e, n) => e.saves && (answers n).saved.isSome

theorem refused_concat (answers : Nat → Answers) (errands : List Errand) (e : Errand) :
    refused answers (errands ++ [e]) =
      refused answers errands + (e.saves && (answers errands.length).saved.isSome).toNat := by
  simp only [refused, List.zipIdx_append, List.countP_append, List.zipIdx_singleton, List.countP_singleton, Nat.zero_add]
  cases e.saves && (answers errands.length).saved.isSome <;> rfl

variable {i : Intake} {r : Registry} {b : Batcher Json} {l : Lookups}

theorem processed_concat (answers : Nat → Answers) (vs : List Visit) (v : Visit) :
    processed i r b l answers (vs ++ [v]) = (processed i r b l answers vs).process
      (answers (processed i r b l answers vs).traffic.errands.length) v := by
  simp only [processed, List.foldl_append, List.foldl_cons, List.foldl_nil]

theorem bare_processed (f g : Nat → Answers) (vs : List Visit) :
    (processed i r b l f vs).bare = (processed i r b l g vs).bare := by
  induction vs using List.reverseRecOn with
  | nil => rfl
  | append_singleton vs v ih =>
    rw [processed_concat, processed_concat]
    exact Fanout.bare_process ih _ _ v

theorem processed_errands (f : Nat → Answers) (vs : List Visit) :
    (processed i r b l f vs).traffic.intake.storageErrors =
      i.storageErrors + refused f (processed i r b l f vs).traffic.errands ∧
    List.Forall₂ (fun v e => Errand.Ended v.announced e) vs (processed i r b l f vs).traffic.errands := by
  induction vs using List.reverseRecOn with
  | nil => exact ⟨rfl, .nil⟩
  | append_singleton vs v ih =>
    obtain ⟨hcount, hended⟩ := ih
    rw [processed_concat]
    obtain ⟨e, herrands, hlast, hcount'⟩ := (processed i r b l f vs).process_errand
      (f (processed i r b l f vs).traffic.errands.length) v
    rw [herrands, hcount', hcount, refused_concat, Nat.add_assoc]
    exact ⟨rfl, List.rel_append hended (.cons hlast .nil)⟩

/-- **Faults of the stores leave no trace.** For any transactions, handled one after the other, two patterns of
answers from the ledger and the shared store lead to the same events, effects, registered pools, batches, lookups,
announcements and counts; only the storage errors differ, and they are the writes that have failed. Every transaction
comes to an end, and fails only if it has asked for nothing or if its announcement has failed. -/
theorem storage_faults_leave_no_trace (i : Intake) (r : Registry) (b : Batcher Json) (l : Lookups)
    (f g : Nat → Answers) (vs : List Visit) :
    (processed i r b l f vs).bare = (processed i r b l g vs).bare ∧
    (processed i r b l f vs).traffic.intake.storageErrors =
      i.storageErrors + refused f (processed i r b l f vs).traffic.errands ∧
    List.Forall₂ (fun v e => Errand.Ended v.announced e) vs (processed i r b l f vs).traffic.errands :=
  ⟨bare_processed f g vs, processed_errands f vs⟩

/-- A migration and a buy in its pool, where the ledger refuses every write and the shared store fails. -/
example :
    let s := processed { migrationsReader := { program := "curve" } } { shared := true } {} {}
      (fun _ => { saved := some "database unavailable", whileSaving := [(0, some "refused")] })
      [{ arrival := ⟨.ok 1700000000000, Chain.genuineMigration⟩ },
        { arrival := { smallBuy with transaction := { smallBuy.transaction with
            keys := "11111111111111111111111111111112" :: smallBuy.transaction.keys.tail } } }]
    (s.traffic.intake.storageErrors, s.traffic.registry.failed, s.announced.length, s.lookups.queue.length,
      s.batcher.batches.buffered) = (2, 1, 1, 1, 1) := by
  decide +kernel

end PoolFeed.Intake
