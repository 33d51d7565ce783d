import PoolFeed.Proofs.Link.Turns

/-!
# Turns that are apart from the records

A record under way is a task of its own, and few turns have to do with it. A turn is apart from the records (`Apart`)
if it leaves their tasks alone and counts none, and if all that it wakes or that the link remembers are bystanders:
tasks that have a number already and handle no record. Every step keeps a turn apart, and so every task that goes on
does (`goOn_apart`), but for a reader that has received a record and the tasks of the records themselves.
-/

namespace PoolFeed.Link

variable {ρ : Type} {l : Link ρ}

/-- The tasks of the records under way. -/
def records (l : Link ρ) : List (Task (Stage ρ)) := l.tasks.among Stage.isRecord

/-- The tasks that the link remembers, to tell them to give up. -/
def handles (l : Link ρ) : List Nat := l.keeper.toList ++ l.reader.toList ++ l.retry.toList

theorem mem_handles {id : Nat} : id ∈ l.handles ↔ l.keeper = some id ∨ l.reader = some id ∨ l.retry = some id := by
  simp [handles]

/-- A task that has been created and does not handle a record under way. -/
structure Bystander (l : Link ρ) (id : Nat) : Prop where
  lt_next : id < l.tasks.next
  apart : ∀ t ∈ l.records, t.id ≠ id

theorem Bystander.mono {l' : Link ρ} {id : Nat} (h : l.Bystander id) (hnext : l.tasks.next ≤ l'.tasks.next)
    (hrec : l'.records = l.records) : l'.Bystander id :=
  ⟨Nat.lt_of_lt_of_le h.lt_next hnext, by rw [hrec]; exact h.apart⟩

/-- The task created next is a bystander as long as it handles no record. -/
theorem bystander_next (h : l.tasks.Ordered) {l' : Link ρ} (hnext : l.tasks.next < l'.tasks.next)
    (hrec : l'.records = l.records) : l'.Bystander l.tasks.next := by
  refine ⟨hnext, fun t ht => ?_⟩
  rw [hrec] at ht
  exact Nat.ne_of_lt (h.lt_next t (Tasks.mem_among.1 ht).1)

/-- An action that wakes only bystanders and does not call the processor. -/
def Action.Avoids (l : Link ρ) : Action ρ → Prop
  | .wake id _ => l.Bystander id
  | .await _ _ (.processed _) => False
  | _ => True

theorem Action.Avoids.mono {l' : Link ρ} {a : Action ρ} (h : a.Avoids l) (hnext : l.tasks.next ≤ l'.tasks.next)
    (hrec : l'.records = l.records) : a.Avoids l' := by
  cases a with
  | wake id turn => exact Bystander.mono h hnext hrec
  | await id turn r =>
    cases r with
    | processed r => exact h
    | _ => trivial
  | _ => trivial

/-- What has been counted of records. -/
def tally (l : Link ρ) : Nat × Nat × Nat := (l.received, l.processed, l.processingErrors)

namespace Turn

variable {t : Turn ρ} {me : Nat}

/-- So far a turn has left the records alone. -/
structure Apart (l : Link ρ) (t : Turn ρ) : Prop where
  ordered : t.link.tasks.Ordered
  next_le : l.tasks.next ≤ t.link.tasks.next
  records : t.link.records = l.records
  handles : ∀ id ∈ t.link.handles, t.link.Bystander id
  actions : ∀ a ∈ t.actions, a.Avoids t.link
  tally : t.link.tally = l.tally

/-! ## Notes and changes -/

theorem Apart.act (h : t.Apart l) {a : Action ρ} (ha : a.Avoids t.link) : (t.act a).Apart l :=
  { h with actions := List.forall_mem_append.2 ⟨h.actions, fun _ hb => List.mem_singleton.1 hb ▸ ha⟩ }

theorem Apart.log (h : t.Apart l) (e : Log.Entry) : (t.log e).Apart l := h.act trivial

theorem Apart.foldl_log {es : List Log.Entry} (h : t.Apart l) : (es.foldl Turn.log t).Apart l := by
  induction es generalizing t with
  | nil => exact h
  | cons e es ih => exact ih (h.log e)

/-- A change of the tasks that spares those of records. -/
theorem Apart.retask (h : t.Apart l) (f : Tasks (Stage ρ) → Tasks (Stage ρ)) (hord : (f t.link.tasks).Ordered)
    (hnext : t.link.tasks.next ≤ (f t.link.tasks).next)
    (hrec : (f t.link.tasks).among Stage.isRecord = t.link.records) :
    (t.change fun l => { l with tasks := f l.tasks }).Apart l where
  ordered := hord
  next_le := Nat.le_trans h.next_le hnext
  records := hrec.trans h.records
  handles id hid := (h.handles id hid).mono hnext hrec
  actions a ha := (h.actions a ha).mono hnext hrec
  tally := h.tally

/-- A change of anything else; the link may come to remember another bystander. -/
theorem Apart.change (h : t.Apart l) (f : Link ρ → Link ρ) (htasks : (f t.link).tasks = t.link.tasks)
    (hhandles : ∀ id ∈ (f t.link).handles, id ∈ t.link.handles ∨ t.link.Bystander id)
    (htally : (f t.link).tally = t.link.tally) : (t.change f).Apart l := by
  have hrec : (f t.link).records = t.link.records := by rw [Link.records, htasks, Link.records]
  have hnext : t.link.tasks.next ≤ (f t.link).tasks.next := Nat.le_of_eq (by rw [htasks])
  refine ⟨?_, Nat.le_trans h.next_le hnext, hrec.trans h.records, fun id hid => ?_, fun a ha => ?_,
    htally.trans h.tally⟩
  · rw [change_link, htasks]
    exact h.ordered
  · exact ((hhandles id hid).elim (h.handles id) fun hb => hb).mono hnext hrec
  · exact (h.actions a ha).mono hnext hrec

/-- A change of what has nothing to do with tasks. -/
theorem Apart.adjust (h : t.Apart l) (f : Link ρ → Link ρ) (htasks : (f t.link).tasks = t.link.tasks)
    (hhandles : (f t.link).handles = t.link.handles) (htally : (f t.link).tally = t.link.tally) :
    (t.change f).Apart l := h.change f htasks (fun _ hid => .inl (hhandles ▸ hid)) htally

theorem Apart.enter (h : t.Apart l) (s : LinkState) : (t.enter s).Apart l := by
  have htell : ∀ (old : LinkState) (ls : List Listener) (u : Turn ρ), u.Apart l →
      (ls.foldl (tell old s) u).Apart l := by
    intro old ls
    induction ls with
    | nil => exact fun _ hu => hu
    | cons listener ls ih =>
      intro u hu
      refine ih _ ?_
      cases listener with
      | direct | deferred | broken reason => exact hu.act trivial
  simp only [Turn.enter]
  split
  · exact h
  · exact htell _ _ _ ((h.adjust (fun l => { l with state := s }) rfl rfl rfl).log _)

/-! ## Tasks -/

theorem Apart.finish (h : t.Apart l) (hme : ∀ u ∈ l.records, u.id ≠ me) (e : Ending) : (t.finish me e).Apart l := by
  rw [← h.records] at hme
  exact (h.retask (·.erase me) (h.ordered.erase me) (Nat.le_refl _) (Tasks.among_erase hme)).act trivial

theorem Apart.park (h : t.Apart l) (hme : ∀ u ∈ l.records, u.id ≠ me) {s : Stage ρ} (hs : s.isRecord = false)
    {r : Request ρ} (hr : ∀ record, r ≠ .processed record) : (t.park me s r).Apart l := by
  rw [← h.records] at hme
  refine (h.retask (·.advance me s) (h.ordered.advance me s) (Nat.le_refl _) (Tasks.among_advance hme hs)).act ?_
  cases r with
  | processed record => exact absurd rfl (hr record)
  | _ => trivial

theorem among_spawn_other (ts : Tasks (Stage ρ)) {s : Stage ρ} (hs : s.isRecord = false) :
    (ts.spawn s).among Stage.isRecord = ts.among Stage.isRecord := by
  rw [Tasks.among_spawn, hs]
  exact List.append_nil _

theorem Apart.spawn (h : t.Apart l) {s : Stage ρ} (hs : s.isRecord = false) : (t.spawn s).Apart l := by
  have hrec := among_spawn_other t.link.tasks hs
  refine (h.retask (·.spawn s) (h.ordered.spawn s) (Nat.le_succ _) hrec).act ?_
  exact bystander_next h.ordered (Nat.lt_succ_self _) hrec

/-- A task is created and remembered. -/
theorem Apart.employ (h : t.Apart l) {s : Stage ρ} (hs : s.isRecord = false) (f : Link ρ → Link ρ)
    (htasks : ∀ l, (f l).tasks = l.tasks)
    (hhandles : ∀ l, ∀ id ∈ (f l).handles, id ∈ l.handles ∨ id = t.link.tasks.next)
    (htally : ∀ l, (f l).tally = l.tally) : ((t.spawn s).change f).Apart l := by
  refine (h.spawn hs).change f (htasks _) (fun id hid => ?_) (htally _)
  obtain hold | rfl := hhandles _ id hid
  · exact .inl hold
  · exact .inr (bystander_next h.ordered (Nat.lt_succ_self _) (among_spawn_other t.link.tasks hs))

theorem Apart.cancelTask (h : t.Apart l) {id : Option Nat} (hid : ∀ i ∈ id, t.link.Bystander i) :
    (t.cancelTask id).Apart l := by
  simp only [Turn.cancelTask]
  split
  · exact h
  · rename_i task hfind
    obtain ⟨i, rfl, hfind⟩ := Option.bind_eq_some_iff.1 hfind
    have hby := hid i rfl
    rw [← Tasks.id_of_find? hfind] at hby
    have hrec : (t.link.tasks.cancel? (some task.id)).among Stage.isRecord = t.link.records :=
      Tasks.among_cancel? fun j hj => Option.some.inj hj ▸ hby.apart
    refine (h.retask (·.cancel task.id) (h.ordered.cancel _) (Nat.le_refl _) hrec).act ?_
    exact hby.mono (Nat.le_refl _) hrec

/-- What is remembered is told to give up and forgotten. -/
theorem Apart.dismiss (h : t.Apart l) {id : Option Nat} (hid : ∀ i ∈ id, i ∈ t.link.handles) (f : Link ρ → Link ρ)
    (htasks : ∀ l, (f l).tasks = l.tasks) (hhandles : ∀ l, ∀ i ∈ (f l).handles, i ∈ l.handles)
    (htally : ∀ l, (f l).tally = l.tally) : ((t.cancelTask id).change f).Apart l :=
  (h.cancelTask fun i hi => h.handles i (hid i hi)).change f (htasks _) (fun i hi => .inl (hhandles _ i hi)) (htally _)

/-! ## Closing and retrying -/

theorem Apart.stopKeeper (h : t.Apart l) : t.stopKeeper.Apart l :=
  h.dismiss (fun _ hi => mem_handles.2 (.inl hi)) _ (fun _ => rfl)
    (fun _ _ hi => mem_handles.2 (.inr ((mem_handles.1 hi).resolve_left nofun))) fun _ => rfl

theorem Apart.stopReader (h : t.Apart l) : (t.stopReader me).Apart l := by
  have hforget : ∀ (l : Link ρ), ∀ i ∈ ({ l with reader := none } : Link ρ).handles, i ∈ l.handles := fun l i hi =>
    mem_handles.2 ((mem_handles.1 hi).imp_right fun hr => .inr (hr.resolve_left nofun))
  simp only [Turn.stopReader]
  split
  · exact h.change _ rfl (fun i hi => .inl (hforget _ i hi)) rfl
  · exact h.dismiss (fun _ hi => mem_handles.2 (.inr (.inl hi))) _ (fun _ => rfl) hforget fun _ => rfl

theorem Apart.stopRetry (h : t.Apart l) : t.stopRetry.Apart l :=
  h.dismiss (fun _ hi => mem_handles.2 (.inr (.inr hi))) _ (fun _ => rfl)
    (fun _ _ hi => mem_handles.2 ((mem_handles.1 hi).imp_right fun hr => .inl (hr.resolve_right nofun))) fun _ => rfl

theorem Apart.dropSubscription (h : t.Apart l) (luck : Luck) : (t.dropSubscription luck).Apart l := by
  have hcancel : ∀ sub, (t.act (.cancel sub)).Apart l := fun _ => h.act trivial
  simp only [Turn.dropSubscription]
  split
  · exact h
  · split
    · exact ((hcancel _).log _).adjust _ rfl rfl rfl
    · exact (hcancel _).adjust _ rfl rfl rfl

theorem Apart.letGo (h : t.Apart l) (luck : Luck) : ((t.stopKeeper.dropSubscription luck).stopReader me).Apart l :=
  (h.stopKeeper.dropSubscription luck).stopReader

theorem Apart.reconnect (h : t.Apart l) (asker : Option Nat) : (t.reconnect asker).Apart l := by
  have harm : ∀ u : Turn ρ, u.Apart l →
      ((u.spawn .toRetry).change fun l => { l with retry := some u.link.tasks.next }).Apart l := by
    intro u hu
    refine hu.employ rfl _ (fun _ => rfl) (fun l' id hid => ?_) fun _ => rfl
    obtain hk | hr | hr := mem_handles.1 hid
    · exact .inl (mem_handles.2 (.inl hk))
    · exact .inl (mem_handles.2 (.inr (.inl hr)))
    · exact .inr (Option.some.inj hr).symm
  simp only [Turn.reconnect]
  split
  · exact (h.log _).enter .disconnected
  · have hcount := h.adjust (fun l => { l with retries := t.link.retries + 1 }) rfl rfl rfl
    split
    · exact harm _ (hcount.log _)
    · refine harm _ (Apart.log (hcount.cancelTask fun i hi => hcount.handles i ?_) _)
      exact mem_handles.2 (.inr (.inr hi))

section
variable (hme : ∀ u ∈ l.records, u.id ≠ me)

include hme

theorem Apart.afterClose (h : t.Apart l) (next : AfterClose) : (t.afterClose me next).Apart l := by
  cases next with
  | abandoned => exact h.finish hme _
  | teardown =>
    simp only [Turn.afterClose]
    split
    · exact (h.enter _).finish hme _
    · exact (h.reconnect _).finish hme _
  | stop =>
    simp only [Turn.afterClose]
    split
    · exact (((h.enter .disconnected).adjust _ rfl rfl rfl).foldl_log).finish hme _
    · exact (h.enter _).finish hme _

theorem Apart.closeClient (h : t.Apart l) (next : AfterClose) : (t.closeClient me next).Apart l := by
  unfold Turn.closeClient
  split
  · exact h.afterClose hme next
  · exact (h.adjust _ rfl rfl rfl).park hme rfl nofun

theorem Apart.tearDown (h : t.Apart l) (luck : Luck) : (t.tearDown me luck).Apart l := by
  unfold Turn.tearDown
  cases t.link.state
  case reconnecting | disconnected => exact h.finish hme _
  case connecting | connected =>
    exact (((h.enter .reconnecting).adjust _ rfl rfl rfl).letGo luck).closeClient hme .teardown

/-! ## Connecting -/

theorem Apart.connectFailed (h : t.Apart l) (luck : Luck) (reason : String) :
    (t.connectFailed me luck reason).Apart l := (h.log _).tearDown hme luck

theorem Apart.connect (h : t.Apart l) (luck : Luck) : (t.connect me luck).Apart l := by
  have hasked : ∀ (u : Turn ρ) n, u.Apart l → ((u.change fun l => { l with clients := n }).act (.create n)).Apart l :=
    fun u n hu => (hu.adjust _ rfl rfl rfl).act trivial
  have hdial := (h.adjust (fun l => { l with stopping := false }) rfl rfl rfl).enter .connecting
  unfold Turn.connect
  cases t.link.state
  case connecting | connected => exact h.finish hme _
  case disconnected | reconnecting =>
    dsimp only
    split
    · exact (hasked _ _ hdial).connectFailed hme luck _
    · exact ((hasked _ _ hdial).adjust _ rfl rfl rfl).park hme rfl nofun

theorem Apart.subscribed (h : t.Apart l) (luck : Luck) (sub : Nat) : (t.subscribed me luck sub).Apart l := by
  have hcancel : (t.act (.cancel sub)).Apart l := h.act trivial
  have hkeep : ∀ u : Turn ρ, u.Apart l →
      ((u.spawn (.toKeep sub)).change fun l => { l with keeper := some u.link.tasks.next }).Apart l := by
    intro u hu
    refine hu.employ rfl _ (fun _ => rfl) (fun l' id hid => ?_) fun _ => rfl
    obtain hk | hr := mem_handles.1 hid
    · exact .inr (Option.some.inj hk).symm
    · exact .inl (mem_handles.2 (.inr hr))
  have hread : ∀ u : Turn ρ, u.Apart l →
      ((u.spawn (.toRead sub)).change fun l => { l with reader := some u.link.tasks.next }).Apart l := by
    intro u hu
    refine hu.employ rfl _ (fun _ => rfl) (fun l' id hid => ?_) fun _ => rfl
    obtain hk | hr | hr := mem_handles.1 hid
    · exact .inl (mem_handles.2 (.inl hk))
    · exact .inr (Option.some.inj hr).symm
    · exact .inl (mem_handles.2 (.inr (.inr hr)))
  simp only [Turn.subscribed]
  split
  · split
    · exact hcancel.finish hme _
    · exact hcancel.closeClient hme .abandoned
  · have hup := (h.adjust (fun l => { l with subscription := some sub }) rfl rfl rfl).enter .connected
    exact ((hread _ (hkeep _ (hup.adjust _ rfl rfl rfl))).log _).finish hme _

/-! ## Calls -/

theorem Apart.start (h : t.Apart l) (now : Nat) (luck : Luck) : (t.start me now luck).Apart l := by
  unfold Turn.start
  split
  · split
    · exact h.connect hme luck
    · exact h.finish hme _
  · exact (((h.adjust _ rfl rfl rfl).foldl_log).adjust _ rfl rfl rfl).connect hme luck

theorem Apart.stop (h : t.Apart l) (luck : Luck) : (t.stop me luck).Apart l :=
  ((h.adjust (fun l => { l with stopping := true }) rfl rfl rfl).stopRetry.letGo luck).closeClient hme .stop

theorem Apart.call (h : t.Apart l) (now : Nat) (luck : Luck) (c : Call) : (t.call me now luck c).Apart l := by
  cases c with
  | start => exact h.start hme now luck
  | stop => exact h.stop hme luck
  | connect => exact h.connect hme luck
  | handleDisconnect => exact h.tearDown hme luck

theorem Apart.readingEnded (h : t.Apart l) (luck : Luck) (e : Log.Entry) : (t.readingEnded me luck e).Apart l := by
  simp only [Turn.readingEnded]
  split
  · exact (h.log e).finish hme _
  · exact (h.log e).tearDown hme luck

/-! ## Going on -/

theorem Apart.keep (h : t.Apart l) (sub : Nat) : (t.keep me sub).Apart l := h.park hme rfl nofun

/-- A task goes on without touching the records, unless it handles one or has just received one. -/
theorem goOn_apart (h : (⟨l, []⟩ : Turn ρ).Apart l) {s : Stage ρ} {o : Outcome ρ} (hs : s.isRecord = false)
    (hread : ∀ sub r, s = .reading sub → o ≠ .record r) (now : Nat) (luck : Luck) :
    (Turn.goOn ⟨l, []⟩ me now luck s o).Apart l := by
  unfold Turn.goOn
  split
  · exact h.call hme now luck _
  · exact h.park hme rfl nofun
  · exact h.connectFailed hme luck _
  · exact (h.adjust _ rfl rfl rfl).park hme rfl nofun
  · exact h.connectFailed hme luck _
  · exact h.subscribed hme luck _
  · exact h.connectFailed hme luck _
  · exact h.afterClose hme _
  · exact (h.log _).afterClose hme _
  · exact h.park hme rfl nofun
  · exact (h.enter _).connect hme luck
  · exact h.park hme rfl nofun
  · exact absurd rfl (hread _ _ rfl)
  · exact h.readingEnded hme luck _
  · exact h.readingEnded hme luck _
  · exact h.keep hme _
  · exact h.park hme rfl nofun
  · exact h.keep hme _
  · exact ((h.adjust _ rfl rfl rfl).log _).keep hme _
  · cases hs
  · cases hs
  · cases hs
  · exact h

end

end Turn

end PoolFeed.Link
