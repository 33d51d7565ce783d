import PoolFeed.Proofs.Changes
import PoolFeed.Proofs.PoolBook.Moves
import PoolFeed.Proofs.Roster

/-!
# What a registry keeps while the shared store fails

| here | there |
| --- | --- |
| `Move` | a call of `PoolRegistry.register`, the end of a `load`, or that of a command in `_write_through` |
| `Shows` | "the in-memory update is immediate", "True if the pool was added or its decimals changed" (`register`) |

Pools are registered and loads end while writes are under way, and the shared store carries out or refuses what it is
asked, each at a time of its own. A move is one of these with whatever answer, and a run is any sequence of moves.
`step_effect` says all that a move can do. `run_keeps_account` says of every run that no pool is dropped, that a registration
shows as soon as it returns, that the last decimals told of a pool count, that a load that fails changes no pool, and
that every registration that says yes is written, has failed or is under way, and adds to the set of tracked pools if
it is the first of its pool.
-/

namespace PoolFeed

/-- The command that a write waits for, and the pool that it is about. -/
def PoolWrite.command (w : PoolWrite) : StoreCommand × String :=
  match w.stage with
  | .tracking => (.sadd, w.address)
  | .scaling => (.hset, w.address)

namespace Registry

/-! ## Moves -/

/-- A load with what the shared store answers; it is asked for the decimals once it has told the pools. -/
def loadWith (r : Registry) (tracked : Except String (List String)) (decimals : Except String (Roster Int)) :
    Nat × Registry × List Log.Entry :=
  if r.shared then
    match tracked, decimals with
    | .error reason, _ => r.loadFailed reason
    | .ok _, .error reason => r.loadFailed reason
    | .ok tracked, .ok decimals => r.load tracked decimals
  else r.loadNothing

/-- What happens to a registry. To wait for the writes under way is no move: the wait ends when their commands have. -/
inductive Move where
  | register (address : String) (decimals : Option Int)
  /-- A load ends; until then it has changed nothing. -/
  | load (tracked : Except String (List String)) (decimals : Except String (Roster Int))
  /-- The command that a write waits for has been carried out, or has failed for a reason. -/
  | answer (ticket : Nat) (failure : Option String)

def step (r : Registry) : Move → Registry
  | .register address decimals => (r.register address decimals).2.1
  | .load tracked decimals => (r.loadWith tracked decimals).2.1
  | .answer ticket none => r.writeDone ticket
  | .answer ticket (some reason) => (r.writeFailed ticket reason).1

def run (r : Registry) (moves : List Move) : Registry := moves.foldl step r

@[simp] theorem run_nil (r : Registry) : r.run [] = r := rfl

@[simp] theorem run_cons (r : Registry) (m : Move) (moves : List Move) : r.run (m :: moves) = (r.step m).run moves := rfl

theorem run_append (r : Registry) (moves later : List Move) : r.run (moves ++ later) = (r.run moves).run later :=
  List.foldl_append

/-- What there is to tell of some moves. -/
structure News where
  /-- The base decimals that take effect. -/
  told : List (String × Int) := []
  /-- The registrations that say yes, and whether their pool is new. -/
  granted : List (String × Bool) := []
  /-- The commands that have been carried out or have failed. -/
  ended : List (StoreCommand × String) := []

def News.append (n n' : News) : News := ⟨n.told ++ n'.told, n.granted ++ n'.granted, n.ended ++ n'.ended⟩

def Move.news (r : Registry) : Move → News
  | .register address decimals =>
    if (r.register address decimals).1 then
      { told := [(address, decimals.getD r.defaultBase)], granted := [(address, !r.isTracked address)] }
    else {}
  | .load (.ok tracked) (.ok decimals) =>
    if r.shared then { told := tracked.map fun address => (address, (decimals.get? address).getD r.defaultBase) }
    else {}
  | .load .. => {}
  | .answer ticket _ => { ended := (r.write? ticket).toList.map PoolWrite.command }

def news (r : Registry) : List Move → News
  | [] => {}
  | m :: moves => (m.news r).append (news (r.step m) moves)

/-- The pools that commands add to the set of tracked pools. -/
def sadds (commands : List (StoreCommand × String)) : List String := (commands.filter (·.1 = .sadd)).map (·.2)

/-- The pools that are new. -/
def firsts (granted : List (String × Bool)) : List String := (granted.filter (·.2)).map (·.1)

theorem sadds_append (commands later : List (StoreCommand × String)) :
    sadds (commands ++ later) = sadds commands ++ sadds later := by
  rw [sadds, List.filter_append, List.map_append, sadds, sadds]

theorem firsts_append (granted later : List (String × Bool)) :
    firsts (granted ++ later) = firsts granted ++ firsts later := by
  rw [firsts, List.filter_append, List.map_append, firsts, firsts]

/-! ## What a move does -/

/-- What a move comes to: the news of it and the registry after it. -/
inductive Effect (r : Registry) : News → Registry → Prop
  | unchanged : Effect r {} r
  | loadEnded : Effect r {} { r with loaded := true }
  | loaded (tracked : List String) (decimals : Roster Int) :
      Effect r { told := tracked.map fun address => (address, (decimals.get? address).getD r.defaultBase) }
        (r.load tracked decimals).2.1
  | registered (address : String) (decimals : Int)
      (change : (r.pools.get? address).map Scale.base ≠ some decimals) :
      Effect r { told := [(address, decimals)], granted := [(address, !r.isTracked address)] }
        { r with
          pools := r.pools.put address ⟨decimals, r.quote⟩
          writes := r.writes ++
            if r.shared then
              [⟨r.nextTicket, address, decimals, if !r.isTracked address then .tracking else .scaling⟩]
            else []
          nextTicket := r.nextTicket + if r.shared then 1 else 0 }
  | tracked (w : PoolWrite) (before after : List PoolWrite) (split : r.writes = before ++ w :: after)
      (stage : w.stage = .tracking) :
      Effect r { ended := [w.command] } { r with writes := before ++ { w with stage := .scaling } :: after }
  | scaled (w : PoolWrite) (before after : List PoolWrite) (split : r.writes = before ++ w :: after)
      (stage : w.stage = .scaling) :
      Effect r { ended := [w.command] } { r with writes := before ++ after, written := r.written + 1 }
  | failed (w : PoolWrite) (before after : List PoolWrite) (split : r.writes = before ++ w :: after) :
      Effect r { ended := [w.command] } { r with writes := before ++ after, failed := r.failed + 1 }

section

variable {r : Registry}

theorem not_isTracked (r : Registry) (address : String) : (!r.isTracked address) = (r.pools.get? address).isNone := by
  rw [isTracked, Roster.has, Option.not_isSome]

theorem startWrite_eq (r : Registry) (address : String) (decimals : Int) (isNew : Bool) :
    r.startWrite address decimals isNew = { r with
      writes := r.writes ++
        if r.shared then [⟨r.nextTicket, address, decimals, if isNew then .tracking else .scaling⟩] else []
      nextTicket := r.nextTicket + if r.shared then 1 else 0 } := by
  obtain ⟨base, quote, shared, pools, loaded, writes, nextTicket, written, failed⟩ := r
  cases shared <;> simp [startWrite]

theorem register_effect (r : Registry) (address : String) (decimals : Option Int) :
    Effect r ((Move.register address decimals).news r) (r.step (.register address decimals)) := by
  simp only [Move.news, step, register, not_isTracked]
  split
  · exact .unchanged
  · rename_i change
    rw [startWrite_eq, ← not_isTracked]
    exact .registered address _ change

theorem load_effect (r : Registry) (tracked : Except String (List String)) (decimals : Except String (Roster Int)) :
    Effect r ((Move.load tracked decimals).news r) (r.step (.load tracked decimals)) := by
  simp only [step, loadWith]
  by_cases hshared : r.shared = true
  · rw [if_pos hshared]
    cases tracked with
    | error reason => exact .loadEnded
    | ok tracked =>
      cases decimals with
      | error reason => exact .loadEnded
      | ok decimals =>
        simp only [Move.news, if_pos hshared]
        exact .loaded tracked decimals
  · rw [if_neg hshared]
    have hnews : (Move.load tracked decimals).news r = {} := by
      cases tracked <;> cases decimals <;> simp [Move.news, hshared]
    rw [hnews]
    exact .loadEnded

theorem answer_effect (hr : r.Ticketed) (ticket : Nat) (failure : Option String) :
    Effect r ((Move.answer ticket failure).news r) (r.step (.answer ticket failure)) := by
  cases hw : r.write? ticket with
  | none =>
    have hstep : r.step (.answer ticket failure) = r := by cases failure <;> simp [step, writeDone, writeFailed, hw]
    rw [hstep]
    simp only [Move.news, hw]
    exact .unchanged
  | some w =>
    simp only [Move.news, hw, Option.toList_some, List.map_cons, List.map_nil]
    cases failure with
    | some reason =>
      obtain ⟨before, after, hsplit, hfailed⟩ := hr.writeFailed hw reason
      rw [step, hfailed]
      exact .failed w before after hsplit
    | none =>
      cases hs : w.stage with
      | tracking =>
        obtain ⟨before, after, hsplit, hdone⟩ := hr.writeDone_tracking hw hs
        rw [step, hdone]
        exact .tracked w before after hsplit hs
      | scaling =>
        obtain ⟨before, after, hsplit, hdone⟩ := hr.writeDone_scaling hw hs
        rw [step, hdone]
        exact .scaled w before after hsplit hs

/-- Every move has one of the effects. -/
theorem step_effect (hr : r.Ticketed) : ∀ m : Move, Effect r (m.news r) (r.step m)
  | .register address decimals => register_effect r address decimals
  | .load tracked decimals => load_effect r tracked decimals
  | .answer ticket failure => answer_effect hr ticket failure

end

/-! ## What an effect keeps -/

section

variable {r r' : Registry} {n : News}

theorem Effect.terms (h : Effect r n r') :
    r'.defaultBase = r.defaultBase ∧ r'.quote = r.quote ∧ r'.shared = r.shared := by
  cases h <;> exact ⟨rfl, rfl, rfl⟩

theorem Effect.ticketed (h : Effect r n r') (hr : r.Ticketed) : r'.Ticketed := by
  cases h with
  | unchanged | loadEnded | loaded => exact ⟨hr.nodup, hr.below⟩
  | registered address decimals change =>
    by_cases hshared : r.shared = true
    · exact hr.append rfl (by simp [hshared]) (by simp only [hshared, if_true]; rfl)
    · exact hr.of_sublist (by simp [hshared]) (by simp [hshared])
  | tracked w before after split stage => exact hr.of_sublist rfl (by simp [split])
  | scaled w before after split stage => exact hr.of_sublist rfl (by simp [split])
  | failed w before after split => exact hr.of_sublist rfl (by simp [split])

/-- The registry answers what it is told last. -/
theorem Effect.get? (h : Effect r n r') (address : String) :
    r'.pools.get? address =
      latest (n.told.map fun x => (x.1, Scale.mk x.2 r.quote)) address (r.pools.get? address) := by
  cases h with
  | unchanged | loadEnded | tracked | scaled | failed => rfl
  | loaded tracked decimals =>
    rw [load_get?, List.map_map]
    exact (latest_map_self (fun address => Scale.mk ((decimals.get? address).getD r.defaultBase) r.quote) tracked _).symm
  | registered other decimals change =>
    simp only [Roster.get?_put, latest, List.map_cons, List.map_nil, List.foldl_cons, List.foldl_nil]
    by_cases he : other = address
    · simp [he]
    · simp [he, Ne.symm he]

theorem Effect.keeps (h : Effect r n r') {address : String} (ht : r.isTracked address = true) :
    r'.isTracked address = true := by
  rw [isTracked, Roster.has] at ht ⊢
  rw [h.get?, latest_eq_or, Option.isSome_or, ht, Bool.or_true]

/-- A registration that says yes starts a write, and a write that is over is counted. -/
theorem Effect.account (h : Effect r n r') :
    r'.written + r'.failed + r'.writes.length =
      r.written + r.failed + r.writes.length + if r.shared then n.granted.length else 0 := by
  cases h with
  | unchanged | loadEnded | loaded => simp [load]
  | registered address decimals change =>
    rw [List.length_append]
    split <;> simp [Nat.add_assoc]
  | tracked w before after split stage => simp [split]
  | scaled w before after split stage | failed w before after split =>
    simp only [split, List.length_append, List.length_cons, List.length_nil, ite_self]
    omega

theorem sadds_perm {commands commands' : List (StoreCommand × String)} (h : commands.Perm commands') :
    (sadds commands).Perm (sadds commands') := (h.filter _).map _

/-- The command that has ended and those that are waited for, where the write is over. -/
theorem command_perm {w : PoolWrite} {before after : List PoolWrite} (split : r.writes = before ++ w :: after) :
    ([w.command] ++ (before ++ after).map PoolWrite.command).Perm (r.writes.map PoolWrite.command) := by
  rw [split]
  exact (List.perm_middle.map PoolWrite.command).symm

/-- A pool is added to the set of tracked pools for its first registration. -/
theorem Effect.sadds (h : Effect r n r') :
    (sadds (n.ended ++ r'.writes.map PoolWrite.command)).Perm
      (sadds (r.writes.map PoolWrite.command) ++ if r.shared then firsts n.granted else []) := by
  cases h with
  | unchanged | loadEnded | loaded => simp [load, firsts]
  | registered address decimals change =>
    refine List.Perm.of_eq ?_
    rw [List.nil_append, List.map_append, sadds_append]
    congr 1
    cases r.shared <;> cases r.isTracked address <;> rfl
  | tracked w before after split stage =>
    have hdone : Registry.sadds (({ w with stage := .scaling } :: after).map PoolWrite.command) =
        Registry.sadds (after.map PoolWrite.command) := rfl
    rw [firsts, List.filter_nil, List.map_nil, ite_self, List.append_nil]
    refine (List.Perm.of_eq ?_).trans (sadds_perm (command_perm split))
    rw [sadds_append, List.map_append, sadds_append, hdone, ← sadds_append, ← List.map_append, ← sadds_append]
  | scaled w before after split stage | failed w before after split =>
    rw [firsts, List.filter_nil, List.map_nil, ite_self, List.append_nil]
    exact sadds_perm (command_perm split)

theorem Effect.firsts_nodup (h : Effect r n r') : (firsts n.granted).Nodup := by
  cases h with
  | registered address decimals change => cases hn : r.isTracked address <;> simp [firsts]
  | unchanged | loadEnded | loaded | tracked | scaled | failed => exact List.nodup_nil

/-- A pool is not tracked before its first registration, and tracked after it. -/
theorem Effect.of_mem_firsts (h : Effect r n r') {address : String} (hf : address ∈ firsts n.granted) :
    r.isTracked address = false ∧ r'.isTracked address = true := by
  cases h with
  | registered other decimals change =>
    cases hn : r.isTracked other with
    | true => simp [firsts, hn] at hf
    | false =>
      obtain rfl : address = other := by simpa [firsts, hn] using hf
      exact ⟨hn, by simp [isTracked, Roster.has]⟩
  | unchanged | loadEnded | loaded | tracked | scaled | failed => cases hf

end

/-! ## What a run keeps -/

section

variable {r : Registry}

theorem step_ticketed (hr : r.Ticketed) (m : Move) : (r.step m).Ticketed := (step_effect hr m).ticketed hr

theorem run_ticketed : ∀ {r : Registry} (moves : List Move), r.Ticketed → (r.run moves).Ticketed
  | _, [], hr => hr
  | _, m :: moves, hr => run_ticketed moves (step_ticketed hr m)

theorem run_terms : ∀ {r : Registry} (moves : List Move), r.Ticketed →
    (r.run moves).defaultBase = r.defaultBase ∧ (r.run moves).quote = r.quote ∧ (r.run moves).shared = r.shared
  | _, [], _ => ⟨rfl, rfl, rfl⟩
  | r, m :: moves, hr => by
    obtain ⟨hbase, hquote, hshared⟩ := (step_effect hr m).terms
    obtain ⟨hbase', hquote', hshared'⟩ := run_terms moves (step_ticketed hr m)
    exact ⟨hbase'.trans hbase, hquote'.trans hquote, hshared'.trans hshared⟩

theorem run_get? (address : String) : ∀ {r : Registry} (moves : List Move), r.Ticketed →
    (r.run moves).pools.get? address =
      latest ((r.news moves).told.map fun x => (x.1, Scale.mk x.2 r.quote)) address (r.pools.get? address)
  | _, [], _ => rfl
  | r, m :: moves, hr => by
    have first := step_effect hr m
    rw [run_cons, run_get? address moves (step_ticketed hr m), first.get?, first.terms.2.1, news, News.append,
      List.map_append, latest_append]

theorem run_keeps {address : String} : ∀ {r : Registry} (moves : List Move), r.Ticketed → r.isTracked address = true →
    (r.run moves).isTracked address = true
  | _, [], _, ht => ht
  | _, m :: moves, hr, ht => run_keeps moves (step_ticketed hr m) ((step_effect hr m).keeps ht)

theorem run_account : ∀ {r : Registry} (moves : List Move), r.Ticketed →
    (r.run moves).written + (r.run moves).failed + (r.run moves).writes.length =
      r.written + r.failed + r.writes.length + if r.shared then (r.news moves).granted.length else 0
  | r, [], _ => by simp [news]
  | r, m :: moves, hr => by
    have first := step_effect hr m
    rw [run_cons, run_account moves (step_ticketed hr m), first.account, first.terms.2.2, news, News.append,
      List.length_append, Nat.add_assoc]
    split <;> rfl

theorem run_sadds : ∀ {r : Registry} (moves : List Move), r.Ticketed →
    (sadds ((r.news moves).ended ++ (r.run moves).writes.map PoolWrite.command)).Perm
      (sadds (r.writes.map PoolWrite.command) ++ if r.shared then firsts (r.news moves).granted else [])
  | r, [], _ => by simp [news, firsts]
  | r, m :: moves, hr => by
    have first := step_effect hr m
    have later := run_sadds moves (step_ticketed hr m)
    have now := first.sadds
    rw [first.terms.2.2] at later
    rw [sadds_append] at now
    rw [run_cons, news, News.append, List.append_assoc, sadds_append]
    refine (later.append_left _).trans ?_
    rw [← List.append_assoc, firsts_append]
    refine (now.append_right _).trans (List.Perm.of_eq ?_)
    rw [List.append_assoc]
    split <;> rfl

/-- No pool has two first registrations, and one that is tracked has none. -/
theorem run_firsts : ∀ {r : Registry} (moves : List Move), r.Ticketed →
    (firsts (r.news moves).granted).Nodup ∧ ∀ address ∈ firsts (r.news moves).granted, r.isTracked address = false
  | _, [], _ => ⟨List.nodup_nil, nofun⟩
  | r, m :: moves, hr => by
    have first := step_effect hr m
    obtain ⟨hnodup, hlater⟩ := run_firsts moves (step_ticketed hr m)
    rw [news, News.append, firsts_append]
    refine ⟨List.nodup_append'.2 ⟨first.firsts_nodup, hnodup, fun address h h' => ?_⟩, fun address h => ?_⟩
    · simpa [hlater address h'] using (first.of_mem_firsts h).2
    · obtain h | h := List.mem_append.1 h
      · exact (first.of_mem_firsts h).1
      · cases ht : r.isTracked address with
        | false => rfl
        | true => exact absurd (first.keeps ht) (by simp [hlater address h])

end

/-! ## Stores -/

/-- To fill a registry from a store is to load what the store answers. -/
theorem load_eq_loadWith (r : Registry) (s : SharedStore) : ∃ tracked decimals,
    (PoolBook.load ⟨r, s⟩).1 = (r.loadWith tracked decimals).1 ∧
    (PoolBook.load ⟨r, s⟩).2.1.registry = r.step (.load tracked decimals) := by
  refine ⟨s.allTracked.mapError StoreRefusal.message, (s.allDecimals.map Prod.fst).mapError StoreRefusal.message, ?_⟩
  simp only [PoolBook.load, step, loadWith]
  by_cases hshared : r.shared = true
  · simp only [if_pos hshared, SharedStore.warm]
    cases s.allTracked with
    | error e => exact ⟨rfl, rfl⟩
    | ok tracked => cases s.allDecimals <;> exact ⟨rfl, rfl⟩
  · simp only [if_neg hshared]
    exact ⟨trivial, trivial⟩

/-- The ends of some commands, each with the ticket of its write. -/
def answers (ends : List (Nat × Option String)) : List Move := ends.map fun x => .answer x.1 x.2

theorem writeOne_eq_run (r : Registry) (s : SharedStore) (w : PoolWrite) :
    ∃ ends, (s.writeOne r w).2.1 = r.run (answers ends) := by
  rw [SharedStore.writeOne]
  cases s.command w with
  | error e => exact ⟨[(w.ticket, some e.message)], rfl⟩
  | ok s =>
    cases w.stage with
    | scaling => exact ⟨[(w.ticket, none)], rfl⟩
    | tracking =>
      dsimp only
      cases s.command { w with stage := .scaling } with
      | error e => exact ⟨[(w.ticket, none), (w.ticket, some e.message)], rfl⟩
      | ok s => exact ⟨[(w.ticket, none), (w.ticket, none)], rfl⟩

theorem writeAll_eq_run (writes : List PoolWrite) (r : Registry) (s : SharedStore) (log : List Log.Entry) :
    ∃ ends, (writes.foldl (fun (s, r, log) w =>
      let (s, r, more) := s.writeOne r w
      (s, r, log ++ more)) (s, r, log)).2.1 = r.run (answers ends) := by
  induction writes generalizing r s log with
  | nil => exact ⟨[], rfl⟩
  | cons w writes ih =>
    obtain ⟨ends, hw⟩ := writeOne_eq_run r s w
    obtain ⟨later, hlater⟩ := ih (s.writeOne r w).2.1 (s.writeOne r w).1 (log ++ (s.writeOne r w).2.2)
    refine ⟨ends ++ later, hlater.trans ?_⟩
    rw [hw, answers, answers, answers, List.map_append, run_append]

/-- To wait for the writes under way is to have their commands answered. -/
theorem settle_eq_run (r : Registry) (s : SharedStore) :
    ∃ ends, (PoolBook.settle ⟨r, s⟩).1.registry = r.run (answers ends) := by
  simp only [PoolBook.settle, SharedStore.settle]
  cases s.held
  · exact writeAll_eq_run r.writes r s []
  · exact ⟨[], rfl⟩

/-! ## The law -/

/-- A registry that has no pools yet. -/
def fresh (base quote : Int) (shared : Bool) : Registry := { defaultBase := base, quote := quote, shared := shared }

theorem ticketed_fresh (base quote : Int) (shared : Bool) : (fresh base quote shared).Ticketed :=
  ⟨List.nodup_nil, nofun⟩

/-- What a registration says, and what the registry answers as soon as it has said so. -/
structure Shows (r : Registry) (address : String) (decimals : Int) (yes : Bool) (r' : Registry) : Prop where
  yes_iff : yes = true ↔ r.isTracked address = false ∨ (r.decimalsOf address).base ≠ decimals
  isTracked : r'.isTracked address = true
  get? : r'.pools.get? address = some ⟨decimals, r.quote⟩
  decimalsOf : r'.decimalsOf address = ⟨decimals, r.quote⟩
  size : r'.size = r.size + if r.isTracked address then 0 else 1
  others : ∀ other, other ≠ address → r'.pools.get? other = r.pools.get? other
  /-- No command has ended since. -/
  unwritten : r'.written = r.written ∧ r'.failed = r.failed ∧ r.writes <+: r'.writes

/-- A pool is tracked with the quote decimals of the registry. -/
theorem get?_run_fresh (base quote : Int) (shared : Bool) (moves : List Move) (address : String) :
    ((fresh base quote shared).run moves).pools.get? address =
      (latest ((fresh base quote shared).news moves).told address none).map fun decimals => ⟨decimals, quote⟩ := by
  rw [run_get? address moves (ticketed_fresh base quote shared)]
  exact latest_map (fun decimals => Scale.mk decimals quote) _ none

theorem quote_run_fresh (base quote : Int) (shared : Bool) (moves : List Move) (address : String) (scale : Scale)
    (h : ((fresh base quote shared).run moves).pools.get? address = some scale) :
    scale.quote = ((fresh base quote shared).run moves).quote := by
  rw [get?_run_fresh, Option.map_eq_some_iff] at h
  obtain ⟨decimals, -, rfl⟩ := h
  exact (run_terms moves (ticketed_fresh base quote shared)).2.1.symm

/-- A registration says no to a pool that has its decimals. -/
theorem known_iff {r : Registry} {address : String} {decimals : Int} :
    (r.pools.get? address).map Scale.base = some decimals ↔
      r.isTracked address = true ∧ (r.decimalsOf address).base = decimals := by
  rw [isTracked, Roster.has, decimalsOf]
  cases r.pools.get? address <;> simp

theorem register_shows {r : Registry} {address : String}
    (hquote : ∀ scale, r.pools.get? address = some scale → scale.quote = r.quote) (decimals : Option Int) :
    Shows r address (decimals.getD r.defaultBase) (r.register address decimals).1 (r.register address decimals).2.1 := by
  rw [register]
  generalize decimals.getD r.defaultBase = decimals
  by_cases hsame : (r.pools.get? address).map Scale.base = some decimals
  · obtain ⟨hin, hbase⟩ := known_iff.1 hsame
    obtain ⟨scale, hold, rfl⟩ := Option.map_eq_some_iff.1 hsame
    have hscale : r.pools.get? address = some ⟨scale.base, r.quote⟩ := by rw [← hquote scale hold, hold]
    rw [if_pos hsame]
    exact {
      yes_iff := by simp [hin, hbase]
      isTracked := hin
      get? := hscale
      decimalsOf := by rw [decimalsOf, hscale, Option.getD_some]
      size := by rw [if_pos hin, Nat.add_zero]
      others := fun _ _ => rfl
      unwritten := ⟨rfl, rfl, List.prefix_rfl⟩ }
  · have hchange := hsame
    rw [known_iff, not_and_or, Bool.not_eq_true] at hchange
    dsimp only
    rw [if_neg hsame, startWrite_eq]
    exact {
      yes_iff := iff_of_true rfl hchange
      isTracked := by simp [isTracked, Roster.has]
      get? := Roster.get?_put_self _ _ _
      decimalsOf := by rw [decimalsOf, Roster.get?_put_self, Option.getD_some]
      size := Roster.length_put _
      others := fun other h => Roster.get?_put_of_ne h _ _
      unwritten := ⟨rfl, rfl, List.prefix_append _ _⟩ }

/-- What holds of a registry after some moves. -/
structure Lawful (base quote : Int) (shared : Bool) (n : News) (r : Registry) : Prop where
  /-- No pool is dropped. -/
  keeps : ∀ address later, r.isTracked address = true → (r.run later).isTracked address = true
  /-- A registration shows at once. -/
  shows : ∀ address decimals, Shows r address (decimals.getD base) (r.register address decimals).1
    (r.register address decimals).2.1
  /-- The pools are those that were told of, and the last decimals told count. -/
  tracked : ∀ address, r.isTracked address = true ↔ address ∈ n.told.map Prod.fst
  decimalsOf : ∀ address, r.decimalsOf address = ⟨(latest n.told address none).getD base, quote⟩
  /-- A load that fails, at once or half way, changes nothing but that there was one. -/
  failsFirst : ∀ reason decimals, (r.loadWith (.error reason) decimals).1 = 0 ∧
    (r.loadWith (.error reason) decimals).2.1 = { r with loaded := true }
  failsHalfway : ∀ tracked reason, (r.loadWith (.ok tracked) (.error reason)).1 = 0 ∧
    (r.loadWith (.ok tracked) (.error reason)).2.1 = { r with loaded := true }
  /-- Where there is a shared store, every registration that said yes is written, has failed or is under way. -/
  account : r.written + r.failed + r.writes.length = if shared then n.granted.length else 0
  /-- Of all the commands given, ended or waited for, those that add to the set of tracked pools are one for the first
  registration of each pool. -/
  sadds : (sadds (n.ended ++ r.writes.map PoolWrite.command)).Perm (if shared then firsts n.granted else [])
  firsts : (firsts n.granted).Nodup
  /-- To fill the registry from a store and to wait for the writes under way are such moves. -/
  fills : ∀ s : SharedStore, ∃ tracked decimals, (PoolBook.load ⟨r, s⟩).1 = (r.loadWith tracked decimals).1 ∧
    (PoolBook.load ⟨r, s⟩).2.1.registry = r.step (.load tracked decimals)
  waits : ∀ s : SharedStore, ∃ ends, (PoolBook.settle ⟨r, s⟩).1.registry = r.run (answers ends)

/-- **A registry keeps its pools and its account whatever becomes of its writes.** -/
theorem run_keeps_account (base quote : Int) (shared : Bool) (moves : List Move) :
    Lawful base quote shared ((fresh base quote shared).news moves) ((fresh base quote shared).run moves) := by
  have ticketed := ticketed_fresh base quote shared
  have get? := get?_run_fresh base quote shared moves
  obtain ⟨hbase, hquote, -⟩ := run_terms moves ticketed
  exact {
    keeps := fun address later h => run_keeps later (run_ticketed moves ticketed) h
    shows := fun address decimals => by
      have h := register_shows (quote_run_fresh base quote shared moves address) decimals
      rwa [hbase] at h
    tracked := fun address => by
      rw [isTracked, Roster.has, get?, Option.isSome_map, isSome_latest_iff]
      simp
    decimalsOf := fun address => by
      rw [Registry.decimalsOf, get?, hbase, hquote]
      cases latest ((fresh base quote shared).news moves).told address none <;> rfl
    failsFirst := fun reason decimals => by
      rw [loadWith]
      split <;> exact ⟨rfl, rfl⟩
    failsHalfway := fun tracked reason => by
      rw [loadWith]
      split <;> exact ⟨rfl, rfl⟩
    account := (run_account moves ticketed).trans (Nat.zero_add _)
    sadds := run_sadds moves ticketed
    firsts := (run_firsts moves ticketed).1
    fills := load_eq_loadWith _
    waits := settle_eq_run _ }

/-- A correction is refused before the write that it corrects is over, and a load fails half way. -/
example :
    let r := (fresh 6 9 true).run [.register "A" none, .answer 0 none, .register "A" (some 9),
      .answer 1 (some "hset refused"), .load (.ok ["A", "B"]) (.error "hgetall refused"), .answer 0 none]
    r.decimalsOf "A" = ⟨9, 9⟩ ∧ r.isTracked "B" = false ∧ r.written = 1 ∧ r.failed = 1 ∧ r.writes = [] := by
  decide +kernel

end Registry

end PoolFeed
