import PoolFeed.Proofs.Registry
import PoolFeed.SharedStore
import Mathlib.Data.List.Nodup

/-!
# The moves of a pool book

| here | there |
| --- | --- |
| `Move` | a call of `PoolRegistry.register`, or the next command of a `_write_through` |
| `Willing` | a server behind `RedisPoolMirror` that refuses nothing |

While pools are registered, the writes that earlier registrations have started are carried out command by command,
each at a time of its own. A move is a registration or the next command of one write, and a run is any sequence of
moves. `step_cases` says all that a move can do where the store refuses no command, and `Sound` is what holds
between the moves: every pool is known to the store or has a write under way that will make it known.
-/

namespace PoolFeed

namespace SharedStore

/-- The store refuses none of the commands by which a registry is written to it and filled from it. -/
structure Willing (s : SharedStore) : Prop where
  sadd : s.refusal? .sadd = none
  hset : s.refusal? .hset = none
  smembers : s.refusal? .smembers = none
  hgetall : s.refusal? .hgetall = none

variable {s : SharedStore}

theorem track_willing (h : s.Willing) (address : String) :
    s.track address = .ok (if s.tracked.contains address then s else { s with tracked := s.tracked ++ [address] }) := by
  simp only [track, permit, h.sadd]
  rfl

theorem setDecimals_willing (h : s.Willing) (address : String) (decimals : Int) :
    s.setDecimals address decimals = .ok { s with decimals := s.decimals.put address (toString decimals) } := by
  simp only [setDecimals, permit, h.hset]
  rfl

end SharedStore

namespace Registry

variable {r : Registry} {ticket : Nat} {w : PoolWrite}

theorem ticket_of_write? (h : r.write? ticket = some w) : w.ticket = ticket := by
  simpa using List.find?_some h

/-- A write that has told the membership goes on to the decimals. -/
theorem write?_writeDone (h : r.write? ticket = some w) (hs : w.stage = .tracking) :
    (r.writeDone ticket).write? ticket = some { w with stage := .scaling } := by
  have keeps : ((· == ticket) ∘ PoolWrite.ticket) ∘
      (fun w : PoolWrite => if w.ticket = ticket then { w with stage := .scaling } else w) =
      (· == ticket) ∘ PoolWrite.ticket := by
    funext w
    by_cases hw : w.ticket = ticket <;> simp [hw]
  have hfind : r.writes.find? ((· == ticket) ∘ PoolWrite.ticket) = some w := h
  simp only [writeDone, h, hs]
  show (r.writes.map _).find? ((· == ticket) ∘ PoolWrite.ticket) = _
  rw [List.find?_map, keeps, hfind, Option.map_some, if_pos (ticket_of_write? h)]

/-! ## Tickets -/

/-- No two writes have the same ticket, and the next ticket is a new one. -/
structure Ticketed (r : Registry) : Prop where
  nodup : (r.writes.map (·.ticket)).Nodup
  below : ∀ n ∈ r.writes.map (·.ticket), n < r.nextTicket

/-- A write that is over, or goes on, mixes up no tickets. -/
theorem Ticketed.of_sublist {r' : Registry} (hr : r.Ticketed) (hnext : r'.nextTicket = r.nextTicket)
    (h : (r'.writes.map (·.ticket)).Sublist (r.writes.map (·.ticket))) : r'.Ticketed where
  nodup := h.nodup hr.nodup
  below n hn := hnext ▸ hr.below n (h.subset hn)

/-- A new write has a new ticket. -/
theorem Ticketed.append {r' : Registry} (hr : r.Ticketed) (hw : w.ticket = r.nextTicket)
    (hnext : r'.nextTicket = r.nextTicket + 1) (h : r'.writes = r.writes ++ [w]) : r'.Ticketed where
  nodup := by
    rw [h, List.map_append, List.map_singleton, ← List.concat_eq_append, List.nodup_concat, hw]
    exact ⟨fun hm => Nat.lt_irrefl _ (hr.below _ hm), hr.nodup⟩
  below n hn := by
    rw [h, List.map_append, List.mem_append, List.map_singleton, List.mem_singleton] at hn
    rw [hnext]
    obtain hn | rfl := hn
    · exact Nat.lt_succ_of_lt (hr.below n hn)
    · rw [hw]
      exact Nat.lt_succ_self _

/-- The write with a ticket, between the others. -/
theorem Ticketed.split (hr : r.Ticketed) (h : r.write? ticket = some w) : ∃ before after,
    r.writes = before ++ w :: after ∧ ∀ w' ∈ before ++ after, w'.ticket ≠ ticket := by
  obtain ⟨-, before, after, hsplit, -⟩ := List.find?_eq_some_iff_append.1 h
  have hnodup := hr.nodup
  rw [hsplit, List.map_append, List.map_cons, List.nodup_middle, List.nodup_cons, ← List.map_append,
    ticket_of_write? h] at hnodup
  exact ⟨before, after, hsplit, fun w' hw' he => hnodup.1 (he ▸ List.mem_map_of_mem hw')⟩

theorem map_of_forall_ne {l : List PoolWrite} (h : ∀ w ∈ l, w.ticket ≠ ticket) :
    (l.map fun w => if w.ticket = ticket then { w with stage := .scaling } else w) = l :=
  (List.map_congr_left fun w hw => if_neg (h w hw)).trans l.map_id

theorem filter_of_forall_ne {l : List PoolWrite} (h : ∀ w ∈ l, w.ticket ≠ ticket) :
    l.filter (·.ticket != ticket) = l :=
  List.filter_eq_self.2 fun w hw => by simpa using h w hw

/-- After the membership the write stays under way, in its place. -/
theorem Ticketed.writeDone_tracking (hr : r.Ticketed) (h : r.write? ticket = some w) (hs : w.stage = .tracking) :
    ∃ before after, r.writes = before ++ w :: after ∧
      r.writeDone ticket = { r with writes := before ++ { w with stage := .scaling } :: after } := by
  obtain ⟨before, after, hsplit, hne⟩ := hr.split h
  obtain ⟨hbefore, hafter⟩ := List.forall_mem_append.1 hne
  refine ⟨before, after, hsplit, ?_⟩
  simp only [writeDone, h, hs]
  rw [hsplit, List.map_append, List.map_cons, map_of_forall_ne hbefore, map_of_forall_ne hafter,
    if_pos (ticket_of_write? h)]

/-- A write that is over is gone, and the others are not. -/
theorem Ticketed.dropWrite (hr : r.Ticketed) (h : r.write? ticket = some w) :
    ∃ before after, r.writes = before ++ w :: after ∧
      r.dropWrite ticket = { r with writes := before ++ after } := by
  obtain ⟨before, after, hsplit, hne⟩ := hr.split h
  obtain ⟨hbefore, hafter⟩ := List.forall_mem_append.1 hne
  refine ⟨before, after, hsplit, ?_⟩
  rw [Registry.dropWrite, hsplit, List.filter_append, List.filter_cons_of_neg (by simp [ticket_of_write? h]),
    filter_of_forall_ne hbefore, filter_of_forall_ne hafter]

/-- After the decimals the write is over. -/
theorem Ticketed.writeDone_scaling (hr : r.Ticketed) (h : r.write? ticket = some w) (hs : w.stage = .scaling) :
    ∃ before after, r.writes = before ++ w :: after ∧
      r.writeDone ticket = { r with writes := before ++ after, written := r.written + 1 } := by
  obtain ⟨before, after, hsplit, hdrop⟩ := hr.dropWrite h
  refine ⟨before, after, hsplit, ?_⟩
  simp only [writeDone, h, hs, hdrop]

/-- A write that fails is over. -/
theorem Ticketed.writeFailed (hr : r.Ticketed) (h : r.write? ticket = some w) (reason : String) :
    ∃ before after, r.writes = before ++ w :: after ∧
      (r.writeFailed ticket reason).1 = { r with writes := before ++ after, failed := r.failed + 1 } := by
  obtain ⟨before, after, hsplit, hdrop⟩ := hr.dropWrite h
  refine ⟨before, after, hsplit, ?_⟩
  simp only [Registry.writeFailed, h, hdrop]

end Registry

namespace PoolBook

/-- A pool is registered, or the store carries out the next command of a write. -/
inductive Move where
  | register (address : String) (decimals : Option Int)
  | command (ticket : Nat)
  deriving DecidableEq

def step (b : PoolBook) : Move → PoolBook
  | .register address decimals => (b.register address decimals).2.1
  | .command ticket =>
    match b.registry.write? ticket with
    | none => b
    | some w => match b.store.command w with
      | .error e => { b with registry := (b.registry.writeFailed ticket e.message).1 }
      | .ok s => ⟨b.registry.writeDone ticket, s⟩

def run (b : PoolBook) (moves : List Move) : PoolBook := moves.foldl step b

@[simp] theorem run_nil (b : PoolBook) : b.run [] = b := rfl

@[simp] theorem run_cons (b : PoolBook) (m : Move) (moves : List Move) : b.run (m :: moves) = (b.step m).run moves := rfl

/-- Carrying out a whole write is giving its commands one after the other. -/
theorem write_eq_run (b : PoolBook) (ticket : Nat) (h : b.store.held = false) :
    ∃ n, (b.write ticket).1 = b.run (List.replicate n (.command ticket)) := by
  rw [write]
  cases hw : b.registry.write? ticket with
  | none => exact ⟨0, rfl⟩
  | some w =>
    obtain rfl := Registry.ticket_of_write? hw
    simp only [h, Bool.false_eq_true, if_false, SharedStore.writeOne]
    cases hc : b.store.command w with
    | error e => exact ⟨1, by simp [step, hw, hc]⟩
    | ok s =>
      cases hs : w.stage with
      | scaling => exact ⟨1, by simp [step, hw, hc]⟩
      | tracking =>
        have hnext := Registry.write?_writeDone hw hs
        refine ⟨2, ?_⟩
        simp only [List.replicate_succ, List.replicate_zero, run_cons, run_nil, step, hw, hc, hnext]
        cases s.command { w with stage := .scaling } <;> rfl

/-! ## What a move does -/

/-- The decimals that a move wants the store to have for a pool: those of a registration that changes something. -/
def Move.asked? (b : PoolBook) : Move → Option (String × Int)
  | .register address decimals =>
    let decimals := decimals.getD b.registry.defaultBase
    if (b.registry.pools.get? address).map Scale.base = some decimals then none else some (address, decimals)
  | .command _ => none

/-- The decimals that a move puts into the store for a pool. -/
def Move.stored? (b : PoolBook) : Move → Option (String × Int)
  | .register .. => none
  | .command ticket => (b.registry.write? ticket).bind fun w => match w.stage, b.store.command w with
    | .scaling, .ok _ => some (w.address, w.decimals)
    | _, _ => none

/-- What the moves of a book come to where the store refuses no command: the decimals that are asked for, the
decimals that are stored, and the book after it. -/
inductive Effect (b : PoolBook) : Option (String × Int) → Option (String × Int) → PoolBook → Prop
  | nothing : Effect b none none b
  | registered (address : String) (decimals : Int)
      (change : (b.registry.pools.get? address).map Scale.base ≠ some decimals) :
      Effect b (some (address, decimals)) none
        { b with registry := { b.registry with
            pools := b.registry.pools.put address ⟨decimals, b.registry.quote⟩
            writes := b.registry.writes ++ [⟨b.registry.nextTicket, address, decimals,
              if (b.registry.pools.get? address).isNone then .tracking else .scaling⟩]
            nextTicket := b.registry.nextTicket + 1 } }
  | told (w : PoolWrite) (before after : List PoolWrite) (split : b.registry.writes = before ++ w :: after)
      (stage : w.stage = .tracking) :
      Effect b none none
        { registry := { b.registry with writes := before ++ { w with stage := .scaling } :: after }
          store := if b.store.tracked.contains w.address then b.store
            else { b.store with tracked := b.store.tracked ++ [w.address] } }
  | scaled (w : PoolWrite) (before after : List PoolWrite) (split : b.registry.writes = before ++ w :: after)
      (stage : w.stage = .scaling) :
      Effect b none (some (w.address, w.decimals))
        { registry := { b.registry with writes := before ++ after, written := b.registry.written + 1 }
          store := { b.store with decimals := b.store.decimals.put w.address (toString w.decimals) } }

/-- The pools that some writes are about to make known to the store. -/
def announced (writes : List PoolWrite) : List String := (writes.filter (·.stage = .tracking)).map (·.address)

theorem announced_append (writes later : List PoolWrite) :
    announced (writes ++ later) = announced writes ++ announced later := by
  rw [announced, List.filter_append, List.map_append, announced, announced]

theorem announced_cons (w : PoolWrite) (writes : List PoolWrite) :
    announced (w :: writes) = if w.stage = .tracking then w.address :: announced writes else announced writes := by
  by_cases h : w.stage = .tracking <;> simp [announced, h]

/-- What holds of a book between its moves: the store refuses nothing, no two writes are mixed up, every pool has
the quote decimals of the registry, and a pool is tracked exactly if the store knows it or is about to. -/
structure Sound (b : PoolBook) : Prop where
  shared : b.registry.shared = true
  willing : b.store.Willing
  ticketed : b.registry.Ticketed
  quote : ∀ address scale, b.registry.pools.get? address = some scale → scale.quote = b.registry.quote
  tracked : ∀ address, (b.registry.pools.get? address).isSome ↔
    address ∈ b.store.tracked ∨ address ∈ announced b.registry.writes

/-- Every move has one of the effects. -/
theorem Sound.effect {b : PoolBook} (hb : b.Sound) (m : Move) : Effect b (m.asked? b) (m.stored? b) (b.step m) := by
  cases m with
  | register address decimals =>
    simp only [Move.asked?, Move.stored?, step, register, Registry.register]
    split
    · exact .nothing
    · rename_i change
      rw [Registry.startWrite, if_pos (show _ from hb.shared)]
      exact .registered _ _ change
  | command ticket =>
    simp only [Move.asked?, Move.stored?, step]
    cases hw : b.registry.write? ticket with
    | none => exact .nothing
    | some w =>
      cases hs : w.stage with
      | tracking =>
        obtain ⟨before, after, hsplit, hdone⟩ := hb.ticketed.writeDone_tracking hw hs
        simp only [SharedStore.command, hs, SharedStore.track_willing hb.willing, hdone, Option.bind_some]
        exact .told w before after hsplit hs
      | scaling =>
        obtain ⟨before, after, hsplit, hdone⟩ := hb.ticketed.writeDone_scaling hw hs
        simp only [SharedStore.command, hs, SharedStore.setDecimals_willing hb.willing, hdone, Option.bind_some]
        exact .scaled w before after hsplit hs

theorem Sound.of_effect {b b' : PoolBook} {asked stored : Option (String × Int)} (hb : b.Sound)
    (h : Effect b asked stored b') : b'.Sound := by
  obtain ⟨shared, willing, ticketed, quote, tracked⟩ := hb
  cases h with
  | nothing => exact ⟨shared, willing, ticketed, quote, tracked⟩
  | registered address decimals change =>
    refine ⟨shared, willing, ticketed.append rfl rfl rfl, fun other scale h => ?_, fun other => ?_⟩
    · simp only [Roster.get?_put] at h
      split at h
      · cases h
        rfl
      · exact quote other scale h
    · have hother := tracked other
      simp only [Roster.get?_put, announced_append, announced_cons, List.mem_append]
      by_cases he : other = address
      · subst he
        cases hknown : b.registry.pools.get? other with
        | none => simp
        | some scale =>
          rw [hknown] at hother
          obtain h | h := hother.1 rfl <;> simp [h]
      · rw [if_neg he, hother]
        split <;> simp [announced, he]
  | told w before after split stage =>
    refine ⟨shared, ?_, ticketed.of_sublist rfl (by simp [split]), quote, fun other => ?_⟩
    · split
      · exact willing
      · exact ⟨willing.sadd, willing.hset, willing.smembers, willing.hgetall⟩
    · have hother := tracked other
      have hscaling : announced ({ w with stage := .scaling } :: after) = announced after := rfl
      rw [split, announced_append, announced_cons, if_pos stage, List.mem_append, List.mem_cons] at hother
      rw [hother, announced_append, hscaling, List.mem_append]
      split
      · rename_i hknown
        have hmem : w.address ∈ b.store.tracked := List.contains_iff_mem.1 hknown
        grind
      · simp only [List.mem_append, List.mem_singleton]
        grind
  | scaled w before after split stage =>
    refine ⟨shared, ⟨willing.sadd, willing.hset, willing.smembers, willing.hgetall⟩,
      ticketed.of_sublist rfl (by simp [split]), quote, fun other => ?_⟩
    have hother := tracked other
    rw [split, announced_append, announced_cons, if_neg (by simp [stage]), ← announced_append] at hother
    exact hother

theorem Sound.step {b : PoolBook} (hb : b.Sound) (m : Move) : (b.step m).Sound := hb.of_effect (hb.effect m)

theorem Sound.run {b : PoolBook} (hb : b.Sound) : ∀ moves, (b.run moves).Sound
  | [] => hb
  | m :: moves => (hb.step m).run moves

end PoolBook

end PoolFeed
