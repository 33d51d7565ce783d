import PoolFeed.Proofs.Link.Turns

/-!
# Runs of the link

| here | there |
| --- | --- |
| `Move` | a call of `StreamConnectionManager.start`, `stop`, `connect` or `handle_disconnect`, or the end of what one of its tasks awaits |
| `Watch` | what its clients have seen: subscriptions handed over, cancelled and ended |
| `Single` | one subscription, one `_read_loop` and one `_keepalive_loop` |

A run is a list of moves, in any order: callers ask, and tasks are resumed with whatever they waited
for. A watch follows a run from outside and keeps account of the subscriptions that are open, which the
link itself does not: those that the service has handed over and that have neither ended nor been
cancelled. `Single` is what a run should keep true.
-/

namespace PoolFeed.Link

variable {ρ : Type}

/-! ## Moves -/

/-- What can happen to a link next. -/
inductive Move (ρ : Type) where
  | ask (c : Call)
  | askAtOnce (c : Call) (now : Nat) (luck : Luck)
  | resume (task turn now : Nat) (luck : Luck) (o : Outcome ρ)

namespace Move

def turn (l : Link ρ) : Move ρ → Turn ρ
  | .ask c => l.ask c
  | .askAtOnce c now luck => l.askAtOnce c now luck
  | .resume task turn now luck o => l.resume task turn now luck o

/-- The stage from which a task goes on and what it has waited for there. A task that comes too late
or gives up does not go on. -/
def goesOn? (l : Link ρ) : Move ρ → Option (Stage ρ × Outcome ρ)
  | .resume task turn _ _ o => if l.tasks.waitsAt task turn then (l.tasks.stage? task).map (·, o) else none
  | _ => none

/-- The subscription that the service hands over. -/
def opens? (l : Link ρ) (m : Move ρ) : Option Nat :=
  match m.goesOn? l with
  | some (.subscribing n, .done) => some n
  | _ => none

/-- The subscription whose reader comes to its end. -/
def ends? (l : Link ρ) (m : Move ρ) : Option Nat :=
  match m.goesOn? l with
  | some (.reading n, .ended) | some (.reading n, .failed _) => some n
  | _ => none

/-- A subscription is handed over to a link that has one already and is not stopping. -/
def Overlaps (l : Link ρ) (m : Move ρ) : Prop :=
  (m.opens? l).isSome ∧ l.stopping = false ∧ l.subscription.isSome

instance (l : Link ρ) (m : Move ρ) : Decidable (m.Overlaps l) := inferInstanceAs (Decidable (_ ∧ _ ∧ _))

/-- A resumed task comes too late, gives up, or goes on from the stage at which it stands. -/
theorem resume_cases (l : Link ρ) (id turn now : Nat) (luck : Luck) (o : Outcome ρ) :
    (l.resume id turn now luck o = ⟨l, []⟩ ∧ (Move.resume id turn now luck o).goesOn? l = none) ∨
    (l.resume id turn now luck o = Turn.finish ⟨l, []⟩ id .cancelled ∧ l.tasks.stage? id = none ∧
      (Move.resume id turn now luck o).goesOn? l = none) ∨
    ∃ s, l.resume id turn now luck o = Turn.goOn ⟨l, []⟩ id now luck s o ∧ l.tasks.stage? id = some s ∧
      (Move.resume id turn now luck o).goesOn? l = some (s, o) := by
  cases hf : l.tasks.find? id with
  | none => exact .inl (by simp [Link.resume, goesOn?, Tasks.waitsAt, hf])
  | some task =>
    by_cases hturn : task.turn = turn
    · cases hc : task.cancelled with
      | false =>
        refine .inr (.inr ⟨task.stage, ?_⟩)
        simp [Link.resume, goesOn?, Tasks.waitsAt, Tasks.stage?, hf, hturn, hc]
      | true =>
        refine .inr (.inl ?_)
        simp [Link.resume, goesOn?, Tasks.waitsAt, Tasks.stage?, hf, hturn, hc]
    · exact .inl (by simp [Link.resume, goesOn?, Tasks.waitsAt, hf, hturn])

end Move

/-! ## Watches -/

/-- What is left of open subscriptions when some are closed. -/
def close (opened closed : List Nat) : List Nat := closed.foldl List.erase opened

structure Watch (ρ : Type) where
  link : Link ρ
  /-- The subscriptions that have been handed over and have neither ended nor been cancelled. -/
  opened : List Nat := []

def Watch.step (w : Watch ρ) (m : Move ρ) : Watch ρ where
  link := (m.turn w.link).link
  opened := close (close (w.opened ++ (m.opens? w.link).toList) (m.ends? w.link).toList) (m.turn w.link).dropped

/-- A run of a new link. -/
def run (o : Options) (ls : List Listener) (moves : List (Move ρ)) : Watch ρ :=
  moves.foldl Watch.step { link := { options := o, listeners := ls } }

theorem run_concat (o : Options) (ls : List Listener) (moves : List (Move ρ)) (m : Move ρ) :
    run o ls (moves ++ [m]) = (run o ls moves).step m := by
  simp only [run, List.foldl_append, List.foldl_cons, List.foldl_nil]

/-- The tasks that read. One that has been told to give up, or has left its subscription to take the
connection down, reads no more. -/
def readers (l : Link ρ) : List (Task (Stage ρ)) := l.tasks.standing fun s => s.reads.isSome

/-- The tasks that keep a subscription alive. -/
def keepers (l : Link ρ) : List (Task (Stage ρ)) := l.tasks.standing fun s => s.keeps.isSome

/-- At most one subscription is open, at most one task reads and at most one keeps alive, and all of
them have to do with the current subscription. -/
structure Single (w : Watch ρ) : Prop where
  opened : w.opened.length ≤ 1
  readers : w.link.readers.length ≤ 1
  keepers : w.link.keepers.length ≤ 1
  opened_current : ∀ n ∈ w.opened, w.link.subscription = some n
  readers_current : ∀ t ∈ w.link.readers, t.stage.reads = w.link.subscription
  keepers_current : ∀ t ∈ w.link.keepers, t.stage.keeps = w.link.subscription

/-! ## Closing -/

@[simp] theorem close_nil (opened : List Nat) : close opened [] = opened := rfl

@[simp] theorem close_append (opened closed more : List Nat) :
    close opened (closed ++ more) = close (close opened closed) more := List.foldl_append

theorem close_sublist (closed : List Nat) : ∀ opened, (close opened closed).Sublist opened := by
  induction closed with
  | nil => exact fun _ => List.Sublist.refl _
  | cons n closed ih => exact fun opened => (ih (opened.erase n)).trans List.erase_sublist

/-- Closing the one subscription there is leaves none. -/
theorem close_current {opened : List Nat} {sub : Option Nat} (hlen : opened.length ≤ 1)
    (hcur : ∀ n ∈ opened, sub = some n) : close opened sub.toList = [] := by
  match opened with
  | [] => cases sub <;> rfl
  | [n] =>
    rw [hcur n List.mem_cons_self]
    simp [close]
  | _ :: _ :: _ => simp at hlen

/-- A subscription that is cancelled as soon as it is handed over changes nothing. -/
theorem close_last {opened : List Nat} (n : Nat) (hlen : opened.length ≤ 1) : close (opened ++ [n]) [n] = opened := by
  match opened with
  | [] => simp [close]
  | [m] =>
    by_cases hm : m = n
    · simp [close, hm]
    · simp [close, hm]
  | _ :: _ :: _ => simp at hlen

end PoolFeed.Link
