import Mathlib.Data.List.Induction
import PoolFeed.Proofs.Link.Courses

/-!
# What a run has in its keeping

An account of a run, kept from outside: the calls that have begun, the clients that have been created and not been
closed, and the subscriptions that have been handed over and not been cancelled. The link itself remembers one client
and one subscription. `Leaves` says of a turn that the account and the link's memory agree when it ends.
-/

namespace PoolFeed.Link

variable {ρ : Type}

/-! ## Holdings -/

/-- What has been given to a link and not been given back. -/
structure Holdings where
  clients : List Nat := []
  subscriptions : List Nat := []

namespace Holdings

/-- A client that is created is opened at once. It counts until it is closed, and a subscription until it is
cancelled. -/
def after (h : Holdings) : Action ρ → Holdings
  | .await _ _ (.opened n) => { h with clients := h.clients ++ [n] }
  | .await _ _ (.closed n) => { h with clients := h.clients.erase n }
  | .cancel n => { h with subscriptions := h.subscriptions.erase n }
  | _ => h

/-- A subscription is handed over. -/
def given (h : Holdings) (sub : Option Nat) : Holdings := { h with subscriptions := h.subscriptions ++ sub.toList }

@[simp] theorem given_none (h : Holdings) : h.given none = h := by simp [given]

theorem after_of_plain (h : Holdings) {a : Action ρ} (ha : a.isPlain) : h.after a = h := by
  cases a with
  | log | tell | wake | ended => rfl
  | create | cancel | await => cases ha

theorem foldl_heralds (h : Holdings) {as : List (Action ρ)} (has : ∀ a ∈ as, a.heralds) : as.foldl after h = h := by
  induction as with
  | nil => rfl
  | cons a as ih =>
    rw [List.forall_mem_cons] at has
    have ha : h.after a = h := by
      cases a with
      | log | tell => rfl
      | create | cancel | wake | await | ended => cases has.1
    rw [List.foldl_cons, ha, ih has.2]

theorem foldl_cancels (clients : List Nat) (sub : Option Nat) :
    (sub.toList.map (Action.cancel (ρ := ρ))).foldl after ⟨clients, sub.toList⟩ = ⟨clients, []⟩ := by
  cases sub with
  | none => rfl
  | some n => simp [after]

end Holdings

/-- What the link remembers. -/
def holdings (l : Link ρ) : Holdings := ⟨l.client.toList, l.subscription.toList⟩

/-! ## Accounts of runs -/

structure Custody (ρ : Type) where
  link : Link ρ
  /-- The calls that have begun. -/
  calls : List Call := []
  holdings : Holdings := {}

def Custody.step (w : Custody ρ) (m : Move ρ) : Custody ρ where
  link := (m.turn w.link).link
  calls := w.calls ++ (m.begins? w.link).toList
  holdings := (m.turn w.link).actions.foldl Holdings.after (w.holdings.given (m.opens? w.link))

/-- The account of a run of a new link. -/
def custody (o : Options) (ls : List Listener) (moves : List (Move ρ)) : Custody ρ :=
  moves.foldl Custody.step { link := { options := o, listeners := ls } }

theorem custody_concat (o : Options) (ls : List Listener) (moves : List (Move ρ)) (m : Move ρ) :
    custody o ls (moves ++ [m]) = (custody o ls moves).step m := by
  simp only [custody, List.foldl_append, List.foldl_cons, List.foldl_nil]

/-! ## Accounts of turns -/

namespace Turn

variable {t u : Turn ρ} {h : Holdings} {P : Link ρ → Prop}

/-- What is held in the course of a turn that began with some holdings. -/
def holdings (t : Turn ρ) (h : Holdings) : Holdings := t.actions.foldl Holdings.after h

/-- Notes change nothing. -/
theorem holdings_eq (t : Turn ρ) (h : Holdings) : t.holdings h = t.deeds.foldl Holdings.after h := by
  rw [holdings, deeds]
  induction t.actions generalizing h with
  | nil => rfl
  | cons a as ih =>
    cases ha : a.isPlain with
    | true => rw [List.foldl_cons, Holdings.after_of_plain h ha, List.filter_cons_of_neg (by simp [ha]), ih]
    | false => rw [List.filter_cons_of_pos (by simp [ha]), List.foldl_cons, List.foldl_cons, ih]

theorem holdings_of_deeds (hdeeds : u.deeds = t.deeds) (h : Holdings) : u.holdings h = t.holdings h := by
  rw [holdings_eq, holdings_eq, hdeeds]

theorem holdings_append {as : List (Action ρ)} (hdeeds : u.deeds = t.deeds ++ as) (h : Holdings) :
    u.holdings h = as.foldl Holdings.after (t.holdings h) := by
  rw [holdings_eq, holdings_eq, hdeeds, List.foldl_append]

/-- A turn that began with some holdings leaves a link that fits a description and remembers what it holds. -/
structure Leaves (h : Holdings) (P : Link ρ → Prop) (t : Turn ρ) : Prop where
  link : P t.link
  remembers : t.holdings h = t.link.holdings

theorem Leaves.of_eq {Q : Link ρ → Prop} (ht : t.Leaves h P) (hlink : Q u.link) (hdeeds : u.deeds = t.deeds)
    (hheld : u.link.holdings = t.link.holdings) : u.Leaves h Q :=
  ⟨hlink, by rw [holdings_of_deeds hdeeds, ht.remembers, hheld]⟩

theorem leaves_start {l : Link ρ} (hl : P l) : (⟨l, []⟩ : Turn ρ).Leaves l.holdings P := ⟨hl, rfl⟩

theorem Noted.leaves {l : Link ρ} (hu : u.Noted l) (hl : P u.link) : u.Leaves l.holdings P := by
  obtain ⟨-, v, p, e, f, hlink⟩ := id hu
  refine ⟨hl, ?_⟩
  rw [holdings_of_deeds hu.1.deeds, hlink]
  rfl

end Turn

end PoolFeed.Link
