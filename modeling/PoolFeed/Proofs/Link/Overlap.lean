import Mathlib.Data.List.Induction
import PoolFeed.Proofs.Link.Keeps

/-!
# One subscription at a time

| here | there |
| --- | --- |
| `connectWhileRetrying` | a call of `connect` while `_delayed_connect` sleeps |

A link should never have two subscriptions open: every record would be processed twice. It does so
exactly as long as no subscription is handed over to a link that has one already
(`single_iff_no_overlap`). This can happen: connecting while a retry waits does not take the retry back,
which then connects once more (`not_single_connectWhileRetrying`).
-/

namespace PoolFeed.Link

variable {ρ : Type} {opened : List Nat} {l : Link ρ}

theorem sound_start (o : Options) (ls : List Listener) :
    Sound none [] ({ options := o, listeners := ls } : Link ρ) where
  ordered := Tasks.ordered_empty
  reads := nofun
  keeps := nofun
  kept := nofun
  retry := nofun
  length_le := Nat.zero_le 1
  current := nofun

/-- Tasks in a role that only one task can have are at most one, at the current subscription. -/
theorem standing_of_role {role : Stage ρ → Option Nat} {holder : Option Nat} (hord : l.tasks.Ordered)
    (hrole : ∀ id n, (l.tasks.stage? id).bind role = some n → l.subscription = some n ∧ holder = some id) :
    (l.tasks.standing fun s => (role s).isSome).length ≤ 1 ∧
    ∀ t ∈ l.tasks.standing fun s => (role s).isSome, role t.stage = l.subscription := by
  refine ⟨Tasks.standing_length_le_one hord fun i j s u hi hj hs hu => ?_, fun t ht => ?_⟩
  · obtain ⟨n, hn⟩ := Option.isSome_iff_exists.1 hs
    obtain ⟨k, hk⟩ := Option.isSome_iff_exists.1 hu
    have hholder := (hrole i n (by rw [hi, Option.bind_some, hn])).2
    rw [(hrole j k (by rw [hj, Option.bind_some, hk])).2] at hholder
    exact (Option.some.inj hholder).symm
  · obtain ⟨hs, hp⟩ := Tasks.stage?_of_mem_standing hord ht
    obtain ⟨n, hn⟩ := Option.isSome_iff_exists.1 hp
    rw [hn, (hrole t.id n (by rw [hs, Option.bind_some, hn])).1]

theorem Sound.single {w : Watch ρ} (h : Sound none w.opened w.link) : Single w := by
  obtain ⟨hreaders, hread⟩ := standing_of_role h.ordered fun id => h.reads id nofun
  obtain ⟨hkeepers, hkept⟩ := standing_of_role h.ordered fun id => h.keeps id nofun
  exact ⟨h.length_le, hreaders, hkeepers, h.current, hread, hkept⟩

/-- After an overlap two tasks keep a subscription alive: the new one and the old one. -/
theorem Sound.not_single {w : Watch ρ} {m : Move ρ} (h : Sound none w.opened w.link) (hm : m.Overlaps w.link) :
    ¬Single (w.step m) := by
  obtain ⟨hopens, hstop, hsub⟩ := hm
  obtain ⟨n, hn⟩ := Option.isSome_iff_exists.1 hopens
  obtain ⟨k, hk⟩ := Option.isSome_iff_exists.1 hsub
  obtain ⟨id, luck, hs, hturn, -⟩ := Move.opens_cases hn
  obtain ⟨old, -, hold⟩ := h.kept k hk
  obtain ⟨u, hu, hukeeps⟩ := Option.bind_eq_some_iff.1 hold
  have hid := Tasks.lt_next_of_stage? h.ordered hs
  have holdlt := Tasks.lt_next_of_stage? h.ordered hu
  have hne : old ≠ id := fun e => by
    rw [e, hs] at hu
    cases hu
    cases hukeeps
  have htasks : (w.step m).link.tasks = ((w.link.tasks.spawn (.toKeep n)).spawn (.toRead n)).erase id := by
    rw [Watch.step, hturn, (Turn.subscribed_link (t := ⟨w.link, []⟩) id n hstop luck).2]
  have hstage : ∀ i, (w.step m).link.tasks.stage? i =
      if i = id then none else if i = w.link.tasks.next + 1 then some (.toRead n)
      else if i = w.link.tasks.next then some (.toKeep n) else w.link.tasks.stage? i := fun i => by
    rw [htasks, Tasks.stage?_erase, Tasks.stage?_spawn (h.ordered.spawn _), Tasks.stage?_spawn h.ordered]
    rfl
  intro hsingle
  have hone := hsingle.keepers
  have htwo : 2 ≤ (w.step m).link.keepers.length := by
    refine Tasks.two_le_standing (Nat.ne_of_lt holdlt) (s := u) (u := .toKeep n) ?_ ?_ (by rw [hukeeps]; rfl) rfl
    · rw [hstage, if_neg hne, if_neg (by omega), if_neg (by omega)]
      exact hu
    · rw [hstage, if_neg (by omega), if_neg (by omega), if_pos rfl]
  omega

/-! ## Runs -/

/-- The link knows what it has as long as nothing has overlapped. -/
theorem run_sound (o : Options) (ls : List Listener) (moves : List (Move ρ))
    (hno : ∀ before m, before ++ [m] <+: moves → ¬m.Overlaps (run o ls before).link) :
    Sound none (run o ls moves).opened (run o ls moves).link := by
  induction moves using List.reverseRecOn with
  | nil => exact sound_start o ls
  | append_singleton moves m ih =>
    have hbefore := ih fun before m' hp => hno before m' (hp.trans (List.prefix_append moves [m]))
    rw [run_concat]
    exact step_sound _ m hbefore (hno moves m (List.prefix_refl _))

/-- **A run never has two subscriptions, two readers or two keepers exactly if none of its moves hands a
subscription over to a link that has one already.** -/
theorem single_iff_no_overlap (o : Options) (ls : List Listener) (moves : List (Move ρ)) :
    (∀ before, before <+: moves → Single (run o ls before)) ↔
      ∀ before m, before ++ [m] <+: moves → ¬m.Overlaps (run o ls before).link := by
  constructor
  · intro hsingle
    induction moves using List.reverseRecOn with
    | nil => exact fun before m hp => absurd (List.prefix_nil.1 hp) (by simp)
    | append_singleton moves m ih =>
      have hno := ih fun before hp => hsingle before (hp.trans (List.prefix_append moves [m]))
      intro before m' hp
      rcases List.prefix_concat_iff.1 hp with heq | hlt
      · obtain ⟨rfl, hm⟩ := List.append_inj' heq rfl
        cases hm
        intro hover
        refine (run_sound o ls before hno).not_single hover ?_
        rw [← run_concat]
        exact hsingle _ (List.prefix_refl _)
      · exact hno before m' hlt
  · intro hno before hp
    exact (run_sound o ls before fun earlier m hm => hno earlier m (hm.trans hp)).single

/-- A stream ends, and while the retry waits a caller connects: the retry still comes. -/
def connectWhileRetrying : List (Move Unit) :=
  let handshake (task turn : Nat) : List (Move Unit) :=
    [.resume task turn 0 {} .done, .resume task (turn + 1) 0 {} (.version "v"), .resume task (turn + 2) 0 {} .done]
  [.askAtOnce .connect 0 {}] ++ handshake 0 1 ++
  [.resume 2 0 0 {} .done, .resume 2 1 0 {} .ended, .resume 2 2 0 {} .done, .resume 3 0 0 {} .done] ++
  [.askAtOnce .connect 0 {}] ++ handshake 4 1 ++
  [.resume 3 1 0 {} .done] ++ handshake 3 2

/-- Connecting while a retry waits leaves two subscriptions with a reader each. -/
theorem not_single_connectWhileRetrying :
    ¬Single (run { programs := [] } [] connectWhileRetrying) ∧
      (run { programs := [] } [] connectWhileRetrying).opened = [2, 3] ∧
      ((run { programs := [] } [] connectWhileRetrying).link.readers.map fun t => t.stage.reads) =
        [some 2, some 3] := by
  have hopened : (run { programs := [] } [] connectWhileRetrying).opened = [2, 3] := by decide +kernel
  refine ⟨fun h => absurd h.opened ?_, hopened, by decide +kernel⟩
  rw [hopened]
  decide

end PoolFeed.Link
