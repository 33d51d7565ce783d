import PoolFeed.Proofs.Config.Failures
import Mathlib.Data.List.Forall2

/-!
# Placeholders in a document

| here | there |
| --- | --- |
| `Placeholder.Spelled` | `${VAR}` and `${VAR:default}` (`ConfigLoader._replace_env_vars`) |
| `Filled` | "string values, recursively", where the empty string becomes nothing |

`Spelled` says which texts are placeholders, and `Filled` what stands in the place of a document: each placeholder gives
way to its value, or to nothing, and all else stays, also the value itself if it looks like a placeholder. Resolving fills a
document but for the second parts of its pairs, which it does not look into (`filled_resolve_iff`).
-/

namespace PoolFeed.Config

/-! ## The texts -/

/-- A variable between its braces, alone or with a default behind the first colon. -/
inductive Placeholder.Spelled : Placeholder → String → Prop
  | bare (name : String) : ':' ∉ name.toList → Spelled ⟨Text.trim name, none⟩ ("$\x7b" ++ name ++ "\x7d")
  | withDefault (name default : String) : ':' ∉ name.toList →
    Spelled ⟨Text.trim name, some (Text.trim default)⟩ ("$\x7b" ++ name ++ ":" ++ default ++ "\x7d")

theorem placeholderBody?_eq_some_iff {cs body : List Char} :
    placeholderBody? cs = some body ↔ cs = '$' :: '\x7b' :: (body ++ ['\x7d']) := by
  unfold placeholderBody?
  split
  · rename_i rest
    simp only [List.cons.injEq, true_and]
    split
    · rename_i hlast
      obtain ⟨front, rfl⟩ := List.getLast?_eq_some_iff.1 hlast
      simp
    · rename_i hlast
      refine ⟨nofun, ?_⟩
      rintro rfl
      simp at hlast
  · rename_i hform
    refine ⟨nofun, fun h => ?_⟩
    exact absurd h (hform _)

theorem Placeholder.ofBody_bare {name : List Char} (h : ':' ∉ name) :
    ofBody name = ⟨String.ofList (Text.trimChars name), none⟩ := by
  simp [ofBody, h]

theorem Placeholder.ofBody_withDefault {name : List Char} (h : ':' ∉ name) (default : List Char) :
    ofBody (name ++ ':' :: default) =
      ⟨String.ofList (Text.trimChars name), some (String.ofList (Text.trimChars default))⟩ := by
  have hname : ∀ c ∈ name, (c != ':') = true := fun c hc => by
    rw [bne_iff_ne]
    rintro rfl
    exact h hc
  have htake : (name ++ ':' :: default).takeWhile (· != ':') = name := by
    rw [List.takeWhile_append_of_pos hname]
    simp
  have hdrop : (name ++ ':' :: default).dropWhile (· != ':') = ':' :: default := by
    rw [List.dropWhile_append_of_pos hname]
    simp
  simp [ofBody, htake, hdrop]

/-- A text is read as the placeholder that it spells. -/
theorem Placeholder.read?_eq_some_iff {p : Placeholder} {s : String} : read? s = some p ↔ p.Spelled s := by
  constructor
  · intro h
    obtain ⟨body, hbody, rfl⟩ := Option.map_eq_some_iff.1 h
    have hs := placeholderBody?_eq_some_iff.1 hbody
    by_cases hcolon : ':' ∈ body
    · obtain ⟨name, default, rfl, hname⟩ := List.eq_append_cons_of_mem hcolon
      rw [ofBody_withDefault hname]
      have hspelled := Spelled.withDefault (String.ofList name) (String.ofList default) (by simpa using hname)
      have htext : s = "$\x7b" ++ String.ofList name ++ ":" ++ String.ofList default ++ "\x7d" :=
        String.toList_injective (by simp [hs])
      simpa [Text.trim, ← htext] using hspelled
    · rw [ofBody_bare hcolon]
      have hspelled := Spelled.bare (String.ofList body) (by simpa using hcolon)
      have htext : s = "$\x7b" ++ String.ofList body ++ "\x7d" := String.toList_injective (by simp [hs])
      simpa [Text.trim, ← htext] using hspelled
  · rintro (⟨name, hname⟩ | ⟨name, default, hname⟩)
    · have hbody := placeholderBody?_eq_some_iff.2
        (show ("$\x7b" ++ name ++ "\x7d").toList = '$' :: '\x7b' :: (name.toList ++ ['\x7d']) by simp)
      rw [read?, hbody, Option.map_some, ofBody_bare hname, Text.trim]
    · have hbody := placeholderBody?_eq_some_iff.2
        (show ("$\x7b" ++ name ++ ":" ++ default ++ "\x7d").toList =
          '$' :: '\x7b' :: ((name.toList ++ ':' :: default.toList) ++ ['\x7d']) by simp)
      rw [read?, hbody, Option.map_some, ofBody_withDefault hname, Text.trim, Text.trim]

/-- What stands in the place of a text. -/
inductive Replaced (env : Env) : String → Document → Prop
  | plain {s : String} : (∀ p : Placeholder, ¬ p.Spelled s) → Replaced env s (.str s)
  | value {s v : String} {p : Placeholder} : p.Spelled s → (env.get? p.name).or p.default = some v → v ≠ "" →
    Replaced env s (.str v)
  | nothing {s : String} {p : Placeholder} : p.Spelled s → (env.get? p.name).or p.default ∈ [none, some ""] →
    Replaced env s .null

theorem Placeholder.value?_eq (p : Placeholder) (env : Env) : p.value? env = (env.get? p.name).or p.default := by
  unfold value?
  cases env.get? p.name <;> rfl

theorem resolveText_of_spelled {env : Env} {p : Placeholder} {s : String} (h : p.Spelled s) :
    (resolveText env s).1 = ofValue ((env.get? p.name).or p.default) := by
  rw [resolveText, Placeholder.read?_eq_some_iff.2 h, ← p.value?_eq]

theorem replaced_iff {env : Env} {s : String} {d : Document} : Replaced env s d ↔ d = (resolveText env s).1 := by
  constructor
  · rintro (hplain | ⟨hs, hv, hne⟩ | ⟨hs, hv⟩)
    · have hread : Placeholder.read? s = none := by
        by_contra h
        obtain ⟨p, hp⟩ := Option.ne_none_iff_exists'.1 h
        exact hplain p (Placeholder.read?_eq_some_iff.1 hp)
      rw [resolveText, hread]
    · rw [resolveText_of_spelled hs, hv, ofValue, if_neg hne]
    · rw [resolveText_of_spelled hs]
      simp only [List.mem_cons, List.not_mem_nil, or_false] at hv
      obtain hv | hv := hv <;> rw [hv] <;> rfl
  · rintro rfl
    cases hread : Placeholder.read? s with
    | none =>
      rw [resolveText, hread]
      refine .plain fun p hp => ?_
      rw [Placeholder.read?_eq_some_iff.2 hp] at hread
      cases hread
    | some p =>
      have hs := Placeholder.read?_eq_some_iff.1 hread
      rw [resolveText_of_spelled hs]
      cases hv : (env.get? p.name).or p.default with
      | none => exact .nothing hs (by simp [hv])
      | some v =>
        by_cases hne : v = ""
        · subst hne
          exact .nothing hs (by simp [hv])
        · rw [ofValue, if_neg hne]
          exact .value hs hv hne

/-! ## The documents -/

/-- Texts and collections are looked into; the members of a set are its keys. -/
def isLeaf : Document → Bool
  | .str _ | .seq _ | .map _ | .pair _ _ => false
  | .null | .bool _ | .int _ | .float _ | .bytes _ | .date _ _ _ | .moment _ | .set _ => true

/-- What stands in the place of a document: all keys and all lengths stay. Pairs are filled or stay as they are. -/
inductive Filled (pairs : Bool) (env : Env) : Document → Document → Prop
  | text {s : String} {d : Document} : Replaced env s d → Filled pairs env (.str s) d
  | seq {items items' : List Document} : List.Forall₂ (Filled pairs env) items items' →
    Filled pairs env (.seq items) (.seq items')
  | map {e e' : List (Document × Document)} : e.map (·.1) = e'.map (·.1) →
    List.Forall₂ (Filled pairs env) (e.map (·.2)) (e'.map (·.2)) → Filled pairs env (.map e) (.map e')
  | pair {key value value' : Document} : pairs = true → Filled pairs env value value' →
    Filled pairs env (.pair key value) (.pair key value')
  | kept {key value : Document} : pairs = false → Filled pairs env (.pair key value) (.pair key value)
  | leaf {d : Document} : isLeaf d = true → Filled pairs env d d

mutual
/-- The pairs of a document that are in no other pair. -/
def pairsOf : Document → List Document
  | .pair key value => [.pair key value]
  | .seq items => pairsOfItems items
  | .map entries => pairsOfEntries entries
  | _ => []

def pairsOfItems : List Document → List Document
  | [] => []
  | d :: rest => pairsOf d ++ pairsOfItems rest

def pairsOfEntries : List (Document × Document) → List Document
  | [] => []
  | (_, v) :: rest => pairsOf v ++ pairsOfEntries rest
end

variable {pairs : Bool} {env : Env}

theorem filled_seq_iff {items items' : List Document} :
    Filled pairs env (.seq items) (.seq items') ↔ List.Forall₂ (Filled pairs env) items items' := by
  constructor
  · rintro (_ | hitems | _ | _ | _ | hleaf)
    · exact hitems
    · cases hleaf
  · exact .seq

theorem filled_map_iff {e e' : List (Document × Document)} (hkeys : e.map (·.1) = e'.map (·.1)) :
    Filled pairs env (.map e) (.map e') ↔ List.Forall₂ (Filled pairs env) (e.map (·.2)) (e'.map (·.2)) := by
  constructor
  · rintro (_ | _ | ⟨_, hvalues⟩ | _ | _ | hleaf)
    · exact hvalues
    · cases hleaf
  · exact .map hkeys

theorem resolveEntries_eq (env : Env) : ∀ e : List (Document × Document),
    (resolveEntries env e).1 = e.map fun x => (x.1, (resolve env x.2).1)
  | [] => by rw [resolveEntries, List.map_nil]
  | (k, v) :: rest => by
    have ih := resolveEntries_eq env rest
    rw [resolveEntries, List.map_cons, ← ih]

mutual
/-- A document is resolved as it is to be filled, but for the pairs. -/
theorem filled_resolve_iff : ∀ d : Document, Filled pairs env d (resolve env d).1 ↔
    (pairs = true → ∀ p ∈ pairsOf d, Filled pairs env p p)
  | .str s => by
    simp only [resolve, pairsOf]
    exact iff_of_true (.text (replaced_iff.2 rfl)) (by simp)
  | .seq items => by
    simp only [resolve, pairsOf]
    rw [filled_seq_iff, filled_resolveItems_iff items]
  | .map entries => by
    simp only [resolve, pairsOf]
    rw [filled_map_iff (resolveEntries_keys env entries).symm, filled_resolveEntries_iff entries]
  | .pair key value => by
    simp only [resolve, pairsOf, List.mem_singleton, forall_eq]
    cases pairs with
    | false => exact iff_of_true (.kept rfl) nofun
    | true => exact ⟨fun h _ => h, fun h => h rfl⟩
  | .null | .bool _ | .int _ | .float _ | .bytes _ | .date _ _ _ | .moment _ | .set _ => by
    simp only [resolve, pairsOf]
    exact iff_of_true (.leaf rfl) (by simp)

theorem filled_resolveItems_iff : ∀ items : List Document,
    List.Forall₂ (Filled pairs env) items (resolveItems env items).1 ↔
      (pairs = true → ∀ p ∈ pairsOfItems items, Filled pairs env p p)
  | [] => by
    simp only [resolveItems, pairsOfItems]
    exact iff_of_true .nil (by simp)
  | d :: rest => by
    have hd := filled_resolve_iff d
    have hrest := filled_resolveItems_iff rest
    simp only [resolveItems, pairsOfItems, List.forall₂_cons, hd, hrest, List.forall_mem_append]
    exact forall_and.symm

theorem filled_resolveEntries_iff : ∀ entries : List (Document × Document),
    List.Forall₂ (Filled pairs env) (entries.map (·.2)) ((resolveEntries env entries).1.map (·.2)) ↔
      (pairs = true → ∀ p ∈ pairsOfEntries entries, Filled pairs env p p)
  | [] => by
    simp only [resolveEntries, pairsOfEntries]
    exact iff_of_true .nil (by simp)
  | (k, v) :: rest => by
    have hv := filled_resolve_iff v
    have hrest := filled_resolveEntries_iff rest
    simp only [resolveEntries, pairsOfEntries, List.map_cons, List.forall₂_cons, hv, hrest, List.forall_mem_append]
    exact forall_and.symm
end

end PoolFeed.Config
