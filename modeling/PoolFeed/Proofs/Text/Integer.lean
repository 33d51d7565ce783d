import Mathlib.Algebra.Group.Nat.Defs
import PoolFeed.Text.Integer

/-!
# Integers that are read back

An integer is written with a sign and decimal digits, none of which is trimmed or left out by `integer?`. So what
is written is read back, as long as it does not have more digits than are read.
-/

namespace PoolFeed.Text

/-- A character that means itself: no blank that is trimmed and no underscore that is left out. -/
def Plain (c : Char) : Prop := isBlank c = false ∧ c ≠ '_'

theorem toNat_of_isDigit {c : Char} (h : c.isDigit) : 48 ≤ c.toNat ∧ c.toNat < 58 := by
  simp only [Char.isDigit, Bool.and_eq_true, decide_eq_true_eq, ge_iff_le, UInt32.le_iff_toNat_le] at h
  exact ⟨h.1, Nat.lt_succ_of_le h.2⟩

theorem plain_of_isDigit {c : Char} (h : c.isDigit) : Plain c := by
  have hc := toNat_of_isDigit h
  constructor
  · have away : ∀ b ∈ blanks, b < 48 ∨ 58 ≤ b := by decide
    rw [isBlank, List.contains_eq_mem, decide_eq_false_iff_not]
    intro hm
    have := away _ hm
    omega
  · rintro rfl
    exact absurd hc.2 (by decide)

theorem dropWhile_of_plain : ∀ {cs : List Char}, (∀ c ∈ cs, Plain c) → cs.dropWhile isBlank = cs
  | [], _ => rfl
  | c :: cs, h => by rw [List.dropWhile_cons_of_neg (by simp [(h c List.mem_cons_self).1])]

theorem trimChars_of_plain {cs : List Char} (h : ∀ c ∈ cs, Plain c) : trimChars cs = cs := by
  have hreverse : ∀ c ∈ cs.reverse, Plain c := fun c hc => h c (List.mem_reverse.1 hc)
  rw [trimChars, trimWhere, dropWhile_of_plain h, dropWhile_of_plain hreverse, List.reverse_reverse]

theorem underscoresBetween_of_plain {cs : List Char} (h : ∀ c ∈ cs, Plain c) : underscoresBetween cs = true := by
  have hno : '_' ∉ cs := fun hc => (h _ hc).2 rfl
  have head : cs.head? ≠ some '_' := fun hc => hno (List.mem_of_head? hc)
  have last : cs.getLast? ≠ some '_' := fun hc => hno (List.mem_of_getLast? hc)
  have pair : ('_', '_') ∉ cs.zip cs.tail := fun hc => hno (List.of_mem_zip hc).1
  simp [underscoresBetween, head, last, pair]

/-- A digit of the first script has the value that counts from its zero. -/
theorem digit?_of_isDigit {c : Char} (h : c.isDigit) : digit? c = some (c.toNat - 48) := by
  have hc := toNat_of_isDigit h
  simp only [digit?, zeros, List.find?_cons, hc, decide_true, and_self, Option.map_some]

theorem mapM_digit? : ∀ {cs : List Char}, (∀ c ∈ cs, c.isDigit) → cs.mapM digit? = some (cs.map (·.toNat - 48))
  | [], _ => rfl
  | c :: cs, h => by
    rw [List.mapM_cons, digit?_of_isDigit (h c List.mem_cons_self),
      mapM_digit? fun c hc => h c (List.mem_cons_of_mem _ hc)]
    rfl

theorem plain_toDigits (n : Nat) : ∀ c ∈ Nat.toDigits 10 n, Plain c := fun c hc =>
  plain_of_isDigit (Nat.isDigit_of_mem_toDigits (by decide) (by decide) hc)

theorem natural?_toDigits {n : Nat} (h : n < 10 ^ digitLimit) : natural? (Nat.toDigits 10 n) = some n := by
  have digits : ∀ c ∈ Nat.toDigits 10 n, c.isDigit := fun c hc => Nat.isDigit_of_mem_toDigits (by decide) (by decide) hc
  have all : (Nat.toDigits 10 n).filter (· != '_') = Nat.toDigits 10 n :=
    List.filter_eq_self.2 fun c hc => by simpa using (plain_toDigits n c hc).2
  have few : (Nat.toDigits 10 n).length ≤ digitLimit := (Nat.length_toDigits_le_iff (by decide) (by decide)).2 h
  have kept : ((Nat.toDigits 10 n).isEmpty || !underscoresBetween (Nat.toDigits 10 n)) = false := by
    simp [underscoresBetween_of_plain (plain_toDigits n), Nat.toDigits_ne_nil]
  simp only [natural?, kept, Bool.false_eq_true, all, Nat.not_lt.2 few, mapM_digit? digits, if_false, Option.map_some,
    List.foldl_map]
  exact congrArg some Nat.ofDigitChars_ten_toDigits

/-- **What is written is read back.** -/
theorem integer?_toString {i : Int} (h : i.natAbs < 10 ^ digitLimit) : integer? (toString i) = some i := by
  have no_sign {n : Nat} {c : Char} (hc : c.isDigit = false) : c ∉ Nat.toDigits 10 n := fun hm => by
    rw [Nat.isDigit_of_mem_toDigits (by decide) (by decide) hm] at hc
    cases hc
  match i with
  | .ofNat n =>
    have written : (toString (Int.ofNat n)).toList = Nat.toDigits 10 n := Nat.toList_repr
    rw [integer?, written, trimChars_of_plain (plain_toDigits n)]
    split
    · rename_i heq
      exact absurd (heq ▸ List.mem_cons_self) (no_sign (n := n) (c := '-') rfl)
    · rename_i heq
      exact absurd (heq ▸ List.mem_cons_self) (no_sign (n := n) (c := '+') rfl)
    · rw [natural?_toDigits (show n < 10 ^ digitLimit from h)]
      rfl
  | .negSucc n =>
    have written : (toString (Int.negSucc n)).toList = '-' :: Nat.toDigits 10 (n + 1) := by
      rw [← Nat.toList_repr]
      exact String.toList_append
    have plain : ∀ c ∈ '-' :: Nat.toDigits 10 (n + 1), Plain c :=
      List.forall_mem_cons.2 ⟨by unfold Plain; decide, plain_toDigits (n + 1)⟩
    rw [integer?, written, trimChars_of_plain plain]
    simp only [natural?_toDigits (show n + 1 < 10 ^ digitLimit from h), Int.negSucc_eq]
    rfl

end PoolFeed.Text
