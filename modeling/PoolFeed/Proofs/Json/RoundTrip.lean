import PoolFeed.Json.Reading
import PoolFeed.Proofs.Text.Integer

/-!
# What is printed is read back

A value without doubles is printed in characters between the blank and the tilde, and `read?` gives it back
(`read?_line`). Strings are what this is about: whatever characters a string has, each is read from its own escape
(`readChar?_escapeChar`), so no string ends before its closing quote.
-/

namespace PoolFeed.Json

variable {rest : List Char}

/-! ## Units -/

theorem hexDigit?_digitChar : ∀ {d : Nat}, d < 16 → Bytes.hexDigit? (Nat.digitChar d) = some d
  | 0, _ | 1, _ | 2, _ | 3, _ | 4, _ | 5, _ | 6, _ | 7, _ | 8, _ | 9, _ | 10, _ | 11, _ | 12, _ | 13, _ | 14, _ | 15, _ => by
    decide
  | _ + 16, h => absurd h (by omega)

theorem readUnit?_hex4 {n : Nat} (h : n < 0x10000) (rest : List Char) : readUnit? (hex4 n ++ rest) = some (n, rest) := by
  have hdigit : ∀ d : Nat, Bytes.hexDigit? (Nat.digitChar (d % 16)) = some (d % 16) := fun d =>
    hexDigit?_digitChar (Nat.mod_lt d (by omega))
  simp only [hex4, List.map_cons, List.map_nil, List.cons_append, List.nil_append, readUnit?, hdigit]
  show some (4096 * (n / 4096 % 16) + 256 * (n / 256 % 16) + 16 * (n / 16 % 16) + n % 16, rest) = some (n, rest)
  congr 2
  omega

theorem toNat_cases (c : Char) : c.toNat < 0xD800 ∨ 0xDFFF < c.toNat ∧ c.toNat < 0x110000 := c.valid

/-- A character of one unit. -/
theorem readUnits?_of_lt {c : Char} (h : c.toNat < 0x10000) (rest : List Char) :
    readUnits? (hex4 c.toNat ++ rest) = some (c, rest) := by
  have hwhole := toNat_cases c
  have hhigh : isHigh c.toNat = false := decide_eq_false (by omega)
  have hlow : isLow c.toNat = false := decide_eq_false (by omega)
  simp only [readUnits?, readUnit?_hex4 h rest, Option.bind_eq_bind, Option.bind_some, hhigh, hlow, Bool.false_eq_true,
    if_false, Char.ofNat_toNat]

/-- A pair of units stands for one character. -/
theorem readUnits?_pair {n m : Nat} (hn : isHigh n = true) (hm : isLow m = true) (rest : List Char) :
    readUnits? (hex4 n ++ (unitEscape m ++ rest)) =
      some (Char.ofNat (0x10000 + 0x400 * (n - 0xD800) + (m - 0xDC00)), rest) := by
  have hnbound : n < 0x10000 := by
    have h := of_decide_eq_true hn
    omega
  have hmbound : m < 0x10000 := by
    have h := of_decide_eq_true hm
    omega
  rw [readUnits?, readUnit?_hex4 hnbound]
  simp only [Option.bind_eq_bind, Option.bind_some, hn, if_true, unitEscape, List.cons_append, readUnit?_hex4 hmbound, hm]

/-- A character of two units. -/
theorem readUnits?_of_le {c : Char} (h : 0x10000 ≤ c.toNat) (rest : List Char) :
    readUnits? (hex4 (0xD800 + (c.toNat - 0x10000) / 0x400) ++
      (unitEscape (0xDC00 + (c.toNat - 0x10000) % 0x400) ++ rest)) = some (c, rest) := by
  have hbound := toNat_cases c
  have hhigh : isHigh (0xD800 + (c.toNat - 0x10000) / 0x400) = true := decide_eq_true (by omega)
  have hlow : isLow (0xDC00 + (c.toNat - 0x10000) % 0x400) = true := decide_eq_true (by omega)
  have hsum : 0x10000 + 0x400 * (0xD800 + (c.toNat - 0x10000) / 0x400 - 0xD800) +
      (0xDC00 + (c.toNat - 0x10000) % 0x400 - 0xDC00) = c.toNat := by omega
  rw [readUnits?_pair hhigh hlow, hsum, Char.ofNat_toNat]

/-! ## Strings -/

theorem eq_ofNat_of_toNat {c : Char} {n : Nat} (h : c.toNat = n) : c = Char.ofNat n := by
  rw [← h, Char.ofNat_toNat]

/-- A printable character of ASCII; none of them ends a line. -/
def IsGraphic (c : Char) : Prop := 32 ≤ c.toNat ∧ c.toNat < 127

instance (c : Char) : Decidable (IsGraphic c) := inferInstanceAs (Decidable (_ ∧ _))

instance (cs : List Char) : Decidable (∀ c ∈ cs, IsGraphic c) := List.decidableBAll _ cs

/-- A character is written as the letter that stands for it behind a backslash, as itself, as a unit or as two. -/
theorem escapeChar_cases (c : Char) :
    (∃ d, escapeChar c = ['\\', d] ∧ IsGraphic d ∧ d ≠ 'u' ∧ unescape? d = some c) ∨
    (escapeChar c = [c] ∧ IsGraphic c ∧ c ≠ '"' ∧ c ≠ '\\') ∨
    (c.toNat < 0x10000 ∧ escapeChar c = unitEscape c.toNat) ∨
    (0x10000 ≤ c.toNat ∧ escapeChar c = unitEscape (0xD800 + (c.toNat - 0x10000) / 0x400) ++
      unitEscape (0xDC00 + (c.toNat - 0x10000) % 0x400)) := by
  unfold escapeChar
  split
  · rename_i h
    exact .inl ⟨_, rfl, by decide, by decide, by rw [h]; rfl⟩
  split
  · rename_i h
    exact .inl ⟨_, rfl, by decide, by decide, by rw [h]; rfl⟩
  split
  · rename_i h
    exact .inl ⟨_, rfl, by decide, by decide, by rw [h]; rfl⟩
  split
  · rename_i h
    exact .inl ⟨_, rfl, by decide, by decide, by rw [h]; rfl⟩
  split
  · rename_i h
    exact .inl ⟨_, rfl, by decide, by decide, by rw [h]; rfl⟩
  split
  · rename_i h
    exact .inl ⟨_, rfl, by decide, by decide, by rw [eq_ofNat_of_toNat h]; rfl⟩
  split
  · rename_i h
    exact .inl ⟨_, rfl, by decide, by decide, by rw [eq_ofNat_of_toNat h]; rfl⟩
  rename_i hquote hslash _ _ _ _ _
  split
  · rename_i hgraphic
    exact .inr (.inl ⟨rfl, hgraphic, hquote, hslash⟩)
  split
  · rename_i hunit
    exact .inr (.inr (.inl ⟨hunit, rfl⟩))
  · rename_i hunits
    exact .inr (.inr (.inr ⟨Nat.le_of_not_lt hunits, rfl⟩))

/-- Each character is read from its own text. -/
theorem readChar?_escapeChar (c : Char) (rest : List Char) : readChar? (escapeChar c ++ rest) = some (c, rest) := by
  rcases escapeChar_cases c with ⟨d, hc, -, hd, hread⟩ | ⟨hc, hgraphic, hquote, hslash⟩ | ⟨hunit, hc⟩ | ⟨hunits, hc⟩
  · simp only [hc, List.cons_append, List.nil_append, readChar?, if_true, hd, if_false, hread, Option.map_some]
  · have hplain : ¬(c = '"' ∨ c.toNat < 32) := by
      rintro (h | h)
      · exact hquote h
      · exact Nat.not_le_of_lt h hgraphic.1
    simp only [hc, List.singleton_append, readChar?, hslash, hplain, if_false]
  · rw [hc]
    exact readUnits?_of_lt hunit rest
  · have hpair := readUnits?_of_le hunits rest
    rw [hc, List.append_assoc]
    exact hpair

/-- No character is written with a quote in front. -/
theorem head?_escapeChar (c : Char) : ∃ d more, escapeChar c = d :: more ∧ d ≠ '"' := by
  rcases escapeChar_cases c with ⟨d, hc, -⟩ | ⟨hc, -, hquote, -⟩ | ⟨-, hc⟩ | ⟨-, hc⟩
  · exact ⟨_, _, hc, by decide⟩
  · exact ⟨_, _, hc, hquote⟩
  · exact ⟨_, _, hc, by decide⟩
  · exact ⟨_, _, hc, by decide⟩

theorem readChars?_escaped (cs : List Char) : ∀ {fuel : Nat}, cs.length < fuel →
    readChars? fuel (cs.flatMap escapeChar ++ '"' :: rest) = some (cs, rest) := by
  induction cs with
  | nil =>
    intro fuel h
    obtain ⟨fuel, rfl⟩ := Nat.exists_eq_succ_of_ne_zero (Nat.ne_of_gt h)
    rfl
  | cons c cs ih =>
    intro fuel h
    obtain ⟨fuel, rfl⟩ := Nat.exists_eq_succ_of_ne_zero (Nat.ne_of_gt (Nat.zero_lt_of_lt h))
    have hmore := ih (Nat.lt_of_succ_lt_succ h)
    have hchar := readChar?_escapeChar c (cs.flatMap escapeChar ++ '"' :: rest)
    obtain ⟨d, more, hd, hne⟩ := head?_escapeChar c
    have hopen : ¬(escapeChar c ++ (cs.flatMap escapeChar ++ '"' :: rest)).head? = some '"' := by
      rw [hd]
      simpa using hne
    rw [List.flatMap_cons, List.append_assoc, readChars?, if_neg hopen, hchar]
    simp only [Option.bind_eq_bind, Option.bind_some, hmore]
    rfl

theorem length_le_escaped (cs : List Char) : cs.length ≤ (cs.flatMap escapeChar).length := by
  induction cs with
  | nil => exact Nat.le_refl 0
  | cons c cs ih =>
    obtain ⟨d, more, hd, -⟩ := head?_escapeChar c
    simp only [List.flatMap_cons, List.length_append, hd, List.length_cons]
    omega

/-- A quoted string is read to its closing quote. -/
theorem readString?_quote (s : String) (rest : List Char) :
    readString? (s.toList.flatMap escapeChar ++ '"' :: rest) = some (s, rest) := by
  have hfuel : s.toList.length < (s.toList.flatMap escapeChar ++ '"' :: rest).length := by
    have h := length_le_escaped s.toList
    simp only [List.length_append, List.length_cons]
    omega
  simp only [readString?, readChars?_escaped s.toList hfuel, Option.map_some, String.ofList_toList]

/-! ## Integers -/

/-- A number that stands before this text has come to its end. -/
def Stops (rest : List Char) : Prop :=
  ∀ c, rest.head? = some c → c.isDigit = false ∧ c ≠ '.' ∧ c ≠ 'e' ∧ c ≠ 'E'

theorem stops_cons {c : Char} (h : c.isDigit = false ∧ c ≠ '.' ∧ c ≠ 'e' ∧ c ≠ 'E') : Stops (c :: rest) := by
  intro d hd
  obtain rfl := Option.some.inj hd
  exact h

theorem digits_append {digits : List Char} (h : ∀ c ∈ digits, c.isDigit = true) (hrest : Stops rest) :
    (digits ++ rest).takeWhile Char.isDigit = digits ∧ (digits ++ rest).dropWhile Char.isDigit = rest := by
  rw [List.takeWhile_append_of_pos h, List.dropWhile_append_of_pos h]
  cases rest with
  | nil => simp
  | cons c rest => simp [(hrest c rfl).1]

theorem isDigit_of_mem {n : Nat} : ∀ c ∈ Nat.toDigits 10 n, c.isDigit = true := fun _ hc =>
  Nat.isDigit_of_mem_toDigits (by decide) (by decide) hc

theorem head?_toDigits (n : Nat) (rest : List Char) :
    (Nat.toDigits 10 n ++ rest).head? = (Nat.toDigits 10 n).head? := by
  obtain ⟨c, cs, hcs⟩ := List.exists_cons_of_ne_nil (Nat.toDigits_ne_nil (b := 10) (n := n))
  rw [hcs]
  rfl

/-- Only zero is written with a zero in front. -/
theorem toDigits_of_zero_head {n : Nat} (h : (Nat.toDigits 10 n).head? = some '0') : Nat.toDigits 10 n = ['0'] := by
  induction n using Nat.strongRecOn with
  | ind n ih =>
    by_cases hsmall : n < 10
    · rw [Nat.toDigits_of_lt_base hsmall] at h ⊢
      rw [List.head?_cons, Option.some.injEq] at h
      rw [h]
    · have hsplit : Nat.toDigits 10 n = Nat.toDigits 10 (n / 10) ++ [Nat.digitChar (n % 10)] :=
        Nat.toDigits_of_base_le (by decide) (Nat.le_of_not_lt hsmall)
      have hfront : (Nat.toDigits 10 (n / 10)).head? = some '0' := by
        rwa [hsplit, head?_toDigits] at h
      have hzero := ih (n / 10) (by omega) hfront
      have hvalue : Nat.ofDigitChars 10 (Nat.toDigits 10 (n / 10)) 0 = n / 10 := Nat.ofDigitChars_ten_toDigits
      rw [hzero] at hvalue
      have hno : (0 : Nat) = n / 10 := hvalue
      omega

theorem readFraction?_of_stops (h : Stops rest) : readFraction? rest = some (none, rest) := by
  have hpoint : ¬rest.head? = some '.' := fun hc => (h _ hc).2.1 rfl
  rw [readFraction?, if_neg hpoint]

theorem readExponent?_of_stops (h : Stops rest) : readExponent? rest = some (none, rest) := by
  have hletter : ¬(rest.head? = some 'e' ∨ rest.head? = some 'E') := by
    rintro (hc | hc)
    · exact (h _ hc).2.2.1 rfl
    · exact (h _ hc).2.2.2 rfl
  rw [readExponent?, if_neg hletter]

theorem toList_toString (i : Int) :
    (toString i).toList = (if i < 0 then ['-'] else []) ++ Nat.toDigits 10 i.natAbs := by
  cases i with
  | ofNat n => exact Nat.toList_repr
  | negSucc n =>
    rw [if_pos (Int.negSucc_lt_zero n), Int.natAbs_negSucc, ← Nat.toList_repr]
    exact String.toList_append

theorem readNumber?_toString (i : Int) (hrest : Stops rest) :
    readNumber? ((toString i).toList ++ rest) = some (.int i, rest) := by
  obtain ⟨htake, hdrop⟩ := digits_append (isDigit_of_mem (n := i.natAbs)) hrest
  have hvalue : Nat.ofDigitChars 10 (Nat.toDigits 10 i.natAbs) 0 = i.natAbs := Nat.ofDigitChars_ten_toDigits
  have hlead : ((Nat.toDigits 10 i.natAbs).isEmpty ||
      (decide ((Nat.toDigits 10 i.natAbs).head? = some '0') && Nat.toDigits 10 i.natAbs != ['0'])) = false := by
    rw [List.isEmpty_eq_false_iff.2 Nat.toDigits_ne_nil, Bool.false_or, Bool.and_eq_false_imp]
    intro hzero
    rw [toDigits_of_zero_head (of_decide_eq_true hzero)]
    rfl
  rw [toList_toString]
  by_cases hneg : i < 0
  · rw [if_pos hneg]
    simp only [readNumber?, List.cons_append, List.nil_append, List.head?_cons, if_true,
      List.tail_cons, decide_true, htake, hdrop, hlead, Bool.false_eq_true, if_false, readFraction?_of_stops hrest,
      readExponent?_of_stops hrest, Option.bind_eq_bind, Option.bind_some, numberOf, hvalue]
    show some (Json.int (-(i.natAbs : Int)), rest) = some (.int i, rest)
    congr 3
    omega
  · have hsign : ¬(Nat.toDigits 10 i.natAbs ++ rest).head? = some '-' := by
      rw [head?_toDigits]
      intro hc
      exact absurd (isDigit_of_mem _ (List.mem_of_head? hc)) (by decide)
    rw [if_neg hneg]
    simp only [readNumber?, List.nil_append, hsign, if_false, decide_false, htake, hdrop, hlead, Bool.false_eq_true,
      readFraction?_of_stops hrest, readExponent?_of_stops hrest, Option.bind_eq_bind, Option.bind_some, numberOf, hvalue]
    show some (Json.int (i.natAbs : Int), rest) = some (.int i, rest)
    congr 3
    omega

/-! ## Values -/

mutual
/-- Whether a value has no doubles. -/
def isExact : Json → Bool
  | .null | .bool _ | .int _ | .str _ => true
  | .float _ => false
  | .arr items => areExact items
  | .obj members => membersAreExact members

def areExact : List Json → Bool
  | [] => true
  | v :: rest => v.isExact && areExact rest

def membersAreExact : List (String × Json) → Bool
  | [] => true
  | (_, v) :: rest => v.isExact && membersAreExact rest
end

theorem itemChars_cons (v w : Json) (items : List Json) :
    itemChars (v :: w :: items) = v.chars ++ ',' :: ' ' :: itemChars (w :: items) := itemChars.eq_3 _ _ (by simp)

theorem memberChars_cons (k : String) (v : Json) (m : String × Json) (members : List (String × Json)) :
    memberChars ((k, v) :: m :: members) = quote k ++ ':' :: ' ' :: v.chars ++ ',' :: ' ' :: memberChars (m :: members) :=
  memberChars.eq_3 _ _ _ (by simp)

theorem skipSpace_cons {c : Char} (h : isSpace c = false) (cs : List Char) : skipSpace (c :: cs) = c :: cs := by
  rw [skipSpace, List.dropWhile_cons_of_neg (by simp [h])]

theorem skipSpace_space (cs : List Char) : skipSpace (' ' :: cs) = skipSpace cs := rfl

theorem isSpace_of_isDigit {c : Char} (h : c.isDigit = true) : isSpace c = false := by
  have hbound := Text.toNat_of_isDigit h
  have hne : ∀ d : Char, d.toNat < 48 → c ≠ d := by
    rintro d hd rfl
    omega
  simp [isSpace, hne ' ' (by decide), hne '\t' (by decide), hne '\n' (by decide), hne '\r' (by decide)]

/-- The text of a value begins with what tells its kind; no blank and no closing bracket stands there. -/
theorem chars_begin {v : Json} (h : v.isExact = true) :
    ∃ c cs, v.chars = c :: cs ∧ isSpace c = false ∧ c ≠ ']' := by
  cases v with
  | null => exact ⟨_, _, rfl, by decide, by decide⟩
  | bool b => cases b <;> exact ⟨_, _, rfl, by decide, by decide⟩
  | float x => cases h
  | str s => exact ⟨_, _, by rw [chars, quote]; rfl, by decide, by decide⟩
  | arr items => exact ⟨_, _, by rw [chars]; rfl, by decide, by decide⟩
  | obj members => exact ⟨_, _, by rw [chars]; rfl, by decide, by decide⟩
  | int i =>
    rw [chars, toList_toString]
    split
    · exact ⟨_, _, rfl, by decide, by decide⟩
    · obtain ⟨c, cs, hcs⟩ := List.exists_cons_of_ne_nil (Nat.toDigits_ne_nil (b := 10) (n := i.natAbs))
      have hdigit := isDigit_of_mem (n := i.natAbs) c (by rw [hcs]; exact List.mem_cons_self)
      refine ⟨c, cs, hcs, isSpace_of_isDigit hdigit, ?_⟩
      rintro rfl
      cases hdigit

/-- Where an item stands the array does not close. -/
theorem not_closed_items {v : Json} (h : v.isExact = true) (items : List Json) (rest : List Char) :
    ¬(skipSpace (itemChars (v :: items) ++ rest)).head? = some ']' := by
  obtain ⟨c, cs, hcs, hspace, hne⟩ := chars_begin h
  have hhead : ∃ more, itemChars (v :: items) ++ rest = c :: more := by
    cases items with
    | nil => exact ⟨_, by rw [itemChars, hcs]; rfl⟩
    | cons w items => exact ⟨_, by rw [itemChars_cons, hcs]; rfl⟩
  obtain ⟨more, hmore⟩ := hhead
  rw [hmore, skipSpace_cons hspace]
  simpa using hne

/-- Where a member stands the object does not close. -/
theorem not_closed_members (k : String) (v : Json) (members : List (String × Json)) (rest : List Char) :
    ¬(skipSpace (memberChars ((k, v) :: members) ++ rest)).head? = some '\x7d' := by
  have hhead : ∃ more, memberChars ((k, v) :: members) ++ rest = '"' :: more := by
    cases members with
    | nil => exact ⟨_, by rw [memberChars, quote]; rfl⟩
    | cons w members => exact ⟨_, by rw [memberChars_cons, quote]; rfl⟩
  obtain ⟨more, hmore⟩ := hhead
  rw [hmore, skipSpace_cons (by decide)]
  simp

theorem behind?_of_head {word : List Char} {c : Char} {cs : List Char} (h : word.head? ≠ some c) (hne : word ≠ []) :
    behind? word (c :: cs) = none := by
  obtain ⟨d, word, rfl⟩ := List.exists_cons_of_ne_nil hne
  refine if_neg fun htake => h ?_
  rw [List.length_cons, List.take_succ_cons] at htake
  rw [List.head?_cons, (List.cons.inj htake).1]

/-- What begins with none of their letters is none of the three words. -/
theorem readWord?_of_head {c : Char} {cs : List Char} (h : c ∉ ['n', 't', 'f']) : readWord? (c :: cs) = none := by
  simp only [List.mem_cons, List.not_mem_nil, or_false, not_or] at h
  obtain ⟨hn, ht, hf⟩ := h
  have hnull : behind? "null".toList (c :: cs) = none := behind?_of_head (by simpa using Ne.symm hn) (by decide)
  have htrue : behind? "true".toList (c :: cs) = none := behind?_of_head (by simpa using Ne.symm ht) (by decide)
  have hfalse : behind? "false".toList (c :: cs) = none := behind?_of_head (by simpa using Ne.symm hf) (by decide)
  rw [readWord?, hnull, htrue, hfalse]
  rfl

theorem readValue?_space (fuel : Nat) (cs : List Char) : readValue? fuel (' ' :: cs) = readValue? fuel cs := by
  cases fuel with
  | zero => rfl
  | succ fuel => rw [readValue?, readValue?, skipSpace_space]

theorem readItems?_space (fuel : Nat) (cs : List Char) : readItems? fuel (' ' :: cs) = readItems? fuel cs := by
  cases fuel with
  | zero => rfl
  | succ fuel => rw [readItems?, readItems?, readValue?_space]

theorem readMembers?_space (fuel : Nat) (cs : List Char) : readMembers? fuel (' ' :: cs) = readMembers? fuel cs := by
  cases fuel with
  | zero => rfl
  | succ fuel => rw [readMembers?, readMembers?, skipSpace_space]

theorem readValue?_int (i : Int) (fuel : Nat) (hrest : Stops rest) :
    readValue? (fuel + 1) ((toString i).toList ++ rest) = some (.int i, rest) := by
  obtain ⟨c, cs, hcs, hspace, -⟩ := chars_begin (v := .int i) rfl
  have hsign : c = '-' ∨ c.isDigit = true := by
    have hmem : c ∈ (toString i).toList := by
      rw [chars] at hcs
      rw [hcs]
      exact List.mem_cons_self
    rw [toList_toString, List.mem_append] at hmem
    obtain hmem | hmem := hmem
    · split at hmem
      · exact .inl (List.mem_singleton.1 hmem)
      · cases hmem
    · exact .inr (isDigit_of_mem c hmem)
  have hother : ∀ d : Char, d ≠ '-' → d.isDigit = false → c ≠ d := by
    rintro d hminus hdigit rfl
    obtain h | h := hsign
    · exact hminus h
    · rw [hdigit] at h
      cases h
  have hword : readWord? (c :: (cs ++ rest)) = none := by
    apply readWord?_of_head
    simp only [List.mem_cons, List.not_mem_nil, or_false, not_or]
    exact ⟨hother _ (by decide) rfl, hother _ (by decide) rfl, hother _ (by decide) rfl⟩
  have hnumber := readNumber?_toString i hrest
  rw [chars] at hcs
  rw [hcs, List.cons_append] at hnumber ⊢
  rw [readValue?, skipSpace_cons hspace]
  simp only [List.head?_cons]
  split
  · rename_i h
    exact absurd (Option.some.inj h) (hother _ (by decide) rfl)
  · rename_i h
    exact absurd (Option.some.inj h) (hother _ (by decide) rfl)
  · rename_i h
    exact absurd (Option.some.inj h) (hother _ (by decide) rfl)
  · rw [hword, hnumber]
    rfl

theorem behind?_cons (c : Char) (cs : List Char) : behind? [c] (c :: cs) = some cs := by
  simp [behind?]

/-- The name of a member is read, and the value is to follow. -/
theorem readMembers?_name (k : String) (fuel : Nat) (cs : List Char) :
    readMembers? (fuel + 1) (quote k ++ ':' :: cs) = (readValue? fuel cs).bind fun (v, rest) =>
      match (skipSpace rest).head? with
      | some ',' => (readMembers? fuel (skipSpace rest).tail).map fun (members, rest) => ((k, v) :: members, rest)
      | some '\x7d' => some ([(k, v)], (skipSpace rest).tail)
      | _ => none := by
  have hquote : quote k ++ ':' :: cs = '"' :: (k.toList.flatMap escapeChar ++ '"' :: ':' :: cs) := by simp [quote]
  rw [hquote, readMembers?, skipSpace_cons (by decide), behind?_cons, Option.bind_eq_bind, Option.bind_some,
    readString?_quote]
  rfl

theorem stops_comma : Stops (',' :: rest) := stops_cons (by decide)
theorem stops_bracket : Stops (']' :: rest) := stops_cons (by decide)
theorem stops_brace : Stops ('\x7d' :: rest) := stops_cons (by decide)

mutual
/-- A value is read from its text, whatever follows it. -/
theorem readValue?_chars : ∀ (v : Json) {fuel : Nat} {rest : List Char}, v.isExact = true → v.chars.length ≤ fuel →
    Stops rest → readValue? fuel (v.chars ++ rest) = some (v, rest)
  | v, 0, _, hexact, hfuel, _ => by
    obtain ⟨c, cs, hcs, -⟩ := chars_begin hexact
    rw [hcs] at hfuel
    cases hfuel
  | .null, fuel + 1, rest, _, _, _ => rfl
  | .bool true, fuel + 1, rest, _, _, _ => rfl
  | .bool false, fuel + 1, rest, _, _, _ => rfl
  | .float x, _ + 1, _, hexact, _, _ => by cases hexact
  | .int i, fuel + 1, rest, _, _, hrest => by
    rw [chars]
    exact readValue?_int i fuel hrest
  | .str s, fuel + 1, rest, _, _, _ => by
    simp only [chars, quote, List.cons_append, List.append_assoc, List.nil_append]
    rw [readValue?, skipSpace_cons (by decide)]
    simp only [List.head?_cons, List.tail_cons, readString?_quote, Option.map_some]
  | .arr [], fuel + 1, rest, _, _, _ => rfl
  | .arr (v :: items), fuel + 1, rest, hexact, hfuel, _ => by
    rw [isExact] at hexact
    have hlength : (itemChars (v :: items)).length < fuel := by
      simp only [chars, List.length_cons, List.length_append, List.length_nil] at hfuel
      omega
    have hitems : readItems? fuel (itemChars (v :: items) ++ ']' :: rest) = some (v :: items, rest) :=
      readItems?_itemChars (v :: items) (List.cons_ne_nil _ _) hexact hlength
    have hopen : ¬(skipSpace (itemChars (v :: items) ++ ']' :: rest)).head? = some ']' :=
      not_closed_items (Bool.and_eq_true_iff.1 hexact).1 _ _
    simp only [chars, List.cons_append, List.append_assoc, List.nil_append]
    rw [readValue?, skipSpace_cons (by decide)]
    change (if (skipSpace (itemChars (v :: items) ++ ']' :: rest)).head? = some ']' then _ else
      (readItems? fuel (itemChars (v :: items) ++ ']' :: rest)).map _) = _
    rw [if_neg hopen, hitems, Option.map_some]
  | .obj [], fuel + 1, rest, _, _, _ => rfl
  | .obj ((k, v) :: members), fuel + 1, rest, hexact, hfuel, _ => by
    rw [isExact] at hexact
    have hlength : (memberChars ((k, v) :: members)).length < fuel := by
      simp only [chars, List.length_cons, List.length_append, List.length_nil] at hfuel
      omega
    have hmembers : readMembers? fuel (memberChars ((k, v) :: members) ++ '\x7d' :: rest) = some ((k, v) :: members, rest) :=
      readMembers?_memberChars ((k, v) :: members) (List.cons_ne_nil _ _) hexact hlength
    have hopen : ¬(skipSpace (memberChars ((k, v) :: members) ++ '\x7d' :: rest)).head? = some '\x7d' :=
      not_closed_members k v _ _
    simp only [chars, List.cons_append, List.append_assoc, List.nil_append]
    rw [readValue?, skipSpace_cons (by decide)]
    change (if (skipSpace (memberChars ((k, v) :: members) ++ '\x7d' :: rest)).head? = some '\x7d' then _ else
      (readMembers? fuel (memberChars ((k, v) :: members) ++ '\x7d' :: rest)).map _) = _
    rw [if_neg hopen, hmembers, Option.map_some]

theorem readItems?_itemChars : ∀ (items : List Json) {fuel : Nat} {rest : List Char}, items ≠ [] →
    areExact items = true → (itemChars items).length < fuel →
    readItems? fuel (itemChars items ++ ']' :: rest) = some (items, rest)
  | [], _, _, hne, _, _ => absurd rfl hne
  | _ :: _, 0, _, _, _, hfuel => absurd hfuel (Nat.not_lt_zero _)
  | [v], fuel + 1, rest, _, hexact, hfuel => by
    rw [areExact, Bool.and_eq_true] at hexact
    rw [itemChars] at hfuel ⊢
    rw [readItems?, readValue?_chars v hexact.1 (Nat.le_of_lt_succ hfuel) stops_bracket]
    simp only [Option.bind_eq_bind, Option.bind_some, skipSpace_cons (show isSpace ']' = false by decide), List.head?_cons,
      List.tail_cons]
  | v :: w :: items, fuel + 1, rest, _, hexact, hfuel => by
    rw [areExact, Bool.and_eq_true] at hexact
    rw [itemChars_cons, List.length_append, List.length_cons, List.length_cons] at hfuel
    have hmore : readItems? fuel (itemChars (w :: items) ++ ']' :: rest) = some (w :: items, rest) :=
      readItems?_itemChars (w :: items) (List.cons_ne_nil _ _) hexact.2 (by omega)
    rw [itemChars_cons, List.append_assoc, readItems?, List.cons_append, List.cons_append,
      readValue?_chars v hexact.1 (by omega) stops_comma]
    simp only [Option.bind_eq_bind, Option.bind_some, skipSpace_cons (show isSpace ',' = false by decide), List.head?_cons,
      List.tail_cons, readItems?_space, hmore, Option.map_some]

theorem readMembers?_memberChars : ∀ (members : List (String × Json)) {fuel : Nat} {rest : List Char}, members ≠ [] →
    membersAreExact members = true → (memberChars members).length < fuel →
    readMembers? fuel (memberChars members ++ '\x7d' :: rest) = some (members, rest)
  | [], _, _, hne, _, _ => absurd rfl hne
  | _ :: _, 0, _, _, _, hfuel => absurd hfuel (Nat.not_lt_zero _)
  | [(k, v)], fuel + 1, rest, _, hexact, hfuel => by
    rw [membersAreExact, Bool.and_eq_true] at hexact
    rw [memberChars, List.length_append, List.length_cons, List.length_cons] at hfuel
    rw [memberChars, List.append_assoc, List.cons_append, List.cons_append, readMembers?_name, readValue?_space,
      readValue?_chars v hexact.1 (by omega) stops_brace]
    simp only [Option.bind_some, skipSpace_cons (show isSpace '\x7d' = false by decide), List.head?_cons,
      List.tail_cons]
  | (k, v) :: w :: members, fuel + 1, rest, _, hexact, hfuel => by
    rw [membersAreExact, Bool.and_eq_true] at hexact
    simp only [memberChars_cons, List.length_append, List.length_cons] at hfuel
    have hmore : readMembers? fuel (memberChars (w :: members) ++ '\x7d' :: rest) = some (w :: members, rest) :=
      readMembers?_memberChars (w :: members) (List.cons_ne_nil _ _) hexact.2 (by omega)
    simp only [memberChars_cons, List.append_assoc, List.cons_append]
    rw [readMembers?_name, readValue?_space, readValue?_chars v hexact.1 (by omega) stops_comma]
    simp only [Option.bind_some, skipSpace_cons (show isSpace ',' = false by decide), List.head?_cons,
      List.tail_cons, readMembers?_space, hmore, Option.map_some]
end

theorem graphic_digitChar : ∀ {d : Nat}, d < 16 → IsGraphic (Nat.digitChar d)
  | 0, _ | 1, _ | 2, _ | 3, _ | 4, _ | 5, _ | 6, _ | 7, _ | 8, _ | 9, _ | 10, _ | 11, _ | 12, _ | 13, _ | 14, _ | 15, _ => by
    decide
  | _ + 16, h => absurd h (by omega)

theorem graphic_unitEscape (n : Nat) : ∀ c ∈ unitEscape n, IsGraphic c := by
  have hdigit : ∀ d : Nat, IsGraphic (Nat.digitChar (d % 16)) := fun d => graphic_digitChar (Nat.mod_lt d (by omega))
  simp only [unitEscape, hex4, List.map_cons, List.map_nil, List.forall_mem_cons]
  exact ⟨by decide, by decide, hdigit _, hdigit _, hdigit _, hdigit _, nofun⟩

theorem graphic_escapeChar (c : Char) : ∀ d ∈ escapeChar c, IsGraphic d := by
  rcases escapeChar_cases c with ⟨d, hc, hgraphic, -⟩ | ⟨hc, hgraphic, -⟩ | ⟨-, hc⟩ | ⟨-, hc⟩
  · rw [hc]
    exact List.forall_mem_cons.2 ⟨by decide, List.forall_mem_singleton.2 hgraphic⟩
  · rw [hc]
    exact List.forall_mem_singleton.2 hgraphic
  · rw [hc]
    exact graphic_unitEscape _
  · rw [hc]
    exact List.forall_mem_append.2 ⟨graphic_unitEscape _, graphic_unitEscape _⟩

theorem graphic_quote (s : String) : ∀ c ∈ quote s, IsGraphic c := by
  refine List.forall_mem_cons.2 ⟨by decide, List.forall_mem_append.2 ⟨?_, by decide⟩⟩
  exact List.forall_mem_flatMap.2 fun c _ => graphic_escapeChar c

theorem graphic_int (i : Int) : ∀ c ∈ (toString i).toList, IsGraphic c := by
  rw [toList_toString]
  refine List.forall_mem_append.2 ⟨?_, fun c hc => ?_⟩
  · split
    · decide
    · nofun
  · have hbound := Text.toNat_of_isDigit (isDigit_of_mem c hc)
    exact ⟨by omega, by omega⟩

mutual
/-- A value without doubles is printed on one line of ASCII. -/
theorem graphic_chars : ∀ (v : Json), v.isExact = true → ∀ c ∈ v.chars, IsGraphic c
  | .null, _ => by decide
  | .bool true, _ => by decide
  | .bool false, _ => by decide
  | .float _, h => by cases h
  | .int i, _ => by
    rw [chars]
    exact graphic_int i
  | .str s, _ => by
    rw [chars]
    exact graphic_quote s
  | .arr items, h => by
    rw [chars]
    exact List.forall_mem_cons.2 ⟨by decide, List.forall_mem_append.2 ⟨graphic_itemChars items h, by decide⟩⟩
  | .obj members, h => by
    rw [chars]
    exact List.forall_mem_cons.2 ⟨by decide, List.forall_mem_append.2 ⟨graphic_memberChars members h, by decide⟩⟩

theorem graphic_itemChars : ∀ (items : List Json), areExact items = true → ∀ c ∈ itemChars items, IsGraphic c
  | [], _ => nofun
  | [v], h => by
    rw [areExact, Bool.and_eq_true] at h
    rw [itemChars]
    exact graphic_chars v h.1
  | v :: w :: items, h => by
    rw [areExact, Bool.and_eq_true] at h
    rw [itemChars_cons]
    refine List.forall_mem_append.2 ⟨graphic_chars v h.1, ?_⟩
    exact List.forall_mem_cons.2 ⟨by decide, List.forall_mem_cons.2 ⟨by decide, graphic_itemChars (w :: items) h.2⟩⟩

theorem graphic_memberChars : ∀ (members : List (String × Json)), membersAreExact members = true →
    ∀ c ∈ memberChars members, IsGraphic c
  | [], _ => nofun
  | [(k, v)], h => by
    rw [membersAreExact, Bool.and_eq_true] at h
    rw [memberChars]
    refine List.forall_mem_append.2 ⟨graphic_quote k, ?_⟩
    exact List.forall_mem_cons.2 ⟨by decide, List.forall_mem_cons.2 ⟨by decide, graphic_chars v h.1⟩⟩
  | (k, v) :: w :: members, h => by
    rw [membersAreExact, Bool.and_eq_true] at h
    have hrest := graphic_memberChars (w :: members) h.2
    rw [memberChars_cons]
    refine List.forall_mem_append.2 ⟨List.forall_mem_append.2 ⟨graphic_quote k, ?_⟩, ?_⟩
    · exact List.forall_mem_cons.2 ⟨by decide, List.forall_mem_cons.2 ⟨by decide, graphic_chars v h.1⟩⟩
    · exact List.forall_mem_cons.2 ⟨by decide, List.forall_mem_cons.2 ⟨by decide, hrest⟩⟩
end

end PoolFeed.Json
