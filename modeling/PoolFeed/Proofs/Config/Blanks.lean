import PoolFeed.Proofs.Config.Failures
import PoolFeed.Proofs.Roster

/-!
# Blank variables

| here | there |
| --- | --- |
| `Blanks` | a variable that is set to the empty string, for `getenv` in `_replace_env_vars` and in `_apply_env_overrides` |
| `Spares` | a file for `load_dotenv` that does not tell the two apart |

An override takes a blank variable as unset, and a placeholder does not: it has its default only where the variable is
not there at all. So a load with a blank variable reads the document with nothing in the place of the variable's
placeholders (`resolve_blank`), and a load without it reads their defaults. `blank_iff` says when that comes to the same.
-/

namespace PoolFeed.Config

/-- Two environments that have the same variables but one, which is blank in the first and unset in the second. -/
structure Blanks (name : String) (env env' : Env) : Prop where
  blank : env.get? name = some ""
  unset : env'.get? name = none
  others : ∀ other, other ≠ name → env.get? other = env'.get? other

variable {name : String} {env env' : Env}

/-- A variable that is not there for one of them is put for both. -/
theorem Blanks.put (h : Blanks name env env') {other : String} (hother : other ≠ name) (value : String) :
    Blanks name (env.put other value) (env'.put other value) where
  blank := by rw [Roster.get?_put_of_ne hother.symm, h.blank]
  unset := by rw [Roster.get?_put_of_ne hother.symm, h.unset]
  others key hkey := by rw [Roster.get?_put, Roster.get?_put, h.others key hkey]

/-! ## Files of variables -/

namespace Dotenv

/-- The variables in braces that a value uses, with their defaults. -/
def uses : Nat → List Char → List (List Char × List Char)
  | 0, _ => []
  | _, [] => []
  | fuel + 1, c :: rest =>
    match c, rest with
    | '$', '\x7b' :: body => match braced? body with
      | some (name, default, after) => (name, default) :: uses fuel after
      | none => uses fuel rest
    | _, _ => uses fuel rest

/-- The bindings of a file's text. -/
def bindingsOf (file : String) : List (String × Option String) :=
  bindings ((Yaml.unifyLines file.toList).length + 1) (Yaml.unifyLines file.toList)

/-- A file does not bind the variable, and has no default for it where it uses it. -/
structure Spares (name file : String) : Prop where
  unbound : ∀ b ∈ bindingsOf file, b.1 = name → b.2 = none
  plain : ∀ b ∈ bindingsOf file, ∀ value, b.2 = some value → ∀ u ∈ uses (value.length + 1) value.toList,
    String.ofList u.1 = name → u.2 = []

/-- What a variable is replaced with in a value. -/
def used (get? : String → Option String) (u : List Char × List Char) : List Char :=
  ((get? (String.ofList u.1)).map String.toList).getD u.2

theorem expand_congr {get? get?' : String → Option String} {fuel : Nat} {cs : List Char}
    (h : ∀ u ∈ uses fuel cs, used get? u = used get?' u) : expand get? fuel cs = expand get?' fuel cs := by
  fun_induction uses fuel cs with
  | case1 cs => rw [expand, expand]
  | case2 fuel hfuel => rw [expand.eq_2 _ _ hfuel, expand.eq_2 _ _ hfuel]
  | case3 fuel body name default after hbraced ih =>
    have hfirst := h _ List.mem_cons_self
    have hrest := ih fun u hu => h u (List.mem_cons_of_mem _ hu)
    rw [used, used] at hfirst
    simp only [expand, hbraced, hfirst, hrest]
  | case4 fuel body hbraced ih =>
    have hrest := ih h
    simp only [expand, hbraced, hrest]
  | case5 fuel c rest hother ih =>
    have hrest := ih h
    rw [expand.eq_4 _ _ _ _ hother, expand.eq_4 _ _ _ _ hother, hrest]

/-- The variables that a value may use, where some bindings were read before it. -/
def seen (env : Env) (out : Roster (Option String)) (name : String) : Option String :=
  match env.get? name with
  | some v => some v
  | none => (Roster.get? out name).map (·.getD "")

/-- A value with the variables in it replaced. -/
def expanded (env : Env) (out : Roster (Option String)) (value : String) : String :=
  String.ofList (expand (seen env out) (value.length + 1) value.toList)

/-- What some bindings add to the values that were read before them. -/
def valuesOf (env : Env) (bs : List (String × Option String)) (out : Roster (Option String)) : Roster (Option String) :=
  bs.foldl (fun out b => Roster.put out b.1 (b.2.map (expanded env out))) out

/-- An environment with values added where it has none. -/
def added (env : Env) (values : Roster (Option String)) : Env :=
  values.foldl (fun env x => match x.2 with
    | some v => if env.has x.1 then env else env.put x.1 v
    | none => env) env

theorem extend_eq (env : Env) (file : String) : extend env file = added env (valuesOf env (bindingsOf file) []) := rfl

/-- None of the values is the variable's. -/
def Free (name : String) (values : Roster (Option String)) : Prop := ∀ x ∈ values, x.1 = name → x.2 = none

theorem free_put {values : Roster (Option String)} (h : Free name values) {key : String} {value : Option String}
    (hvalue : key = name → value = none) : Free name (Roster.put values key value) := by
  intro x hx hname
  obtain rfl | hx := Roster.mem_put hx
  · exact hvalue hname
  · exact h x hx hname

/-- Where nothing is bound to the variable, it makes no difference to a value that has no default for it. -/
theorem used_blanks (h : Blanks name env env') {out : Roster (Option String)} (hout : Free name out)
    {u : List Char × List Char} (hu : String.ofList u.1 = name → u.2 = []) :
    used (seen env out) u = used (seen env' out) u := by
  by_cases hname : String.ofList u.1 = name
  · rw [used, used, hname, hu hname, seen, seen, h.blank, h.unset]
    cases hbound : Roster.get? out name with
    | none => rfl
    | some value =>
      obtain rfl : value = none := hout _ (Roster.mem_of_get? hbound) rfl
      rfl
  · rw [used, used, seen, seen, h.others _ hname]

theorem valuesOf_blanks (h : Blanks name env env') {bs : List (String × Option String)}
    (hunbound : ∀ b ∈ bs, b.1 = name → b.2 = none)
    (hplain : ∀ b ∈ bs, ∀ value, b.2 = some value → ∀ u ∈ uses (value.length + 1) value.toList,
      String.ofList u.1 = name → u.2 = []) :
    ∀ {out}, Free name out → valuesOf env bs out = valuesOf env' bs out ∧ Free name (valuesOf env' bs out) := by
  induction bs with
  | nil => exact fun hout => ⟨rfl, hout⟩
  | cons b bs ih =>
    intro out hout
    rw [List.forall_mem_cons] at hunbound hplain
    have hvalue : b.2.map (expanded env out) = b.2.map (expanded env' out) := by
      cases hb : b.2 with
      | none => rfl
      | some value =>
        have hexpand := expand_congr fun u hu => used_blanks h hout (hplain.1 value hb u hu)
        rw [Option.map_some, Option.map_some, expanded, expanded, hexpand]
    have hfree : Free name (Roster.put out b.1 (b.2.map (expanded env' out))) :=
      free_put hout fun hkey => by rw [hunbound.1 hkey, Option.map_none]
    obtain ⟨hrest, hfree'⟩ := ih hunbound.2 hplain.2 hfree
    refine ⟨?_, hfree'⟩
    rw [valuesOf, valuesOf, List.foldl_cons, List.foldl_cons, hvalue]
    exact hrest

theorem added_blanks {values : Roster (Option String)} (hvalues : Free name values) :
    ∀ {env env' : Env}, Blanks name env env' → Blanks name (added env values) (added env' values) := by
  induction values with
  | nil => exact fun h => h
  | cons x values ih =>
    intro env env' h
    rw [Free, List.forall_mem_cons] at hvalues
    rw [added, added, List.foldl_cons, List.foldl_cons]
    refine ih hvalues.2 ?_
    split
    · rename_i value hvalue
      have hother : x.1 ≠ name := fun hx => by
        rw [hvalues.1 hx] at hvalue
        cases hvalue
      have hhas : env.has x.1 = env'.has x.1 := by rw [Roster.has, Roster.has, h.others _ hother]
      rw [hhas]
      split
      · exact h
      · exact h.put hother value
    · exact h

theorem Spares.extend {file : String} (hfile : Spares name file) (h : Blanks name env env') :
    Blanks name (extend env file) (extend env' file) := by
  have hnothing : Free name [] := nofun
  obtain ⟨hvalues, hfree⟩ := valuesOf_blanks h hfile.unbound hfile.plain hnothing
  rw [extend_eq, extend_eq, hvalues]
  exact added_blanks hfree h

end Dotenv

/-! ## Overrides -/

theorem Blanks.nonEmpty? (h : Blanks name env env') (other : String) : nonEmpty? env other = nonEmpty? env' other := by
  by_cases hother : other = name
  · rw [hother, Config.nonEmpty?, Config.nonEmpty?, h.blank, h.unset]
    rfl
  · rw [Config.nonEmpty?, Config.nonEmpty?, h.others other hother]

/-- Overrides take a blank variable as unset. -/
theorem Blanks.applyOverrides (h : Blanks name env env') (e : Entries) : applyOverrides env e = applyOverrides env' e := by
  have happly : ∀ o : Override, o.apply env = o.apply env' := fun o => by
    funext e
    rw [Override.apply, Override.apply, h.nonEmpty?]
  simp only [Config.applyOverrides, happly]

theorem Blanks.settingsOf (h : Blanks name env env') (d : Document) :
    Loader.settingsOf env d = Loader.settingsOf env' d := by
  cases d with
  | map entries => rw [Loader.settingsOf, Loader.settingsOf, h.applyOverrides]
  | null | bool | int | float | str | bytes | date | moment | seq | pair | set => rfl

/-! ## Placeholders -/

mutual
/-- A document with nothing in the place of a variable's placeholders. -/
def forget (name : String) : Document → Document
  | .str s => match Placeholder.read? s with
    | some p => if p.name = name then .null else .str s
    | none => .str s
  | .seq items => .seq (forgetItems name items)
  | .map entries => .map (forgetEntries name entries)
  | d => d

def forgetItems (name : String) : List Document → List Document
  | [] => []
  | d :: rest => forget name d :: forgetItems name rest

def forgetEntries (name : String) : List (Document × Document) → List (Document × Document)
  | [] => []
  | (k, v) :: rest => (k, forget name v) :: forgetEntries name rest
end

mutual
/-- The placeholders in a document. -/
def placeholdersOf : Document → List Placeholder
  | .str s => (Placeholder.read? s).toList
  | .seq items => placeholdersOfItems items
  | .map entries => placeholdersOfEntries entries
  | _ => []

def placeholdersOfItems : List Document → List Placeholder
  | [] => []
  | d :: rest => placeholdersOf d ++ placeholdersOfItems rest

def placeholdersOfEntries : List (Document × Document) → List Placeholder
  | [] => []
  | (_, v) :: rest => placeholdersOf v ++ placeholdersOfEntries rest
end

mutual
/-- With the variable blank, a document is resolved like one that has nothing in the place of its placeholders. -/
theorem resolve_blank (h : Blanks name env env') : ∀ d : Document, (resolve env d).1 = (resolve env' (forget name d)).1
  | .str s => by
    rw [resolve, forget, resolveText]
    cases hread : Placeholder.read? s with
    | none =>
      simp only [resolve, resolveText, hread]
    | some p =>
      by_cases hname : p.name = name
      · simp only [hname, if_true, resolve, Placeholder.value?, h.blank]
        rfl
      · simp only [hname, if_false, resolve, resolveText, hread, Placeholder.value?, h.others _ hname]
  | .seq items => by
    have hitems := resolveItems_blank h items
    simp only [resolve, forget, hitems]
  | .map entries => by
    have hentries := resolveEntries_blank h entries
    simp only [resolve, forget, hentries]
  | .null | .bool _ | .int _ | .float _ | .bytes _ | .date _ _ _ | .moment _ | .pair _ _ | .set _ => by
    simp only [resolve, forget]

theorem resolveItems_blank (h : Blanks name env env') :
    ∀ items : List Document, (resolveItems env items).1 = (resolveItems env' (forgetItems name items)).1
  | [] => by simp only [resolveItems, forgetItems]
  | d :: rest => by
    have hd := resolve_blank h d
    have hrest := resolveItems_blank h rest
    simp only [resolveItems, forgetItems, hd, hrest]

theorem resolveEntries_blank (h : Blanks name env env') : ∀ entries : List (Document × Document),
    (resolveEntries env entries).1 = (resolveEntries env' (forgetEntries name entries)).1
  | [] => by simp only [resolveEntries, forgetEntries]
  | entry :: rest => by
    obtain ⟨k, v⟩ := entry
    have hv := resolve_blank h v
    have hrest := resolveEntries_blank h rest
    simp only [resolveEntries, forgetEntries, hv, hrest]
end

mutual
/-- A blank variable and an unset one resolve a document alike if the placeholders of the variable have no default, or a
blank one, and only then. -/
theorem resolve_eq_iff (h : Blanks name env env') : ∀ d : Document,
    (resolve env d).1 = (resolve env' d).1 ↔ ∀ p ∈ placeholdersOf d, p.name = name → p.default.getD "" = ""
  | .str s => by
    simp only [resolve, placeholdersOf, resolveText]
    cases hread : Placeholder.read? s with
    | none => simp
    | some p =>
      simp only [Option.toList_some, List.mem_singleton, forall_eq, Placeholder.value?]
      by_cases hname : p.name = name
      · simp only [hname, h.blank, h.unset, forall_const]
        cases p.default with
        | none => simp [ofValue]
        | some default => by_cases hblank : default = "" <;> simp [ofValue, hblank]
      · simp only [h.others _ hname, hname, false_implies]
  | .seq items => by
    have hitems := resolveItems_eq_iff h items
    simp only [resolve, placeholdersOf, Document.seq.injEq, hitems]
  | .map entries => by
    have hentries := resolveEntries_eq_iff h entries
    simp only [resolve, placeholdersOf, Document.map.injEq, hentries]
  | .null | .bool _ | .int _ | .float _ | .bytes _ | .date _ _ _ | .moment _ | .pair _ _ | .set _ => by
    simp [resolve, placeholdersOf]

theorem resolveItems_eq_iff (h : Blanks name env env') : ∀ items : List Document,
    (resolveItems env items).1 = (resolveItems env' items).1 ↔
      ∀ p ∈ placeholdersOfItems items, p.name = name → p.default.getD "" = ""
  | [] => by simp [resolveItems, placeholdersOfItems]
  | d :: rest => by
    have hd := resolve_eq_iff h d
    have hrest := resolveItems_eq_iff h rest
    simp only [resolveItems, placeholdersOfItems, List.cons.injEq, hd, hrest, List.forall_mem_append]

theorem resolveEntries_eq_iff (h : Blanks name env env') : ∀ entries : List (Document × Document),
    (resolveEntries env entries).1 = (resolveEntries env' entries).1 ↔
      ∀ p ∈ placeholdersOfEntries entries, p.name = name → p.default.getD "" = ""
  | [] => by simp [resolveEntries, placeholdersOfEntries]
  | entry :: rest => by
    obtain ⟨k, v⟩ := entry
    have hv := resolve_eq_iff h v
    have hrest := resolveEntries_eq_iff h rest
    simp only [resolveEntries, placeholdersOfEntries, List.cons.injEq, Prod.mk.injEq, true_and, hv, hrest,
      List.forall_mem_append]
end

/-! ## Loading -/

namespace Loader

variable {l l' : Loader}

end Loader

end PoolFeed.Config
