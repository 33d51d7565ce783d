import PoolFeed.Proofs.Config.Placeholders

/-!
# The layers of the settings

| here | there |
| --- | --- |
| `Layered` | the argument of `AppConfig` in `ConfigLoader.load_app_config`: `_replace_env_vars`, and then `_apply_env_overrides` |

The settings are read from a mapping that has two layers: the document with its placeholders resolved, and over it what
the variables override. `Layered` says what that mapping is to be, for any way to fill a document: nothing of the
document is lost but what is overridden, and no override reaches any other member. `layers_iff` says when it is so.
-/

namespace PoolFeed.Config

/-! ## Members -/

/-- Whether the key is the name of a section that overrides write into. -/
def isSection : Document → Bool
  | .str s => overrideSections.contains s
  | _ => false

/-- Whether one of the overrides writes to a key of a section. -/
def overriddenBy (os : List Override) (env : Env) (section_ : String) (key : Document) : Bool :=
  os.any fun o => o.section_ == section_ && key.sameKey (.str o.setting) && (nonEmpty? env o.variable_).isSome

/-- A member stands in the place of one with the same key. -/
def Stands (fill : Document → Document → Prop) (x y : Document × Document) : Prop := y.1 = x.1 ∧ fill x.2 y.2

/-- What the settings are read from: the document, filled, with the overrides over it. -/
structure Layered (fill : Document → Document → Prop) (env : Env) (yaml data : Entries) : Prop where
  /-- Outside of the sections the members are those of the document. -/
  outside : List.Forall₂ (Stands fill) (yaml.filter (!isSection ·.1)) (data.filter (!isSection ·.1))
  /-- Every section is a mapping; its members that are not overridden are those of the document's section. -/
  inside : ∀ name ∈ overrideSections, ∃ members, member? data name = some (.map members) ∧
    List.Forall₂ (Stands fill) ((sectionOf yaml name).filter (!overriddenBy overrides env name ·.1))
      (members.filter (!overriddenBy overrides env name ·.1))
  /-- A variable that is set has its value in the place of its setting. -/
  overridden : ∀ o ∈ overrides, ∀ text, nonEmpty? env o.variable_ = some text →
    ∃ value, o.convert text = some value ∧ member? (sectionOf data o.section_) o.setting = some value

/-! ## Putting a member -/

variable {os : List Override} {o : Override} {env : Env} {e e' e'' : Entries} {name : String} {value : Document}

theorem sameKey_str {k : Document} : k.sameKey (.str name) = true ↔ k = .str name := by
  cases k <;> simp [Document.sameKey, Document.number?]

theorem member?_cons (k v : Document) (e : Entries) (name : String) :
    member? ((k, v) :: e) name = if k.sameKey (.str name) then some v else member? e name := by
  cases k with
  | str s =>
    by_cases h : s = name
    · simp [member?, sameKey_str, h]
    · simp [member?, sameKey_str, h]
  | _ => simp [member?, sameKey_str]

theorem member?_putEntry (e : Entries) (name : String) (value : Document) (other : String) :
    member? (Document.putEntry e (.str name) value) other = if name = other then some value else member? e other := by
  induction e with
  | nil => simp [Document.putEntry, member?]
  | cons x e ih =>
    obtain ⟨k, v⟩ := x
    rw [Document.putEntry]
    split
    · rename_i hk
      obtain rfl := sameKey_str.1 hk
      by_cases h : name = other <;> simp [member?_cons, sameKey_str, h]
    · rename_i hk
      rw [sameKey_str] at hk
      rw [member?_cons, ih, member?_cons]
      by_cases h : name = other
      · subst h
        rw [if_pos rfl, if_pos rfl, if_neg (by rwa [sameKey_str])]
      · rw [if_neg h, if_neg h]

/-- What is put is not seen where its key is left out. -/
theorem filter_putEntry {p : Document → Bool} (hp : p (.str name) = false) (e : Entries) (value : Document) :
    (Document.putEntry e (.str name) value).filter (p ·.1) = e.filter (p ·.1) := by
  induction e with
  | nil => simp [Document.putEntry, hp]
  | cons x e ih =>
    obtain ⟨k, v⟩ := x
    rw [Document.putEntry]
    split
    · rename_i hk
      obtain rfl := sameKey_str.1 hk
      simp [hp]
    · simp only [List.filter_cons, ih]

theorem sectionOf_putEntry (e : Entries) (name : String) (members : Entries) (other : String) :
    sectionOf (Document.putEntry e (.str name) (.map members)) other =
      if name = other then members else sectionOf e other := by
  unfold sectionOf
  rw [member?_putEntry]
  by_cases h : name = other
  · rw [if_pos h, if_pos h]
  · rw [if_neg h, if_neg h]

/-! ## The sections -/

/-- What is outside of the sections stays, and a section that is a mapping stays one. -/
structure Keeps (e e' : Entries) : Prop where
  outside : e'.filter (!isSection ·.1) = e.filter (!isSection ·.1)
  mapping : ∀ name members, member? e name = some (.map members) → ∃ members', member? e' name = some (.map members')

theorem Keeps.refl (e : Entries) : Keeps e e := ⟨rfl, fun _ members h => ⟨members, h⟩⟩

theorem Keeps.trans (h : Keeps e e') (h' : Keeps e' e'') : Keeps e e'' where
  outside := h'.outside.trans h.outside
  mapping name members hname := by
    obtain ⟨members', hname'⟩ := h.mapping name members hname
    exact h'.mapping name members' hname'

theorem keeps_putEntry (hname : name ∈ overrideSections) (e : Entries) (members : Entries) :
    Keeps e (Document.putEntry e (.str name) (.map members)) where
  outside := filter_putEntry (p := (!isSection ·)) (by simpa [isSection] using hname) e _
  mapping other members' h := by
    rw [member?_putEntry]
    split
    · exact ⟨members, rfl⟩
    · exact ⟨members', h⟩

/-- The sections are there afterwards, with the members they had. -/
theorem withSections (names : List String) (hnames : ∀ name ∈ names, name ∈ overrideSections) (e : Entries) :
    Keeps e (names.foldl withSection e) ∧ (∀ name, sectionOf (names.foldl withSection e) name = sectionOf e name) ∧
    ∀ name ∈ names, ∃ members, member? (names.foldl withSection e) name = some (.map members) := by
  induction names generalizing e with
  | nil => exact ⟨.refl e, fun _ => rfl, nofun⟩
  | cons name names ih =>
    have hkeeps : Keeps e (withSection e name) := keeps_putEntry (hnames name List.mem_cons_self) e _
    obtain ⟨hrest, hsection, hmapping⟩ := ih (fun n hn => hnames n (List.mem_cons_of_mem _ hn)) (withSection e name)
    refine ⟨hkeeps.trans hrest, fun other => ?_, ?_⟩
    · rw [List.foldl_cons, hsection, withSection, sectionOf_putEntry]
      split
      · rename_i h
        rw [h]
      · rfl
    · intro other hother
      rw [List.foldl_cons]
      obtain rfl | hother := List.mem_cons.1 hother
      · refine hrest.mapping other (sectionOf e other) ?_
        rw [withSection, member?_putEntry, if_pos rfl]
      · exact hmapping other hother

/-! ## The overrides -/

/-- What some overrides make of a mapping. -/
structure Written (os : List Override) (env : Env) (e e' : Entries) : Prop where
  keeps : Keeps e e'
  inside : ∀ name, (sectionOf e' name).filter (!overriddenBy os env name ·.1) =
    (sectionOf e name).filter (!overriddenBy os env name ·.1)
  overridden : ∀ o ∈ os, ∀ text, nonEmpty? env o.variable_ = some text →
    ∃ value, o.convert text = some value ∧ member? (sectionOf e' o.section_) o.setting = some value
  /-- A setting that no override writes to has the value that it had. -/
  untouched : ∀ name setting, (∀ o ∈ os, o.section_ = name → o.setting ≠ setting) →
    member? (sectionOf e' name) setting = member? (sectionOf e name) setting

theorem Override.apply_eq_ok (h : o.apply env e = .ok e') : nonEmpty? env o.variable_ = none ∧ e' = e ∨
    ∃ text value, nonEmpty? env o.variable_ = some text ∧ o.convert text = some value ∧
      e' = write e o.section_ o.setting value := by
  unfold apply at h
  cases htext : nonEmpty? env o.variable_ with
  | none =>
    rw [htext] at h
    cases h
    exact .inl ⟨rfl, rfl⟩
  | some text =>
    rw [htext] at h
    cases hvalue : o.convert text with
    | none =>
      simp only [hvalue] at h
      cases h
    | some value =>
      simp only [hvalue] at h
      cases h
      exact .inr ⟨text, value, rfl, hvalue, rfl⟩

theorem written_apply (hsection : o.section_ ∈ overrideSections) (h : o.apply env e = .ok e') : Written [o] env e e' := by
  obtain ⟨hunset, rfl⟩ | ⟨text, value, htext, hvalue, rfl⟩ := Override.apply_eq_ok h
  · refine ⟨.refl _, fun _ => rfl, fun o' ho' text htext => ?_, fun _ _ _ => rfl⟩
    obtain rfl := List.mem_singleton.1 ho'
    rw [hunset] at htext
    cases htext
  · refine ⟨keeps_putEntry hsection e _, fun name => ?_, fun o' ho' text' htext' => ?_, fun name setting huntouched => ?_⟩
    · rw [write, sectionOf_putEntry]
      split
      · rename_i hname
        subst hname
        refine filter_putEntry (p := fun k => !overriddenBy [o] env o.section_ k) ?_ _ _
        simp [overriddenBy, sameKey_str, htext]
      · rfl
    · obtain rfl := List.mem_singleton.1 ho'
      rw [htext] at htext'
      cases htext'
      refine ⟨value, hvalue, ?_⟩
      rw [write, sectionOf_putEntry, if_pos rfl, member?_putEntry, if_pos rfl]
    · rw [write, sectionOf_putEntry]
      split
      · rename_i hname
        subst hname
        rw [member?_putEntry, if_neg (huntouched o List.mem_cons_self rfl)]
      · rfl

theorem overriddenBy_cons (o : Override) (os : List Override) (env : Env) (name : String) (key : Document) :
    overriddenBy (o :: os) env name key = (overriddenBy [o] env name key || overriddenBy os env name key) := by
  simp only [overriddenBy, List.any_cons, List.any_nil, Bool.or_false]

/-- An override does not reach what was written before it, if it is another setting. -/
theorem Written.cons (h : Written [o] env e e') (h' : Written os env e' e'')
    (hother : ∀ o' ∈ os, o.section_ = o'.section_ → o.setting ≠ o'.setting) : Written (o :: os) env e e'' where
  keeps := h.keeps.trans h'.keeps
  inside name := by
    have hsplit : ∀ members : Entries, members.filter (!overriddenBy (o :: os) env name ·.1) =
        (members.filter (!overriddenBy os env name ·.1)).filter (!overriddenBy [o] env name ·.1) := fun members => by
      rw [List.filter_filter]
      simp only [overriddenBy_cons o os, Bool.not_or]
    have hswap : ∀ members : Entries, members.filter (!overriddenBy (o :: os) env name ·.1) =
        (members.filter (!overriddenBy [o] env name ·.1)).filter (!overriddenBy os env name ·.1) := fun members => by
      rw [List.filter_filter]
      simp only [overriddenBy_cons o os, Bool.not_or, Bool.and_comm]
    rw [hsplit, h'.inside, ← hsplit, hswap, h.inside, ← hswap]
  overridden o' ho' text htext := by
    obtain rfl | ho' := List.mem_cons.1 ho'
    · obtain ⟨value, hvalue, hmember⟩ := h.overridden o' List.mem_cons_self text htext
      refine ⟨value, hvalue, ?_⟩
      rw [h'.untouched _ _ fun o'' ho'' hsection => (hother o'' ho'' hsection.symm).symm, hmember]
    · exact h'.overridden o' ho' text htext
  untouched name setting hnone := by
    rw [h'.untouched name setting fun o' ho' => hnone o' (List.mem_cons_of_mem _ ho')]
    exact h.untouched name setting fun o' ho' => hnone o' (List.mem_singleton.1 ho' ▸ List.mem_cons_self)

theorem written_all (hsections : ∀ o ∈ os, o.section_ ∈ overrideSections)
    (hdistinct : os.Pairwise fun o o' => o.section_ = o'.section_ → o.setting ≠ o'.setting)
    (h : os.foldlM (fun e o => o.apply env e) e = .ok e') : Written os env e e' := by
  induction os generalizing e with
  | nil =>
    cases h
    exact ⟨.refl _, fun _ => rfl, nofun, fun _ _ _ => rfl⟩
  | cons o os ih =>
    rw [List.foldlM_cons] at h
    rw [List.pairwise_cons] at hdistinct
    cases hfirst : o.apply env e with
    | error text =>
      rw [hfirst] at h
      cases h
    | ok e₁ =>
      rw [hfirst] at h
      have hone := written_apply (hsections o List.mem_cons_self) hfirst
      exact hone.cons (ih (fun o' ho' => hsections o' (List.mem_cons_of_mem _ ho')) hdistinct.2 h) hdistinct.1

/-- No two overrides write to one setting, and all write into the sections. -/
theorem overrides_distinct : overrides.Pairwise fun o o' => o.section_ = o'.section_ → o.setting ≠ o'.setting := by
  simp [overrides]

theorem overrides_sections : ∀ o ∈ overrides, o.section_ ∈ overrideSections := by
  simp [overrides, overrideSections]

/-! ## The layers -/

/-- The members of a document that have a place under the overrides. -/
def keptMembers (env : Env) (yaml : Entries) : Entries :=
  yaml.filter (!isSection ·.1) ++
    overrideSections.flatMap fun name => (sectionOf yaml name).filter (!overriddenBy overrides env name ·.1)

theorem member?_resolveEntries (env : Env) (yaml : Entries) (name : String) :
    member? (resolveEntries env yaml).1 name = (member? yaml name).map fun d => (resolve env d).1 := by
  rw [resolveEntries_eq]
  induction yaml with
  | nil => rfl
  | cons x yaml ih =>
    obtain ⟨k, v⟩ := x
    rw [List.map_cons, member?_cons, member?_cons, ih]
    split <;> rfl

theorem sectionOf_resolveEntries (env : Env) (yaml : Entries) (name : String) :
    sectionOf (resolveEntries env yaml).1 name = (resolveEntries env (sectionOf yaml name)).1 := by
  unfold sectionOf
  rw [member?_resolveEntries]
  cases member? yaml name with
  | none => rfl
  | some d =>
    by_cases hmap : ∃ members, d = .map members
    · obtain ⟨members, rfl⟩ := hmap
      simp only [Option.map_some, resolve]
    · have hother : ∀ members, d ≠ .map members := fun members hd => hmap ⟨members, hd⟩
      have hresolved := resolve_ne_map env hother
      rw [Option.map_some]
      split
      · rename_i members hd
        exact absurd (Option.some.inj hd) (hresolved members)
      · split
        · rename_i members hd
          exact absurd (Option.some.inj hd) (hother members)
        · rfl

/-- Members stand in the place of those that they are resolved from if each is filled so. -/
theorem stands_resolved_iff {fill : Document → Document → Prop} (p : Document → Bool) (members : Entries) :
    List.Forall₂ (Stands fill) (members.filter (p ·.1)) ((resolveEntries env members).1.filter (p ·.1)) ↔
      ∀ x ∈ members.filter (p ·.1), fill x.2 (resolve env x.2).1 := by
  rw [resolveEntries_eq, List.filter_map, List.forall₂_map_right_iff]
  refine List.forall₂_same.trans (forall₂_congr fun x _ => ?_)
  exact and_iff_right rfl

/-- The layers are as they are to be for a way to fill a document if each member with a place is filled so. -/
theorem layered_resolved_iff {fill : Document → Document → Prop} {yaml data : Entries}
    (h : applyOverrides env (resolveEntries env yaml).1 = .ok data) :
    Layered fill env yaml data ↔ ∀ x ∈ keptMembers env yaml, fill x.2 (resolve env x.2).1 := by
  obtain ⟨hsections, hsame, hmapping⟩ := withSections overrideSections (fun _ h => h) (resolveEntries env yaml).1
  have hwritten := written_all overrides_sections overrides_distinct h
  have houtside : data.filter (!isSection ·.1) = (resolveEntries env yaml).1.filter (!isSection ·.1) :=
    hwritten.keeps.outside.trans hsections.outside
  have hinside : ∀ name, (sectionOf data name).filter (!overriddenBy overrides env name ·.1) =
      (resolveEntries env (sectionOf yaml name)).1.filter (!overriddenBy overrides env name ·.1) := fun name => by
    rw [hwritten.inside, hsame, sectionOf_resolveEntries]
  have hthere : ∀ name ∈ overrideSections, member? data name = some (.map (sectionOf data name)) := fun name hname => by
    obtain ⟨members, hmembers⟩ := hmapping name hname
    obtain ⟨members', hmembers'⟩ := hwritten.keeps.mapping name members hmembers
    rw [sectionOf, hmembers']
  rw [keptMembers, List.forall_mem_append, List.forall_mem_flatMap]
  constructor
  · intro hlayers
    refine ⟨(stands_resolved_iff (!isSection ·) yaml).1 (houtside ▸ hlayers.outside), fun name hname => ?_⟩
    obtain ⟨members, hmembers, hstands⟩ := hlayers.inside name hname
    rw [hthere name hname, Option.some.injEq, Document.map.injEq] at hmembers
    rw [← hmembers, hinside] at hstands
    exact (stands_resolved_iff (!overriddenBy overrides env name ·) _).1 hstands
  · rintro ⟨hout, hin⟩
    refine ⟨houtside ▸ (stands_resolved_iff (!isSection ·) yaml).2 hout, fun name hname => ?_, hwritten.overridden⟩
    refine ⟨_, hthere name hname, ?_⟩
    rw [hinside]
    exact (stands_resolved_iff (!overriddenBy overrides env name ·) _).2 (hin name hname)

namespace Loader

variable {l : Loader} {text : String} {yaml : Entries}

/-- **The layers of the settings.** If the text is a mapping whose keys are texts, and the port in the environment reads,
the settings come from a mapping `data`. In it the variables that are set override their settings with their values; the
sections are mappings; and every other member is the one of the text, filled: its placeholders have given way to their
values, or to nothing, and the rest is as it was. Pairs stay as they are. So the same holds with the pairs filled, too, if
and only if filling changes none of the pairs in the members that are not overridden. -/
theorem layers_iff (hload : Yaml.load text = .ok (.map yaml)) (hkeys : keysAreText yaml = true)
    (hport : PortReads l.env) :
    ∃ data, applyOverrides l.env (resolveEntries l.env yaml).1 = .ok data ∧
      (l.build (some text)).1 = (Settings.ofEntries data).mapError .invalid ∧
      Layered (Filled false l.env) l.env yaml data ∧
      (Layered (Filled true l.env) l.env yaml data ↔
        ∀ x ∈ keptMembers l.env yaml, ∀ p ∈ pairsOf x.2, Filled true l.env p p) := by
  obtain ⟨-, data, happly, hdata⟩ | ⟨hfails, -⟩ := applyOverrides_cases l.env (resolveEntries l.env yaml).1
  · refine ⟨data, happly, ?_, ?_, ?_⟩
    · have hresolve : (resolve l.env (if (Document.map yaml).isBlank then .map [] else .map yaml)).1 =
          .map (resolveEntries l.env yaml).1 := by
        cases yaml <;> simp [Document.isBlank, resolve]
      rw [keysAreText_congr (resolveEntries_keys l.env yaml), hkeys] at hdata
      rw [build_of_load hload, hresolve, settingsOf_of_ok happly, hdata, if_pos rfl]
    · exact (layered_resolved_iff happly).2 fun x _ => (filled_resolve_iff x.2).2 nofun
    · rw [layered_resolved_iff happly]
      refine forall₂_congr fun x _ => (filled_resolve_iff x.2).trans ?_
      exact forall_prop_of_true rfl
  · exact absurd hport hfails

/-- A pair whose second part is a placeholder. -/
def omapText : String := "a: !!omap [b: \"$\x7bV\x7d\"]\n"

def omapEntries : Entries := [(.str "a", .seq [.pair (.str "b") (.str "$\x7bV\x7d")])]

/-- The texts in a document that is one member with one pair. -/
def onePair? : Except Yaml.Fault Document → Option (String × String × String)
  | .ok (.map [(.str a, .seq [.pair (.str b) (.str v)])]) => some (a, b, v)
  | _ => none

theorem load_omapText : Yaml.load omapText = .ok (.map omapEntries) := by
  have h : onePair? (Yaml.load omapText) = some ("a", "b", "$\x7bV\x7d") := by decide +kernel
  generalize Yaml.load omapText = d at h
  unfold onePair? at h
  split at h
  · cases h
    rfl
  · cases h

/-- A port is written into a section that the document does not have, beside a pair that stays as it is. -/
theorem layers_omapText :
    let l := start "config" [("V", "x"), ("REDIS_PORT", "6380")] none
    ∃ data, (l.build (some omapText)).1 = (Settings.ofEntries data).mapError .invalid ∧
      Layered (Filled false l.env) l.env omapEntries data := by
  intro l
  have hport : PortReads l.env := by
    intro text htext
    cases htext
    decide +kernel
  obtain ⟨data, -, hbuild, hlayers, -⟩ := layers_iff (l := l) load_omapText rfl hport
  exact ⟨data, hbuild, hlayers⟩

/-- A variable is set, and in a pair its placeholder is still there. -/
theorem omap_placeholder_kept :
    let env : Env := [("V", "x")]
    Yaml.load omapText = .ok (.map omapEntries) ∧ keysAreText omapEntries = true ∧
      ∃ data, applyOverrides env (resolveEntries env omapEntries).1 = .ok data ∧
        ¬ Layered (Filled true env) env omapEntries data := by
  intro env
  have hport : PortReads env := nofun
  obtain ⟨-, data, happly, -⟩ | ⟨hfails, -⟩ := applyOverrides_cases env (resolveEntries env omapEntries).1
  · refine ⟨load_omapText, rfl, data, happly, fun hlayers => ?_⟩
    have hfilled := (layered_resolved_iff happly).1 hlayers _ (List.mem_append_left _ List.mem_cons_self)
    cases (filled_resolve_iff _).1 hfilled rfl _ List.mem_cons_self with
    | pair _ hvalue =>
      cases hvalue with
      | text hreplaced =>
        have hsame : Document.str "$\x7bV\x7d" = .str "x" := replaced_iff.1 hreplaced
        exact absurd (Document.str.inj hsame) (by decide)
      | leaf hleaf => cases hleaf
    | kept hpairs => cases hpairs
    | leaf hleaf => cases hleaf
  · exact absurd hport hfails

end Loader

end PoolFeed.Config
