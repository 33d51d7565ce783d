import PoolFeed.Config.Loader

/-!
# How loading the settings fails

| here | there |
| --- | --- |
| `isConfiguration` | `ConfigurationError`: "on invalid YAML, a bad override or failed validation" (`ConfigLoader.load_app_config`) |
| `buildFrom`, `loadFrom` | `load_app_config`, given what `load_yaml` has read and how deep `_replace_env_vars` can go |
| `Escapes` | the exceptions that it lets through |

A failure is one of the configuration if the text breaks the grammar, the port is no integer or the settings have
issues. Some files make a load fail in other ways, for no step makes sure of the shape that the next one needs: the reader
raises errors of its own for a file that is no text or a value that its type does not hold, and whoever comes after it
takes for granted that the document is a mapping with texts as keys, and shallow. `Escapes` lists these ways, for every
answer that a reader can give, and `fails_otherwise_iff` says that there are no others. A load that fails leaves the loader
as it was, with what it has kept. Texts that spell half of a surrogate pair are left out: they have no document here
(`Answers`).
-/

namespace PoolFeed.Config

def LoadError.isConfiguration : LoadError → Bool
  | .unreadable fault => fault == .malformed
  | .badPort _ | .invalid _ => true
  | .missing _ | .notMapping | .keyNotText => false

/-! ## Overrides keep the keys -/

/-- Whether all keys of a mapping are texts. -/
def keysAreText (e : Entries) : Bool := e.all fun (k, _) => match k with | .str _ => true | _ => false

theorem keysAreText_eq_false_iff {e : Entries} : keysAreText e = false ↔ ∃ x ∈ e, ∀ s, x.1 ≠ .str s := by
  rw [keysAreText, List.all_eq_false]
  refine exists_congr fun x => and_congr_right fun _ => ?_
  obtain ⟨k, v⟩ := x
  cases k <;> simp

/-- Only the keys matter. -/
theorem keysAreText_congr : ∀ {e e' : Entries}, e.map (·.1) = e'.map (·.1) → keysAreText e = keysAreText e'
  | [], [], _ => rfl
  | [], _ :: _, h => by cases h
  | _ :: _, [], h => by cases h
  | (k, _) :: e, (k', _) :: e', h => by
    obtain ⟨hk, he⟩ := List.cons.inj h
    obtain rfl : k = k' := hk
    have ih := keysAreText_congr he
    simp only [keysAreText, List.all_cons] at ih ⊢
    rw [ih]

theorem keysAreText_putEntry (name : String) (value : Document) :
    ∀ e : Entries, keysAreText (Document.putEntry e (.str name) value) = keysAreText e
  | [] => rfl
  | (k, v) :: rest => by
    have ih := keysAreText_putEntry name value rest
    rw [Document.putEntry]
    split
    · rfl
    · simp only [keysAreText, List.all_cons] at ih ⊢
      rw [ih]

theorem keysAreText_withSections (e : Entries) (names : List String) :
    keysAreText (names.foldl withSection e) = keysAreText e := by
  induction names generalizing e with
  | nil => rfl
  | cons name names ih => rw [List.foldl_cons, ih, withSection, keysAreText_putEntry]

/-- The text of an override's variable, if there is one, has a value. -/
def Override.Reads (o : Override) (env : Env) : Prop :=
  ∀ text, nonEmpty? env o.variable_ = some text → (o.convert text).isSome = true

theorem Override.apply_cases (o : Override) (env : Env) (e : Entries) :
    (o.Reads env ∧ ∃ e', o.apply env e = .ok e' ∧ keysAreText e' = keysAreText e) ∨
      ¬o.Reads env ∧ ∃ text, o.apply env e = .error text := by
  unfold Override.apply Override.Reads
  cases nonEmpty? env o.variable_ with
  | none => exact .inl ⟨nofun, e, rfl, rfl⟩
  | some text =>
    cases hc : o.convert text with
    | none =>
      refine .inr ⟨fun h => ?_, text, by simp [hc]⟩
      simp [hc] at h
    | some value =>
      refine .inl ⟨fun text' h => ?_, write e o.section_ o.setting value, by simp only [hc], ?_⟩
      · obtain rfl := Option.some.inj h
        rw [hc, Option.isSome_some]
      · rw [write, keysAreText_putEntry]

theorem applyAll_cases (env : Env) : ∀ (os : List Override) (e : Entries),
    ((∀ o ∈ os, o.Reads env) ∧ ∃ e', os.foldlM (fun e o => o.apply env e) e = .ok e' ∧ keysAreText e' = keysAreText e) ∨
      (¬∀ o ∈ os, o.Reads env) ∧ ∃ text, os.foldlM (fun e o => o.apply env e) e = .error text
  | [], e => .inl ⟨nofun, e, rfl, rfl⟩
  | o :: os, e => by
    rw [List.foldlM_cons, List.forall_mem_cons]
    obtain ⟨hreads, e', happly, hkeys⟩ | ⟨hfails, text, happly⟩ := o.apply_cases env e
    · rw [happly]
      obtain ⟨hrest, e'', hfold, hkeys'⟩ | ⟨hrest, text, hfold⟩ := applyAll_cases env os e'
      · exact .inl ⟨⟨hreads, hrest⟩, e'', hfold, hkeys'.trans hkeys⟩
      · exact .inr ⟨fun h => hrest h.2, text, hfold⟩
    · rw [happly]
      exact .inr ⟨fun h => hfails h.1, text, rfl⟩

/-- The port in the environment is an integer, or there is none. -/
def PortReads (env : Env) : Prop :=
  ∀ text, nonEmpty? env "REDIS_PORT" = some text → (Text.integer? text).isSome = true

/-- All other overrides take any text. -/
theorem overrides_read_iff (env : Env) : (∀ o ∈ overrides, o.Reads env) ↔ PortReads env := by
  simp [overrides, Override.Reads, PortReads]

theorem applyOverrides_cases (env : Env) (e : Entries) :
    (PortReads env ∧ ∃ e', applyOverrides env e = .ok e' ∧ keysAreText e' = keysAreText e) ∨
      ¬PortReads env ∧ ∃ text, applyOverrides env e = .error text := by
  have h := applyAll_cases env overrides (overrideSections.foldl withSection e)
  rw [overrides_read_iff, keysAreText_withSections] at h
  exact h

/-! ## Placeholders keep the shape -/

theorem resolveEntries_keys (env : Env) : ∀ e : Entries, (resolveEntries env e).1.map (·.1) = e.map (·.1)
  | [] => by rw [resolveEntries]
  | (k, v) :: rest => by
    have ih := resolveEntries_keys env rest
    rw [resolveEntries]
    simp only [List.map_cons, ih]

theorem resolve_map (env : Env) (e : Entries) :
    ∃ e', (resolve env (.map e)).1 = .map e' ∧ keysAreText e' = keysAreText e :=
  ⟨(resolveEntries env e).1, by rw [resolve], keysAreText_congr (resolveEntries_keys env e)⟩

theorem ofValue_ne_map (value : Option String) (e : Entries) : ofValue value ≠ .map e := by
  unfold ofValue
  split
  · split <;> nofun
  · nofun

theorem resolve_ne_map (env : Env) {d : Document} (h : ∀ e, d ≠ .map e) (e : Entries) : (resolve env d).1 ≠ .map e := by
  cases d with
  | map e' => exact absurd rfl (h e')
  | str s =>
    rw [resolve, resolveText]
    split
    · nofun
    · exact ofValue_ne_map _ e
  | seq items =>
    rw [resolve]
    nofun
  | null | bool | int | float | bytes | date | moment | pair | set => simp [resolve]

/-! ## Failures of another kind -/

namespace Loader

theorem settingsOf_ne_map {env : Env} {d : Document} (h : ∀ e, d ≠ .map e) : settingsOf env d = .error .notMapping := by
  cases d with
  | map e => exact absurd rfl (h e)
  | null | bool | int | float | str | bytes | date | moment | seq | pair | set => rfl

theorem settingsOf_of_error {env : Env} {entries : Entries} {text : String}
    (h : applyOverrides env entries = .error text) : settingsOf env (.map entries) = .error (.badPort text) := by
  rw [settingsOf, h]

theorem settingsOf_of_ok {env : Env} {entries e' : Entries} (h : applyOverrides env entries = .ok e') :
    settingsOf env (.map entries) =
      if keysAreText e' then (Settings.ofEntries e').mapError .invalid else .error .keyNotText := by
  rw [settingsOf, h]
  rfl

/-- A mapping fails otherwise if it has a key that is no text and the overrides come to an end. -/
theorem settingsOf_map (env : Env) (entries : Entries) :
    (keysAreText entries = false ∧ PortReads env ∧ settingsOf env (.map entries) = .error .keyNotText) ∨
      ((keysAreText entries = true ∨ ¬PortReads env) ∧
        ∀ e, settingsOf env (.map entries) = .error e → e.isConfiguration = true) := by
  obtain ⟨hport, e', happly, hkeys⟩ | ⟨hport, text, happly⟩ := applyOverrides_cases env entries
  · rw [settingsOf_of_ok happly, hkeys]
    cases hk : keysAreText entries with
    | false => exact .inl ⟨rfl, hport, rfl⟩
    | true =>
      refine .inr ⟨.inl rfl, fun e h => ?_⟩
      rw [if_pos rfl] at h
      cases hchecked : Settings.ofEntries e' with
      | ok s => rw [hchecked] at h; cases h
      | error issues =>
        rw [hchecked] at h
        obtain rfl := Except.error.inj h
        rfl
  · rw [settingsOf_of_error happly]
    refine .inr ⟨.inr hport, fun e h => ?_⟩
    obtain rfl := Except.error.inj h
    rfl

/-! ## Whatever the file comes to -/

/-- What is built when reading the file has come to an answer; without a file there is none. The stack may run out while
placeholders are resolved. -/
def buildFrom (l : Loader) (overflows : Document → Bool) (answer : Option (Yaml.Result Document)) :
    Except LoadError Settings :=
  match answer with
  | none => settingsOf l.env (.map [])
  | some (.error fault) => .error (.unreadable fault)
  | some (.ok d) =>
    if d.isBlank then settingsOf l.env (.map [])
    else if overflows d then .error (.unreadable .tooDeep)
    else settingsOf l.env (resolve l.env d).1

/-- What a load comes to, with the loader that it leaves. -/
def loadFrom (l : Loader) (overflows : Document → Bool) (answer : Option (Yaml.Result Document)) (useCache : Bool) :
    Except LoadError Loaded × Loader :=
  match (if useCache then l.cached else none) with
  | some loaded => (.ok loaded, l)
  | none => match l.buildFrom overflows answer with
    | .error e => (.error e, l)
    | .ok settings =>
      let l' := { l with builds := l.builds + 1 }
      (.ok ⟨settings, l.builds⟩, if useCache then { l' with cached := some ⟨settings, l.builds⟩ } else l')

/-- What reading a file of text comes to. A text that has no document here is left out. -/
def Answers (file : Option String) (answer : Option (Yaml.Result Document)) : Prop :=
  answer = file.map Yaml.load ∧ answer ≠ some (.error .beyond)

variable {l : Loader} {overflows : Document → Bool} {answer : Option (Yaml.Result Document)} {e : LoadError}

/-- What is built of a text that is read. -/
theorem build_of_load {text : String} {d : Document} (h : Yaml.load text = .ok d) :
    (l.build (some text)).1 = settingsOf l.env (resolve l.env (if d.isBlank then .map [] else d)).1 := by
  simp only [build, document, readDocument, h]

theorem build_eq_buildFrom (l : Loader) (file : Option String) :
    (l.build file).1 = l.buildFrom (fun _ => false) (file.map Yaml.load) := by
  cases file with
  | none => rfl
  | some text =>
    cases hload : Yaml.load text with
    | error fault => simp only [build, document, readDocument, hload, buildFrom, Option.map_some]
    | ok d =>
      rw [build_of_load hload, Option.map_some, hload]
      cases hblank : d.isBlank <;> simp [buildFrom, hblank, resolve, resolveEntries]

/-- A load is what its file comes to, on a stack that does not run out. -/
theorem load_eq_loadFrom {file : Option String} (hanswer : Answers file answer) (hroom : ∀ d, overflows d = false)
    (useCache : Bool) :
    (l.load file useCache).1 = (l.loadFrom overflows answer useCache).1 ∧
    (l.load file useCache).2.1 = (l.loadFrom overflows answer useCache).2 := by
  obtain ⟨rfl, -⟩ := hanswer
  obtain rfl : overflows = fun _ => false := funext hroom
  have hbuild := build_eq_buildFrom l file
  unfold load loadFrom
  cases (if useCache then l.cached else none) with
  | some loaded => exact ⟨rfl, rfl⟩
  | none =>
    rw [← hbuild]
    obtain ⟨result, log⟩ := l.build file
    cases result <;> exact ⟨rfl, rfl⟩

/-- The answers with which a load fails in another way. -/
inductive Escapes (overflows : Document → Bool) (env : Env) : Yaml.Result Document → LoadError → Prop
  /-- The reader fails, and not because the text is no YAML. -/
  | unreadable (fault : Yaml.Fault) (kind : fault ≠ .malformed) :
      Escapes overflows env (.error fault) (.unreadable fault)
  /-- The document is nested so deep that the stack runs out while its placeholders are resolved. -/
  | tooDeep (d : Document) (present : d.isBlank = false) (deep : overflows d = true) :
      Escapes overflows env (.ok d) (.unreadable .tooDeep)
  /-- The document is a list, a set or a scalar that does not count as absent. -/
  | notMapping (d : Document) (present : d.isBlank = false) (room : overflows d = false)
      (shape : ∀ entries, d ≠ .map entries) : Escapes overflows env (.ok d) .notMapping
  /-- A key of the document is no text, and the port in the environment does not fail first. -/
  | keyNotText (entries : Entries) (room : overflows (.map entries) = false) (key : ∃ x ∈ entries, ∀ s, x.1 ≠ .str s)
      (port : PortReads env) : Escapes overflows env (.ok (.map entries)) .keyNotText

theorem Escapes.isConfiguration {env : Env} {a : Yaml.Result Document} (h : Escapes overflows env a e) :
    e.isConfiguration = false := by
  cases h with
  | unreadable fault kind => simpa [LoadError.isConfiguration] using kind
  | tooDeep | notMapping | keyNotText => rfl

theorem Escapes.buildFrom {a : Yaml.Result Document} (h : Escapes overflows l.env a e) :
    l.buildFrom overflows (some a) = .error e := by
  cases h with
  | unreadable fault kind => rfl
  | tooDeep d present deep => simp only [Loader.buildFrom, present, Bool.false_eq_true, if_false, deep, if_true]
  | notMapping d present room shape =>
    simp only [Loader.buildFrom, present, room, Bool.false_eq_true, if_false]
    exact settingsOf_ne_map (resolve_ne_map l.env shape)
  | keyNotText entries room key port =>
    have hkeys := keysAreText_eq_false_iff.2 key
    have hblank : (Document.map entries).isBlank = false := by
      obtain ⟨x, hx, -⟩ := key
      exact List.isEmpty_eq_false_iff.2 (List.ne_nil_of_mem hx)
    obtain ⟨entries', hresolve, hsame⟩ := resolve_map l.env entries
    simp only [Loader.buildFrom, hblank, room, Bool.false_eq_true, if_false, hresolve]
    obtain ⟨-, -, hfails⟩ | ⟨hkeys' | hport, -⟩ := settingsOf_map l.env entries'
    · exact hfails
    · rw [hsame, hkeys] at hkeys'
      cases hkeys'
    · exact absurd port hport

/-- Settings from an empty mapping. -/
theorem settingsOf_empty {env : Env} (h : settingsOf env (.map []) = .error e) : e.isConfiguration = true := by
  obtain ⟨hkeys, -⟩ | ⟨-, hconfig⟩ := settingsOf_map env []
  · cases hkeys
  · exact hconfig e h

theorem escapes_of_buildFrom {a : Yaml.Result Document} (h : l.buildFrom overflows (some a) = .error e)
    (hkind : e.isConfiguration = false) : Escapes overflows l.env a e := by
  cases a with
  | error fault =>
    obtain rfl := Except.error.inj h
    exact .unreadable fault (by simpa [LoadError.isConfiguration] using hkind)
  | ok d =>
    simp only [buildFrom] at h
    cases hblank : d.isBlank with
    | true =>
      rw [hblank, if_pos rfl] at h
      exact absurd (settingsOf_empty h) (by simp [hkind])
    | false =>
      rw [hblank, if_neg Bool.false_ne_true] at h
      cases hdeep : overflows d with
      | true =>
        rw [hdeep, if_pos rfl] at h
        obtain rfl := Except.error.inj h
        exact .tooDeep d hblank hdeep
      | false =>
        rw [hdeep, if_neg Bool.false_ne_true] at h
        by_cases hmap : ∃ entries, d = .map entries
        · obtain ⟨entries, rfl⟩ := hmap
          obtain ⟨entries', hresolve, hsame⟩ := resolve_map l.env entries
          rw [hresolve] at h
          obtain ⟨hkeys, hport, hfails⟩ | ⟨-, hconfig⟩ := settingsOf_map l.env entries'
          · obtain rfl := Except.error.inj (hfails.symm.trans h)
            exact .keyNotText entries hdeep (keysAreText_eq_false_iff.1 (hsame ▸ hkeys)) hport
          · exact absurd (hconfig e h) (by simp [hkind])
        · have hshape : ∀ entries, d ≠ .map entries := fun entries hd => hmap ⟨entries, hd⟩
          rw [settingsOf_ne_map (resolve_ne_map l.env hshape)] at h
          obtain rfl := Except.error.inj h
          exact .notMapping d hblank hdeep hshape

theorem buildFrom_fails_otherwise_iff (l : Loader) (overflows : Document → Bool)
    (answer : Option (Yaml.Result Document)) (e : LoadError) :
    l.buildFrom overflows answer = .error e ∧ e.isConfiguration = false ↔
      ∃ a, answer = some a ∧ Escapes overflows l.env a e := by
  cases answer with
  | none =>
    refine ⟨fun ⟨h, hkind⟩ => ?_, nofun⟩
    rw [settingsOf_empty h] at hkind
    cases hkind
  | some a =>
    constructor
    · rintro ⟨h, hkind⟩
      exact ⟨a, rfl, escapes_of_buildFrom h hkind⟩
    · rintro ⟨_, ⟨⟩, h⟩
      exact ⟨h.buildFrom, h.isConfiguration⟩

/-- A load answers from what it has kept, or as the build does. -/
theorem loadFrom_cases (l : Loader) (overflows : Document → Bool) (answer : Option (Yaml.Result Document))
    (useCache : Bool) :
    (∃ kept, useCache = true ∧ l.cached = some kept ∧ l.loadFrom overflows answer useCache = (.ok kept, l)) ∨
      ((useCache = true → l.cached = none) ∧
        ((∃ e, l.buildFrom overflows answer = .error e ∧ l.loadFrom overflows answer useCache = (.error e, l)) ∨
          ∃ s, l.buildFrom overflows answer = .ok s ∧ (l.loadFrom overflows answer useCache).1 = .ok ⟨s, l.builds⟩)) := by
  unfold loadFrom
  split
  · rename_i kept hkept
    split at hkept
    · rename_i huse
      exact .inl ⟨kept, huse, hkept, rfl⟩
    · cases hkept
  · rename_i hfresh
    refine .inr ⟨fun huse => (if_pos huse).symm.trans hfresh, ?_⟩
    split
    · rename_i e hbuild
      exact .inl ⟨e, hbuild, rfl⟩
    · rename_i settings hbuild
      exact .inr ⟨settings, hbuild, rfl⟩

/-- **A load fails in no other way than by a failure of the configuration, unless what its file comes to escapes.** That
is said of every answer of the reader and every stack; for a file of text the answer is that of `Yaml.load`. A load that
fails leaves the loader as it was. -/
theorem fails_otherwise_iff (l : Loader) (overflows : Document → Bool) (answer : Option (Yaml.Result Document))
    (useCache : Bool) :
    (∀ file, Answers file answer → (∀ d, overflows d = false) →
      (l.load file useCache).1 = (l.loadFrom overflows answer useCache).1 ∧
      (l.load file useCache).2.1 = (l.loadFrom overflows answer useCache).2) ∧
    (∀ e, (l.loadFrom overflows answer useCache).1 = .error e → (l.loadFrom overflows answer useCache).2 = l) ∧
    ∀ e, (l.loadFrom overflows answer useCache).1 = .error e ∧ e.isConfiguration = false ↔
      (useCache = true → l.cached = none) ∧ ∃ a, answer = some a ∧ Escapes overflows l.env a e := by
  refine ⟨fun file hanswer hroom => load_eq_loadFrom hanswer hroom useCache, ?_⟩
  simp only [← buildFrom_fails_otherwise_iff]
  obtain ⟨kept, huse, hkept, hload⟩ | ⟨hfresh, ⟨e, hbuild, hload⟩ | ⟨s, hbuild, hload⟩⟩ :=
    l.loadFrom_cases overflows answer useCache
  · rw [hload]
    refine ⟨nofun, fun e => ⟨fun h => (nomatch h.1), fun h => ?_⟩⟩
    cases hkept.symm.trans (h.1 huse)
  · rw [hload, hbuild]
    refine ⟨fun _ _ => rfl, fun e' => ?_⟩
    rw [Except.error.injEq, Except.error.injEq]
    exact (and_iff_right hfresh).symm
  · rw [hload, hbuild]
    exact ⟨nofun, fun e => ⟨fun h => (nomatch h.1), fun h => (nomatch h.2.1)⟩⟩

/-- The text in a list of one. -/
def onlyText? : Except Yaml.Fault Document → Option String
  | .ok (.seq [.str s]) => some s
  | _ => none

theorem load_list : Yaml.load "- a\n" = .ok (.seq [.str "a"]) := by
  have h : onlyText? (Yaml.load "- a\n") = some "a" := by decide +kernel
  generalize Yaml.load "- a\n" = d at h
  unfold onlyText? at h
  split at h
  · cases h
    rfl
  · cases h

/-- A load of a list, with room on the stack or without. -/
theorem list_fails_otherwise :
    ((start "config" [] none).load (some "- a\n")).1 = .error .notMapping ∧
    ((start "config" [] none).loadFrom (fun _ => true) (some (Yaml.load "- a\n")) true).1 =
      .error (.unreadable .tooDeep) := by
  have hload := fails_otherwise_iff (start "config" [] none) (fun _ => false) (some (.ok (.seq [.str "a"]))) true
  have hdeep := fails_otherwise_iff (start "config" [] none) (fun _ => true) (some (.ok (.seq [.str "a"]))) true
  have hanswer : Answers (some "- a\n") (some (.ok (.seq [.str "a"]))) := by
    refine ⟨?_, nofun⟩
    rw [Option.map_some, load_list]
  rw [(hload.1 _ hanswer fun _ => rfl).1, load_list]
  exact ⟨((hload.2.2 _).2 ⟨fun _ => rfl, _, rfl, .notMapping _ rfl rfl nofun⟩).1,
    ((hdeep.2.2 _).2 ⟨fun _ => rfl, _, rfl, .tooDeep _ rfl rfl⟩).1⟩

/-- Whether a load fails in another way. -/
def failsOtherwise : Except LoadError Loaded → Bool
  | .error e => !e.isConfiguration
  | .ok _ => false

/-- A list, a key that is no text, and a day that no month has. -/
theorem misshapen_fails_otherwise :
    failsOtherwise ((start "config" [] none).load (some "- a\n")).1 = true ∧
    failsOtherwise ((start "config" [] none).load (some "1: 2\n")).1 = true ∧
    failsOtherwise ((start "config" [] none).load (some "a: 2001-02-29\n")).1 = true := by
  decide +kernel

end Loader

end PoolFeed.Config
