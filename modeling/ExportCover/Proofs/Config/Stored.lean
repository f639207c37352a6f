import ExportCover.Config.Store
import ExportCover.Proofs.Config.ClosedForm
import ExportCover.Proofs.Json.RoundTrip
import ExportCover.Proofs.Text.Utf8

/-!
# Configurations in files

A configuration is found in a file as it was saved there (`parse?_fileText`). What is loaded is what
the file holds, with the keys of the schema that it lacks behind it (`fill_eq`), so that filling
adds nothing to a configuration that has them all. Edits of a configuration whose values have the
kinds of their keys keep it one that a file can hold, and a text that is no word for a switch is the
only reason for which they fail (`Editable.apply`).
-/

namespace ExportCover.Config

variable {config edited : Config} {setting : Setting} {edit : ConfigEdit} {key : String}
  {value : Json}

section Fill

/-- The settings that a configuration lacks, at their defaults. -/
def lacking (config : Config) (settings : List Setting) : Config :=
  (settings.filter fun setting => setting.key ∉ config.keys).map fun setting =>
    (setting.key, setting.default)

/-- The keys of two tables stand one after the other. -/
@[simp]
lemma keys_append (config added : Config) : keys (config ++ added) = config.keys ++ added.keys :=
  List.map_append

/-- What is lacking of some settings are those whose keys are not there. -/
lemma keys_lacking (config : Config) (settings : List Setting) :
    (config.lacking settings).keys
      = (settings.map (·.key)).filter fun key => key ∉ config.keys := by
  rw [lacking, keys, List.map_map, List.filter_map]
  rfl

/-- Filling in settings one after the other adds those that are lacking. -/
lemma foldl_fill {settings : List Setting} (once : (settings.map (·.key)).Nodup)
    (config : Config) :
    settings.foldl (fun config setting =>
        if (config.get? setting.key).isSome then config
        else config.set setting.key setting.default) config
      = config ++ config.lacking settings := by
  induction settings generalizing config with
  | nil => exact (List.append_nil config).symm
  | cons setting settings ih =>
    obtain ⟨new, once⟩ := List.nodup_cons.mp once
    rw [List.foldl_cons]
    by_cases has : setting.key ∈ config.keys
    · rw [if_pos (isSome_get?_iff.mpr has), ih once, lacking, lacking,
        List.filter_cons_of_neg (by simpa using has)]
    -- What is added does not bear on the rest, since no later setting has its key.
    · have others : (config ++ [(setting.key, setting.default)]).lacking settings
          = config.lacking settings := by
        rw [lacking, lacking, List.filter_congr]
        intro other mem
        have ne : other.key ≠ setting.key := fun same => new (List.mem_map.mpr ⟨other, mem, same⟩)
        have one : keys [(setting.key, setting.default)] = [setting.key] := rfl
        rw [keys_append, one, decide_eq_decide, List.mem_append, List.mem_singleton, or_iff_left ne]
      rw [if_neg fun some => has (isSome_get?_iff.mp some), set_of_notMem has, ih once, others,
        lacking, lacking, List.filter_cons_of_pos (by simpa using has)]
      simp

/-- What is lacking is added behind what is there. -/
theorem fill_eq (config : Config) : config.fill = config ++ config.lacking schema :=
  foldl_fill nodup_schema config

/-- Every key of the schema is there. -/
def IsComplete (config : Config) : Prop :=
  ∀ key ∈ schema.map (·.key), key ∈ config.keys

/-- A configuration that is filled up has every key. -/
lemma isComplete_fill (config : Config) : config.fill.IsComplete := by
  intro key known
  rw [fill_eq, keys_append, keys_lacking]
  by_cases has : key ∈ config.keys
  · exact List.mem_append_left _ has
  · exact List.mem_append_right _ (List.mem_filter.mpr ⟨known, by simpa using has⟩)

/-- A configuration that has every key is as it is. -/
lemma IsComplete.fill_eq_self (complete : config.IsComplete) : config.fill = config := by
  have nothing : config.lacking schema = [] := by
    rw [← List.map_eq_nil_iff (f := (·.1)), ← keys, keys_lacking, List.filter_eq_nil_iff]
    intro key known
    simpa using complete key known
  rw [fill_eq, nothing, List.append_nil]

end Fill

section Editing

/-- A value of the kind that a setting has. What a list holds makes no difference. -/
def SettingType.fits : SettingType → Json → Bool
  | .list, .array _ => true
  | .text, .string _ => true
  | .switch, .bool _ => true
  | _, _ => false

/-- A value that is read from a file as it was written there. -/
structure IsKept (value : Json) : Prop where
  exact : value.Exact
  distinct : value.Distinct

/-- A list of texts comes back from its written form. -/
lemma isKept_texts (texts : List String) : IsKept (.texts texts) where
  exact := .array (by simpa using fun text _ => Json.Exact.string text)
  distinct := .array (by simpa using fun text _ => Json.Distinct.string text)

/-- The defaults come back from their written form. -/
lemma isKept_default (mem : setting ∈ schema) : IsKept setting.default := by
  revert setting
  simp only [schema, List.forall_mem_cons]
  exact ⟨isKept_texts _, isKept_texts _, isKept_texts _, ⟨.string _, .string _⟩,
    ⟨.string _, .string _⟩, ⟨.string _, .string _⟩, ⟨.bool _, .bool _⟩, ⟨.bool _, .bool _⟩,
    isKept_texts _, List.forall_mem_nil _⟩

/-- The defaults have the type of their setting. -/
lemma fits_default (mem : setting ∈ schema) : SettingType.fits setting.type setting.default := by
  revert setting
  decide

/-- A configuration that a file can hold and that can be edited: every key stands there once, every
value is kept, and the keys of the schema have values of their kinds if they are there. -/
structure Editable (config : Config) : Prop where
  once : config.keys.Nodup
  kept : ∀ entry ∈ config, IsKept entry.2
  fits : ∀ setting ∈ schema, ∀ value, config.get? setting.key = some value →
    SettingType.fits setting.type value

/-- What a look-up finds stands in the table. -/
lemma mem_of_get? (found : config.get? key = some value) : (key, value) ∈ config := by
  obtain ⟨entry, hit, rfl⟩ := Option.map_eq_some_iff.mp found
  have same : entry.1 = key := by simpa using List.find?_some hit
  exact same ▸ List.mem_of_find?_eq_some hit

/-- Setting a key of the schema to a value of its kind. -/
lemma Editable.set (editable : config.Editable) (mem : setting ∈ schema) (kept : IsKept value)
    (fits : SettingType.fits setting.type value) : (config.set setting.key value).Editable where
  once := nodup_keys_set editable.once
  kept entry there := by
    obtain rfl | there := eq_or_mem_of_mem_set there
    · exact kept
    · exact editable.kept entry there
  fits other otherMem value' found := by
    rw [get?_set] at found
    split at found
    next same =>
      cases found
      rwa [← List.inj_on_of_nodup_map nodup_schema mem otherMem same]
    next => exact editable.fits other otherMem value' found

/-- A configuration that can be edited still can be after it is filled up. -/
lemma Editable.fill (editable : config.Editable) : config.fill.Editable := by
  rw [Config.fill]
  have filled (settings : List Setting) (known : ∀ setting ∈ settings, setting ∈ schema) :
      (settings.foldl (fun config setting =>
        if (config.get? setting.key).isSome then config
        else config.set setting.key setting.default) config).Editable := by
    induction settings generalizing config with
    | nil => exact editable
    | cons setting settings ih =>
      obtain ⟨mem, known⟩ := List.forall_mem_cons.mp known
      rw [List.foldl_cons]
      split
      next => exact ih editable known
      next => exact ih (editable.set mem (isKept_default mem) (fits_default mem)) known
  exact filled schema fun _ mem => mem

/-- A text is added to any list. -/
lemma exists_grow {items : List Json} (kept : IsKept (.array items)) (raw : String) :
    ∃ grown, grow (.array items) raw = .ok (.array grown) ∧ IsKept (.array grown) := by
  rw [grow]
  split
  · exact ⟨items, rfl, kept⟩
  · refine ⟨items ++ [.string raw], rfl, ?_, ?_⟩
    · cases kept.exact with
      | array all => exact .array (List.forall_mem_append.mpr ⟨all, by simpa using .string raw⟩)
    · cases kept.distinct with
      | array all => exact .array (List.forall_mem_append.mpr ⟨all, by simpa using .string raw⟩)

/-- The list under a key that is meant for lists grows. -/
lemma Editable.grows (editable : config.Editable) (mem : setting ∈ schema)
    (isList : setting.type = .list) (raw : String) :
    ∃ grown, grow ((config.get? setting.key).getD (.array [])) raw = .ok (.array grown) ∧
      IsKept (.array grown) := by
  cases found : config.get? setting.key with
  | none => exact exists_grow (isKept_texts []) raw
  | some value =>
    have fits := editable.fits setting mem value found
    have kept := editable.kept _ (mem_of_get? found)
    rw [isList] at fits
    cases value with
    | array items => exact exists_grow kept raw
    | _ => cases fits

/-- The new value of a key is one that its setting can have; only a switch may have none. -/
lemma Editable.editedValue (editable : config.Editable) (mem : setting ∈ schema)
    (about : edit.key = setting.key) :
    (∃ value, config.editedValue setting edit = .ok value ∧ IsKept value ∧
        SettingType.fits setting.type value) ∨
      ∃ raw, config.editedValue setting edit = .error (.notSwitch edit.key raw) := by
  cases edit with
  | unset key => exact .inl ⟨setting.default, rfl, isKept_default mem, fits_default mem⟩
  | set key raw =>
    rw [about, Config.editedValue, valueFor]
    cases type : setting.type with
    | list =>
      obtain ⟨grown, new, kept⟩ := editable.grows mem type raw
      exact .inl ⟨.array grown, new, kept, rfl⟩
    | text => exact .inl ⟨.string raw, rfl, ⟨.string raw, .string raw⟩, rfl⟩
    | switch =>
      cases meant : switch? raw with
      | none => exact .inr ⟨raw, rfl⟩
      | some value => exact .inl ⟨.bool value, rfl, ⟨.bool value, .bool value⟩, rfl⟩

/-- An edit of a key of the schema gives a configuration that can be edited again, unless it sets a
switch to a text that is no word for one. -/
theorem Editable.apply (editable : config.Editable) (complete : config.IsComplete)
    (known : edit.key ∈ schema.map (·.key)) :
    (∃ edited, config.apply edit = .ok edited ∧ edited.Editable ∧ edited.IsComplete) ∨
      ∃ raw, config.apply edit = .error (.notSwitch edit.key raw) := by
  obtain ⟨setting, mem, same⟩ := List.mem_map.mp known
  have about : edit.key = setting.key := same.symm
  rw [apply_eq, about, setting?_of_mem mem]
  dsimp only
  obtain ⟨value, new, kept, fits⟩ | ⟨raw, refused⟩ := editable.editedValue mem about
  · rw [new]
    refine .inl ⟨config.set setting.key value, rfl, editable.set mem kept fits, ?_⟩
    intro key known
    rw [keys_set_of_mem (complete _ (List.mem_map_of_mem mem))]
    exact complete key known
  · rw [refused, about]
    exact .inr ⟨raw, rfl⟩

end Editing

section Files

variable {tree : FileTree} {path : List String}

/-- The text of a configuration is read as that configuration. -/
theorem parse?_fileText (editable : config.Editable) :
    (Text.decode? (Text.encode config.fileText)).bind Json.parse? = some (.object config) := by
  have exact : Json.Exact (.object config) :=
    .object fun entry mem => (editable.kept entry mem).exact
  have distinct : Json.Distinct (.object config) :=
    .object editable.once fun entry mem => (editable.kept entry mem).distinct
  rw [Text.decode?_encode, Option.bind_some, fileText, Json.parse?_render exact distinct]

/-- Where no file is the defaults are loaded. -/
lemma load_of_absent {error : SystemError} (absent : tree.status path = .error error) :
    load tree path = fill [] := by
  rw [load, stored?, FileTree.read, absent]
  rfl

/-- A configuration that was saved is loaded again, with the keys of the schema that it lacks. -/
theorem load_of_read (editable : config.Editable)
    (saved : tree.read path = .ok (Text.encode config.fileText)) :
    load tree path = config.fill := by
  rw [load, stored?, saved]
  simp only [parse?_fileText editable]
  rfl

end Files

end ExportCover.Config
