import Mathlib.Data.List.Nodup
import ExportCover.Config.Edit
import ExportCover.Proofs.Outcome

/-!
# Configurations as tables

Setting a key changes the value of that key alone (`get?_set`) and keeps the order of the keys
(`keys_set`). A table is known by its keys and what it holds under them (`eq_of_get?_eq`). An edit
looks its key up in the schema, finds the new value and sets it (`apply_eq`).
-/

namespace ExportCover

namespace Config

/-- The keys of a configuration, in order. -/
def keys (config : Config) : List String :=
  config.map (·.1)

variable {config edited : Config} {key other : String} {value : Json}

/-- A look-up starts with the first entry. -/
@[simp]
lemma get?_cons (entry : String × Json) (config : Config) :
    get? (entry :: config) key = if entry.1 = key then some entry.2 else config.get? key := by
  by_cases same : entry.1 = key <;> simp [get?, same]

/-- The keys start with that of the first entry. -/
@[simp]
lemma keys_cons (entry : String × Json) (config : Config) :
    keys (entry :: config) = entry.1 :: config.keys :=
  rfl

/-- Setting a key gives it the value, and the other keys keep theirs. -/
lemma get?_set : (config.set key value).get? other
    = if key = other then some value else config.get? other := by
  induction config with
  | nil => simp [set, get?]
  | cons entry rest ih =>
    rw [set]
    by_cases taken : entry.1 = key
    · rw [if_pos (by simpa using taken), get?_cons, get?_cons]
      by_cases here : key = other <;> simp [here, taken]
    · rw [if_neg (by simpa using taken), get?_cons, get?_cons, ih]
      by_cases here : key = other
      · subst here
        simp [taken]
      · simp [here]

/-- A look-up finds something exactly if the key is there. -/
lemma isSome_get?_iff : (config.get? key).isSome ↔ key ∈ config.keys := by
  induction config with
  | nil => simp [get?, keys]
  | cons entry rest ih =>
    rw [get?_cons, keys_cons, List.mem_cons]
    by_cases same : entry.1 = key
    · simp [same]
    · simp [ih, same, Ne.symm same]

/-- A key that is set stays where it is, and a new key comes last. -/
lemma keys_set : (config.set key value).keys
    = if key ∈ config.keys then config.keys else config.keys ++ [key] := by
  induction config with
  | nil => rfl
  | cons entry rest ih =>
    rw [set]
    by_cases taken : entry.1 = key
    · rw [if_pos (by simpa using taken), keys_cons, keys_cons, taken, if_pos List.mem_cons_self]
    · rw [if_neg (by simpa using taken), keys_cons, keys_cons, ih]
      by_cases mem : key ∈ keys rest
      · rw [if_pos mem, if_pos (List.mem_cons_of_mem _ mem)]
      · rw [if_neg mem, if_neg (by simp [mem, Ne.symm taken]), List.cons_append]

/-- Setting a key that is there keeps the keys in their order. -/
lemma keys_set_of_mem (mem : key ∈ config.keys) : (config.set key value).keys = config.keys := by
  rw [keys_set, if_pos mem]

/-- Setting a key does not repeat it. -/
lemma nodup_keys_set (nodup : config.keys.Nodup) : (config.set key value).keys.Nodup := by
  rw [keys_set]
  split
  next => exact nodup
  next new =>
    rw [← List.concat_eq_append]
    exact nodup.concat new

/-- A new key comes last with its value. -/
lemma set_of_notMem (new : key ∉ config.keys) :
    config.set key value = config ++ [(key, value)] := by
  induction config with
  | nil => rfl
  | cons entry rest ih =>
    obtain ⟨ne, new⟩ := not_or.mp (List.mem_cons.not.mp new)
    rw [set, if_neg (by simpa using Ne.symm ne), ih new, List.cons_append]

/-- Setting a key adds no other entry. -/
lemma eq_or_mem_of_mem_set {entry : String × Json} (mem : entry ∈ config.set key value) :
    entry = (key, value) ∨ entry ∈ config := by
  induction config with
  | nil => exact .inl (List.mem_singleton.mp mem)
  | cons first rest ih =>
    rw [set] at mem
    split at mem
    next =>
      exact (List.mem_cons.mp mem).imp_right (List.mem_cons_of_mem _)
    next =>
      obtain rfl | mem := List.mem_cons.mp mem
      · exact .inr List.mem_cons_self
      · exact (ih mem).imp_right (List.mem_cons_of_mem _)

/-- Two tables with the same keys, each of them once, that hold the same under every key are
equal. -/
lemma eq_of_get?_eq {config' : Config} (nodup : config.keys.Nodup)
    (same : config'.keys = config.keys)
    (holds : ∀ key ∈ config.keys, config'.get? key = config.get? key) : config' = config := by
  induction config generalizing config' with
  | nil => exact List.map_eq_nil_iff.mp same
  | cons entry rest ih =>
    obtain ⟨entry', rest', rfl, first, others⟩ := List.map_eq_cons_iff.mp same
    obtain ⟨fresh, nodup⟩ := List.nodup_cons.mp nodup
    have here := holds entry.1 List.mem_cons_self
    rw [get?_cons, get?_cons, if_pos first, if_pos rfl] at here
    congr 1
    · exact Prod.ext first (Option.some.inj here)
    · refine ih nodup others fun key mem => ?_
      have ne : entry.1 ≠ key := fun e => fresh (by rwa [← e] at mem)
      have there := holds key (List.mem_cons_of_mem _ mem)
      rwa [get?_cons, get?_cons, if_neg (first ▸ ne), if_neg ne] at there

/-- The keys of the schema are those that have a setting. -/
lemma setting?_eq_none_iff : setting? key = none ↔ key ∉ schema.map (·.key) := by
  rw [setting?, List.find?_eq_none]
  simp only [beq_iff_eq, List.mem_map, not_exists, not_and]

/-- No two settings share a key. -/
lemma nodup_schema : (schema.map (·.key)).Nodup := by
  decide

/-- A setting that is found by its key is in the schema and has that key. -/
lemma mem_of_setting? {setting : Setting} (found : setting? key = some setting) :
    setting ∈ schema ∧ setting.key = key :=
  ⟨List.mem_of_find?_eq_some found, by simpa using List.find?_some found⟩

/-- A setting of the schema is found under its key. -/
lemma setting?_of_mem {setting : Setting} (mem : setting ∈ schema) :
    setting? setting.key = some setting := by
  cases found : setting? setting.key with
  | none => exact absurd (List.mem_map_of_mem mem) (setting?_eq_none_iff.mp found)
  | some other =>
    obtain ⟨otherMem, same⟩ := mem_of_setting? found
    rw [List.inj_on_of_nodup_map nodup_schema otherMem mem same]

/-- The value that an edit gives to the key of a setting. -/
def editedValue (config : Config) (setting : Setting) : ConfigEdit → Except Fault Json
  | .set _ raw => config.valueFor setting raw
  | .unset _ => .ok setting.default

/-- An edit sets its key to a new value, if the schema has the key and there is a value. -/
lemma apply_eq (config : Config) (edit : ConfigEdit) : config.apply edit
    = match setting? edit.key with
      | none => .error (.unknownKey edit.key)
      | some setting => config.set edit.key <$> config.editedValue setting edit := by
  cases edit with
  | set key raw =>
    rw [apply, ConfigEdit.key]
    cases setting? key with
    | none => rfl
    | some setting =>
      simp only [editedValue]
      cases config.valueFor setting raw with
      | error fault => rfl
      | ok value => rfl
  | unset key =>
    rw [apply, ConfigEdit.key]
    cases setting? key with
    | none => rfl
    | some setting => rfl

/-- An edit that succeeds has set its key. -/
lemma exists_of_apply {edit : ConfigEdit} (applied : config.apply edit = .ok edited) :
    ∃ setting value, setting? edit.key = some setting ∧
      config.editedValue setting edit = .ok value ∧ edited = config.set edit.key value := by
  rw [apply_eq] at applied
  cases found : setting? edit.key with
  | none =>
    rw [found] at applied
    cases applied
  | some setting =>
    rw [found] at applied
    obtain ⟨value, new, rfl⟩ := Outcome.map_eq_ok.mp applied
    exact ⟨setting, value, rfl, new, rfl⟩

end Config

end ExportCover
