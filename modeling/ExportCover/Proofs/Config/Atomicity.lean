import ExportCover.Config.Change
import ExportCover.Proofs.Config.ClosedForm

/-!
# Edits change a configuration as a whole or not at all

An edit goes through several steps, of which a later one may fail. A configuration that is edited in
place is then as it was before the first of them (`Change.runOn_ofEdit`): the only step that changes
something before another one can fail is the one that puts an empty list under a key, and to an
empty list every text can be added. This holds of every configuration, whatever it has under the
keys of the schema (`Change.edit_atomic`).
-/

namespace ExportCover

namespace Config

variable {config : Config} {key raw : String} {value : Json}

/-- An entry under another key stays as it is and where it is. -/
lemma getElem?_set {entry : String × Json} {i : Nat} (listed : config[i]? = some entry)
    (ne : entry.1 ≠ key) : (config.set key value)[i]? = some entry := by
  induction config generalizing i with
  | nil => cases listed
  | cons first rest ih =>
    rw [set]
    split
    next same =>
      cases i with
      | zero =>
        cases listed
        exact absurd (by simpa using same) ne
      | succ i => exact listed
    next =>
      cases i with
      | zero => exact listed
      | succ i => exact ih listed

/-- Setting a key to the value that it has changes nothing. -/
lemma set_eq_self (found : config.get? key = some value) : config.set key value = config := by
  induction config with
  | nil => cases found
  | cons first rest ih =>
    rw [get?_cons] at found
    rw [set]
    by_cases same : first.1 = key
    · rw [if_pos same] at found
      cases found
      rw [if_pos (by simpa using same), ← same]
    · rw [if_neg same] at found
      rw [if_neg (by simpa using same), ih found]

/-- Of two values that a key is set to in a row the later one counts. -/
lemma set_set (config : Config) (key : String) (value value' : Json) :
    (config.set key value).set key value' = config.set key value' := by
  induction config with
  | nil => simp [set]
  | cons first rest ih =>
    rw [set, set]
    split
    next => simp [set]
    next other => rw [set, if_neg other, ih]

/-- A list grows by a text that it does not hold. -/
lemma grow_eq (value : Json) (raw : String) : grow value raw
    = value.holds raw >>= fun isHeld =>
        if isHeld then .ok value else value.append (.string raw) := by
  cases value with
  | array | string | object => rfl
  | null | bool | int | decimal => rfl

/-- Why an edit of any configuration fails: for one of the reasons for which an edit of the default
one does, or because what stands under the key of a list is none. -/
inductive Refuses (config : Config) : ConfigEdit → Fault → Prop where
  | edit {edit fault} (fails : Fails edit fault) : Refuses config edit fault
  /-- The value has no parts among which the text could be. -/
  | noParts {setting : Setting} (mem : setting ∈ schema) (isList : setting.type = .list)
    (raw : String) {value : Json} (held : config.get? setting.key = some value)
    (single : value.size? = none) : Refuses config (.set setting.key raw) .illTyped
  /-- The text is not among the parts of the value, and the value is no array to which it could be
  added. -/
  | noArray {setting : Setting} (mem : setting ∈ schema) (isList : setting.type = .list)
    (raw : String) {value : Json} (held : config.get? setting.key = some value)
    (lacks : value.holds raw = .ok false) (noArray : ∀ items, value ≠ .array items) :
    Refuses config (.set setting.key raw) .notGrowable

/-- The values to which a text cannot be added. -/
lemma grow_eq_error_iff {fault : Fault} : grow value raw = .error fault ↔
    fault = .illTyped ∧ value.size? = none ∨
      fault = .notGrowable ∧ value.holds raw = .ok false ∧ ∀ items, value ≠ .array items := by
  rw [grow_eq]
  cases value with
  | array items =>
    simp only [Json.holds, Outcome.ok_bind, Json.append, Json.size?]
    split <;> simp
  | string s =>
    simp only [Json.holds, Outcome.ok_bind, Json.append, Json.size?]
    cases Text.contains s raw <;> simp [eq_comm]
  | object fields =>
    simp only [Json.holds, Outcome.ok_bind, Json.append, Json.size?]
    cases fields.any (·.1 == raw) <;> simp [eq_comm]
  | null | bool | int | decimal => simp [Json.size?, Json.holds, eq_comm]

/-- An edit of a setting fails if the setting has no new value. -/
lemma apply_set {setting : Setting} (mem : setting ∈ schema) (raw : String) :
    config.apply (.set setting.key raw)
      = config.set setting.key <$> config.valueFor setting raw := by
  rw [apply_eq, ConfigEdit.key, setting?_of_mem mem]
  rfl

/-- The new value of a list is what stands under its key, or the empty list, grown by a text. -/
lemma valueFor_list {setting : Setting} (isList : setting.type = .list) (raw : String) :
    config.valueFor setting raw = grow ((config.get? setting.key).getD (.array [])) raw := by
  rw [valueFor, isList]

/-- An edit that is refused fails with the reason. -/
lemma Refuses.apply_eq_error {edit : ConfigEdit} {fault : Fault}
    (refuses : Refuses config edit fault) : config.apply edit = .error fault := by
  cases refuses with
  | edit fails =>
    cases fails with
    | unknownKey _ unknown => rw [apply_eq, setting?_eq_none_iff.mpr unknown]
    | notSwitch setting mem isSwitch raw noWord =>
      rw [apply_set mem, valueFor, isSwitch]
      simp only [switch?_eq_none_iff.mpr noWord]
      rfl
  | noParts mem isList raw held single =>
    rw [apply_set mem, valueFor_list isList, held, Option.getD_some, Outcome.map_eq_error]
    exact grow_eq_error_iff.mpr (.inl ⟨rfl, single⟩)
  | noArray mem isList raw held lacks noArray =>
    rw [apply_set mem, valueFor_list isList, held, Option.getD_some, Outcome.map_eq_error]
    exact grow_eq_error_iff.mpr (.inr ⟨rfl, lacks, noArray⟩)

/-- An edit of a known key is refused if there is no value for it. -/
lemma Refuses.of_valueFor {setting : Setting} (mem : setting ∈ schema) {fault : Fault}
    (failed : config.valueFor setting raw = .error fault) :
    Refuses config (.set setting.key raw) fault := by
  cases type : setting.type with
  | text =>
    rw [valueFor, type] at failed
    cases failed
  | switch =>
    rw [valueFor, type] at failed
    cases meant : switch? raw with
    | some value => simp [meant] at failed
    | none =>
      simp only [meant, Except.error.injEq] at failed
      subst failed
      exact .edit (.notSwitch setting mem type raw (switch?_eq_none_iff.mp meant))
  | list =>
    rw [valueFor_list type, grow_eq_error_iff] at failed
    cases held : config.get? setting.key with
    | none =>
      -- To an empty list every text can be added.
      rw [held, Option.getD_none] at failed
      obtain ⟨_, single⟩ | ⟨_, _, noArray⟩ := failed
      · cases single
      · exact absurd rfl (noArray [])
    | some value =>
      rw [held, Option.getD_some] at failed
      obtain ⟨rfl, single⟩ | ⟨rfl, lacks, noArray⟩ := failed
      · exact .noParts mem type raw held single
      · exact .noArray mem type raw held lacks noArray

/-- An edit fails for the reasons given and for no other one. -/
theorem apply_eq_error_iff {edit : ConfigEdit} {fault : Fault} :
    config.apply edit = .error fault ↔ Refuses config edit fault := by
  refine ⟨fun failed => ?_, Refuses.apply_eq_error⟩
  cases found : setting? edit.key with
  | none =>
    rw [apply_eq, found] at failed
    cases failed
    exact .edit (.unknownKey edit (setting?_eq_none_iff.mp found))
  | some setting =>
    obtain ⟨mem, about⟩ := mem_of_setting? found
    cases edit with
    | unset key =>
      rw [apply_eq, found] at failed
      cases failed
    | set key raw =>
      obtain rfl : setting.key = key := about
      rw [apply_set mem, Outcome.map_eq_error] at failed
      exact .of_valueFor mem failed

end Config

namespace Change

variable {α β : Type} {config : Config} {key raw : String} {value : Json}

/-- A sequence stops at the first fault and keeps what was changed before it. -/
lemma runOn_bind (change : Change α) (next : α → Change β) (config : Config) :
    (change >>= next).runOn config = match change.runOn config with
      | (.ok a, config) => (next a).runOn config
      | (.error fault, config) => (.error fault, config) := by
  simp only [runOn, ExceptT.run_bind, StateT.run_bind, Id.run_bind]
  generalize (Id.run (StateT.run (ExceptT.run change) config)) = result
  obtain ⟨_ | _, _⟩ := result <;> rfl

/-- A change that gives a value leaves the configuration alone. -/
@[simp]
lemma runOn_pure (a : α) (config : Config) : (pure a : Change α).runOn config = (.ok a, config) :=
  rfl

/-- What may fail on its own leaves the configuration alone. -/
@[simp]
lemma runOn_lift (outcome : Except Fault α) (config : Config) :
    (liftM outcome : Change α).runOn config = (outcome, config) :=
  rfl

/-- An assignment succeeds and changes one key. -/
@[simp]
lemma runOn_assign : (assign key value).runOn config = (.ok (), config.set key value) :=
  rfl

/-- Reading a key leaves the configuration alone. -/
@[simp]
lemma runOn_read : (read key).runOn config = (config.get key, config) :=
  rfl

/-- A key has a value afterwards. -/
lemma runOn_supply : (supply key value).runOn config
    = (.ok (), if (config.get? key).isSome then config else config.set key value) :=
  rfl

/-- The steps by which a list grows either add the text or leave no trace. -/
lemma runOn_extend (key raw : String) (config : Config) :
    (extend key raw).runOn config
      = match Config.grow ((config.get? key).getD (.array [])) raw with
        | .ok grown => (.ok (), config.set key grown)
        | .error fault => (.error fault, config) := by
  rw [extend, runOn_bind, runOn_supply, Config.grow_eq]
  cases found : config.get? key with
  | none =>
    -- The empty list is put there, and the text is added to it.
    have supplied : (config.set key (.array [])).get key = .ok (.array []) :=
      Config.get_eq_ok (by rw [Config.get?_set, if_pos rfl])
    simp [runOn_bind, supplied, Json.holds, Json.append, Config.set_set]
  | some value =>
    have has : config.get key = .ok value := Config.get_eq_ok found
    cases held : value.holds raw with
    | error fault => simp [runOn_bind, has, held]
    | ok isHeld =>
      cases isHeld with
      | true => simp [runOn_bind, has, held, Config.set_eq_self found]
      | false => cases added : value.append (.string raw) <;> simp [runOn_bind, has, held, added]

/-- An edit in place gives the configuration that the edit gives, or none of its steps shows. -/
lemma runOn_ofEdit (edit : ConfigEdit) (config : Config) :
    (ofEdit edit).runOn config = match config.apply edit with
      | .ok edited => (.ok (), edited)
      | .error fault => (.error fault, config) := by
  rw [Config.apply_eq]
  cases edit with
  | unset key =>
    rw [ofEdit, ConfigEdit.key]
    cases Config.setting? key <;> rfl
  | set key raw =>
    rw [ofEdit, ConfigEdit.key]
    cases found : Config.setting? key with
    | none => rfl
    | some setting =>
      obtain ⟨_, rfl⟩ := Config.mem_of_setting? found
      simp only [Config.editedValue, Config.valueFor]
      -- Only a list takes more than one step, and those have been looked at together.
      cases setting.type with
      | text => rfl
      | switch => cases Config.switch? raw <;> rfl
      | list =>
        simp only [runOn_extend]
        cases Config.grow ((config.get? setting.key).getD (.array [])) raw <;> rfl

/-- An edit in place is made as a whole or not at all, on a configuration with any keys and values.
It has the outcome of the edit, and it fails exactly for the reasons given. If it fails the
configuration is as before. If it succeeds every entry under another key is where it was, and no
other key than that of the edit is added. -/
theorem edit_atomic (config : Config) (edit : ConfigEdit) :
    ∃ outcome after, (ofEdit edit).runOn config = (outcome, after) ∧
      config.apply edit = (fun _ => after) <$> outcome ∧
      (∀ fault, outcome = .error fault ↔ Config.Refuses config edit fault) ∧
      (∀ fault, outcome = .error fault → after = config) ∧
      (outcome = .ok () →
        (∀ (i : Nat) (entry : String × Json), config[i]? = some entry → entry.1 ≠ edit.key →
          after[i]? = some entry) ∧
        after.keys
          = if edit.key ∈ config.keys then config.keys else config.keys ++ [edit.key]) := by
  have reasons (fault : Fault) :
      config.apply edit = .error fault ↔ Config.Refuses config edit fault :=
    Config.apply_eq_error_iff
  rw [runOn_ofEdit]
  cases applied : config.apply edit with
  | error fault =>
    simp only [applied] at reasons
    refine ⟨.error fault, config, rfl, rfl, fun other => ?_, fun _ _ => rfl, nofun⟩
    rw [← reasons, Except.error.injEq, Except.error.injEq]
  | ok edited =>
    simp only [applied] at reasons
    obtain ⟨setting, value, -, -, rfl⟩ := Config.exists_of_apply applied
    refine ⟨.ok (), _, rfl, rfl, fun fault => ?_, nofun, fun _ => ⟨?_, Config.keys_set⟩⟩
    · rw [← reasons]
      exact ⟨nofun, nofun⟩
    · exact fun i entry listed other => Config.getElem?_set listed other

/-- A text where a list is meant takes no further text, and nothing is left of the attempt. -/
example : (ofEdit (.set "exclude" "dist")).runOn [("a", .null), ("exclude", .string "node_modules")]
    = (.error .notGrowable, [("a", .null), ("exclude", .string "node_modules")]) := by
  rfl

end Change

end ExportCover
