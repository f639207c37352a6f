import Mathlib.Data.List.Induction
import ExportCover.Proofs.Config.Table
import ExportCover.Proofs.Config.Typed

/-!
# What edits come to

The configuration after edits of the default one in closed form: every key of the schema in its
order, a list with the texts that were added to its default, a switch and a text as they were set
last. Only the edits since a key was last put back to its default matter (`ConfigEdit.textsSince`).
An edit of such a configuration fails for two reasons alone: a key that the schema lacks, and a text
that is no word for a switch (`Config.applyAll_default`).
-/

namespace ExportCover

namespace ConfigEdit

/-- The text that an edit sets a key to. -/
def textFor? (key : String) : ConfigEdit → Option String
  | .set other raw => if other = key then some raw else none
  | .unset _ => none

/-- The texts that a key was set to since it was last put back to its default, in order. -/
def textsSince (key : String) (edits : List ConfigEdit) : List String :=
  (edits.reverse.takeWhile (· != .unset key)).reverse.filterMap (textFor? key)

variable {key raw : String} {edits : List ConfigEdit} {edit : ConfigEdit}

/-- Filtering a list of one element keeps that element or nothing. -/
lemma filterMap_one {α β : Type} (f : α → Option β) (a : α) : [a].filterMap f = (f a).toList := by
  rw [List.filterMap_cons, List.filterMap_nil]
  cases f a <;> rfl

/-- After a key is put back to its default no texts are left. -/
lemma textsSince_unset : textsSince key (edits ++ [.unset key]) = [] := by
  simp [textsSince]

/-- An edit that does not put the key back adds its text, if it is about the key. -/
lemma textsSince_concat (other : edit ≠ .unset key) :
    textsSince key (edits ++ [edit]) = textsSince key edits ++ (textFor? key edit).toList := by
  rw [textsSince, List.reverse_append, List.reverse_singleton, List.singleton_append,
    List.takeWhile_cons_of_pos (by simpa using other), List.reverse_cons, List.filterMap_append,
    filterMap_one]
  rfl

/-- Setting the key to a text adds that text. -/
lemma textsSince_set :
    textsSince key (edits ++ [.set key raw]) = textsSince key edits ++ [raw] := by
  rw [textsSince_concat (by simp), textFor?, if_pos rfl, Option.toList_some]

/-- An edit of another key adds nothing. -/
lemma textsSince_other (other : edit.key ≠ key) :
    textsSince key (edits ++ [edit]) = textsSince key edits := by
  cases edit with
  | set otherKey raw =>
    have isOther : otherKey ≠ key := other
    rw [textsSince_concat (by simp), textFor?, if_neg isOther, Option.toList_none, List.append_nil]
  | unset otherKey =>
    have isOther : ConfigEdit.unset otherKey ≠ .unset key :=
      fun same => other (ConfigEdit.unset.inj same)
    rw [textsSince_concat isOther, textFor?, Option.toList_none, List.append_nil]

end ConfigEdit

namespace Config

open ConfigEdit

/-- The texts that are new beside those that are known, each of them once, where it stands first. -/
def newTexts (known texts : List String) : List String :=
  (texts.filter fun text => text ∉ known).eraseDups

/-- The list of a setting after edits: its default and the texts that were added to it since. -/
def listAfter (setting : Setting) (edits : List ConfigEdit) : List String :=
  default.textsOf setting.key
    ++ newTexts (default.textsOf setting.key) (textsSince setting.key edits)

/-- The value of a setting after edits of the default configuration. -/
def valueAfter (setting : Setting) (edits : List ConfigEdit) : Json :=
  match setting.type with
  | .list => .texts (listAfter setting edits)
  | .switch =>
    ((textsSince setting.key edits).filterMap switch?).getLast?.elim setting.default .bool
  | .text => (textsSince setting.key edits).getLast?.elim setting.default .string

/-- The default configuration after edits. -/
def closedForm (edits : List ConfigEdit) : Config :=
  schema.map fun setting => (setting.key, valueAfter setting edits)

section Lists

variable {known texts : List String} {raw : String}

/-- A text is new if it neither was known nor came before. -/
lemma newTexts_concat : newTexts known (texts ++ [raw])
    = if raw ∈ known ++ newTexts known texts then newTexts known texts
      else newTexts known texts ++ [raw] := by
  rw [newTexts, List.filter_append]
  by_cases isKnown : raw ∈ known
  · simp [newTexts, isKnown]
  · rw [List.filter_cons_of_pos (by simpa using isKnown), List.filter_nil, List.eraseDups_append]
    by_cases isOld : raw ∈ texts
    · simp [newTexts, isKnown, isOld, List.removeAll]
    · simp [newTexts, isKnown, isOld, List.removeAll, List.eraseDups_cons]

/-- Adding a text to known ones never repeats one. -/
lemma nodup_newTexts (nodup : known.Nodup) (texts : List String) :
    (known ++ newTexts known texts).Nodup := by
  induction texts using List.reverseRecOn with
  | nil => simpa [newTexts] using nodup
  | append_singleton texts raw ih =>
    rw [newTexts_concat]
    split
    next => exact ih
    next fresh =>
      rw [← List.append_assoc]
      exact List.nodup_append.mpr ⟨ih, List.nodup_singleton raw, by grind⟩

end Lists

section Step

variable {setting : Setting} {edits : List ConfigEdit} {edit : ConfigEdit} {raw : String}

/-- Putting a setting back makes its value the default one. -/
lemma valueAfter_unset (mem : setting ∈ schema) :
    valueAfter setting (edits ++ [.unset setting.key]) = setting.default := by
  rw [valueAfter, listAfter, textsSince_unset]
  revert setting
  simp only [schema, List.forall_mem_cons]
  exact ⟨rfl, rfl, rfl, rfl, rfl, rfl, rfl, rfl, rfl, nofun⟩

/-- An edit of another key leaves the value as it is. -/
lemma valueAfter_other (other : edit.key ≠ setting.key) :
    valueAfter setting (edits ++ [edit]) = valueAfter setting edits := by
  rw [valueAfter, valueAfter, listAfter, listAfter, textsSince_other other]

/-- A text is added to a list unless it is there. -/
lemma grow_listAfter (setting : Setting) (edits : List ConfigEdit) (raw : String) :
    grow (.texts (listAfter setting edits)) raw
      = .ok (.texts (listAfter setting (edits ++ [.set setting.key raw]))) := by
  have known : ((listAfter setting edits).map Json.string).any (·.text? == some raw) ↔
      raw ∈ listAfter setting edits := by
    simp [Json.text?]
  rw [Json.texts, grow, if_congr known rfl rfl, listAfter, listAfter, textsSince_set,
    newTexts_concat]
  split
  · rfl
  · simp [Json.texts]

/-- In the closed form each setting has the value that the edits give it. -/
lemma get?_closedForm (mem : setting ∈ schema) :
    (closedForm edits).get? setting.key = some (valueAfter setting edits) := by
  have found := setting?_of_mem mem
  rw [setting?] at found
  have sameKey : (fun entry : String × Json => entry.1 == setting.key) ∘
      (fun other : Setting => (other.key, valueAfter other edits)) = (·.key == setting.key) := rfl
  rw [closedForm, get?, List.find?_map, sameKey, found]
  rfl

/-- Setting a setting to a text gives it the value of the closed form, unless it is a switch and the
text means neither true nor false. -/
lemma valueFor_closedForm (mem : setting ∈ schema) :
    (closedForm edits).valueFor setting raw
      = if setting.type = .switch ∧ switch? raw = none then .error (.notSwitch setting.key raw)
        else .ok (valueAfter setting (edits ++ [.set setting.key raw])) := by
  rw [valueFor, get?_closedForm mem]
  simp only [valueAfter, textsSince_set, Option.getD_some]
  cases setting.type with
  | list => exact grow_listAfter setting edits raw
  | switch => cases meant : switch? raw <;> simp [meant]
  | text => simp

/-- A text that is no word for a switch leaves it as it is. -/
lemma valueAfter_misfit (isSwitch : setting.type = .switch) (noWord : switch? raw = none) :
    valueAfter setting (edits ++ [.set setting.key raw]) = valueAfter setting edits := by
  simp only [valueAfter, isSwitch, textsSince_set, List.filterMap_append, filterMap_one, noWord,
    Option.toList_none, List.append_nil]

/-- The closed form holds the settings of the schema, in its order. -/
lemma keys_closedForm (edits : List ConfigEdit) :
    (closedForm edits).keys = schema.map (·.key) := by
  simp [closedForm, keys]

/-- A table in the order of the schema that holds the values of the closed form is the closed
form. -/
lemma eq_closedForm {config : Config} (ordered : config.keys = schema.map (·.key))
    (holds : ∀ setting ∈ schema, config.get? setting.key = some (valueAfter setting edits)) :
    config = closedForm edits := by
  have keys := keys_closedForm edits
  refine eq_of_get?_eq (keys ▸ nodup_schema) (ordered.trans keys.symm) fun key mem => ?_
  obtain ⟨setting, settingMem, rfl⟩ := List.mem_map.mp (keys ▸ mem)
  rw [holds setting settingMem, get?_closedForm settingMem]

/-- Setting the key of a setting to its value after an edit gives the closed form after it. -/
lemma set_closedForm (mem : setting ∈ schema) (about : edit.key = setting.key) :
    (closedForm edits).set edit.key (valueAfter setting (edits ++ [edit]))
      = closedForm (edits ++ [edit]) := by
  have known : edit.key ∈ (closedForm edits).keys := by
    rw [about, keys_closedForm]
    exact List.mem_map_of_mem mem
  refine eq_closedForm ?_ fun other otherMem => ?_
  · rw [keys_set_of_mem known, keys_closedForm]
  · rw [get?_set]
    split
    next same =>
      rw [List.inj_on_of_nodup_map nodup_schema otherMem mem (same.symm.trans about)]
    next ne => rw [get?_closedForm otherMem, valueAfter_other ne]

/-- An edit that leaves the values of all settings alone leaves the closed form alone. -/
lemma closedForm_concat_eq
    (same : ∀ setting ∈ schema, valueAfter setting (edits ++ [edit]) = valueAfter setting edits) :
    closedForm (edits ++ [edit]) = closedForm edits := by
  refine eq_closedForm (keys_closedForm _) fun setting mem => ?_
  rw [get?_closedForm mem, same setting mem]

/-- Why an edit of the default configuration, or of what became of it, fails. -/
inductive Fails : ConfigEdit → Fault → Prop where
  /-- The schema lacks the key. -/
  | unknownKey (edit : ConfigEdit) (unknown : edit.key ∉ schema.map (·.key)) :
    Fails edit (.unknownKey edit.key)
  /-- A switch is set to a text that is none of the words for true and false. -/
  | notSwitch (setting : Setting) (mem : setting ∈ schema) (isSwitch : setting.type = .switch)
    (raw : String) (noWord : Text.lower raw ∉ ["true", "1", "yes", "false", "0", "no"]) :
    Fails (.set setting.key raw) (.notSwitch setting.key raw)

/-- A text is no word for a switch if it is none of the six that are. -/
lemma switch?_eq_none_iff :
    switch? raw = none ↔ Text.lower raw ∉ ["true", "1", "yes", "false", "0", "no"] := by
  have words : ["true", "1", "yes", "false", "0", "no"]
      = ["true", "1", "yes"] ++ ["false", "0", "no"] := rfl
  rw [words, List.mem_append, switch?]
  simp only [List.contains_eq_mem, decide_eq_true_eq]
  split
  next isTrue => simp [isTrue]
  next notTrue =>
    split
    next isFalse => simp [isFalse]
    next notFalse => simp [notTrue, notFalse]

/-- The edits of a setting fail in one way alone: a switch is set to a text that is no word for
it. -/
lemma fails_iff_of_mem (mem : setting ∈ schema) (about : edit.key = setting.key) {fault : Fault} :
    Fails edit fault ↔ ∃ raw, edit = .set setting.key raw ∧ setting.type = .switch ∧
      switch? raw = none ∧ fault = .notSwitch setting.key raw := by
  constructor
  · intro fails
    cases fails with
    | unknownKey _ unknown =>
      rw [about] at unknown
      exact absurd (List.mem_map_of_mem mem) unknown
    | notSwitch other otherMem isSwitch raw noWord =>
      obtain rfl := List.inj_on_of_nodup_map nodup_schema otherMem mem about
      exact ⟨raw, rfl, isSwitch, switch?_eq_none_iff.mpr noWord, rfl⟩
  · rintro ⟨raw, rfl, isSwitch, noWord, rfl⟩
    exact .notSwitch setting mem isSwitch raw (switch?_eq_none_iff.mp noWord)

/-- What an edit does to a closed form. -/
structure Steps (edits : List ConfigEdit) (edit : ConfigEdit) : Prop where
  /-- It gives the next closed form, unless it fails. -/
  succeeds : (∀ fault, ¬ Fails edit fault) →
    (closedForm edits).apply edit = .ok (closedForm (edits ++ [edit]))
  /-- It fails as it must, and the next closed form is the same. -/
  fails : ∀ fault, Fails edit fault →
    (closedForm edits).apply edit = .error fault ∧ closedForm (edits ++ [edit]) = closedForm edits

/-- An edit of a key that the schema lacks. -/
lemma steps_of_unknown (edits : List ConfigEdit) (unknown : edit.key ∉ schema.map (·.key)) :
    Steps edits edit := by
  have applied : (closedForm edits).apply edit = .error (.unknownKey edit.key) := by
    rw [apply_eq, setting?_eq_none_iff.mpr unknown]
  refine ⟨fun never => absurd (Fails.unknownKey edit unknown) (never _), fun fault fails => ?_⟩
  cases fails with
  | unknownKey =>
    refine ⟨applied, closedForm_concat_eq fun setting mem => valueAfter_other fun same => ?_⟩
    exact unknown (same ▸ List.mem_map_of_mem mem)
  | notSwitch setting mem => exact absurd (List.mem_map_of_mem mem) unknown

/-- Putting back a setting. -/
lemma steps_unset (edits : List ConfigEdit) (mem : setting ∈ schema) :
    Steps edits (.unset setting.key) := by
  constructor
  · intro _
    rw [← set_closedForm mem rfl, valueAfter_unset mem, apply_eq, ConfigEdit.key,
      setting?_of_mem mem]
    rfl
  · intro fault fails
    obtain ⟨_, notUnset, -⟩ := (fails_iff_of_mem mem rfl).mp fails
    cases notUnset

/-- Setting a setting. -/
lemma steps_set (edits : List ConfigEdit) (mem : setting ∈ schema) (raw : String) :
    Steps edits (.set setting.key raw) := by
  have applied : (closedForm edits).apply (.set setting.key raw)
      = (closedForm edits).set setting.key <$> (closedForm edits).valueFor setting raw := by
    rw [apply_eq, ConfigEdit.key, setting?_of_mem mem]
    rfl
  rw [valueFor_closedForm mem] at applied
  constructor
  · intro never
    rw [applied, if_neg, ← set_closedForm mem rfl]
    · rfl
    · rintro ⟨isSwitch, noWord⟩
      exact never _ ((fails_iff_of_mem mem rfl).mpr ⟨raw, rfl, isSwitch, noWord, rfl⟩)
  · intro fault fails
    obtain ⟨_, same, isSwitch, noWord, rfl⟩ := (fails_iff_of_mem mem rfl).mp fails
    obtain rfl := (ConfigEdit.set.inj same).2
    rw [applied, if_pos ⟨isSwitch, noWord⟩]
    -- A word that is no switch is not stored, and the closed form leaves it out too.
    refine ⟨rfl, closedForm_concat_eq fun other otherMem => ?_⟩
    by_cases here : setting.key = other.key
    · obtain rfl := List.inj_on_of_nodup_map nodup_schema mem otherMem here
      exact valueAfter_misfit isSwitch noWord
    · exact valueAfter_other here

/-- A step: an edit of a closed form gives the next one, or fails and leaves it. -/
lemma steps (edits : List ConfigEdit) (edit : ConfigEdit) : Steps edits edit := by
  by_cases known : edit.key ∈ schema.map (·.key)
  · obtain ⟨setting, mem, about⟩ := List.mem_map.mp known
    cases edit with
    | set key raw =>
      obtain rfl : setting.key = key := about
      exact steps_set edits mem raw
    | unset key =>
      obtain rfl : setting.key = key := about
      exact steps_unset edits mem
  · exact steps_of_unknown edits known

/-- The last edit is applied to what the others made. -/
lemma applyAll_concat (config : Config) (edits : List ConfigEdit) (edit : ConfigEdit) :
    config.applyAll (edits ++ [edit]) = match (config.applyAll edits).apply edit with
      | .ok edited => edited
      | .error _ => config.applyAll edits := by
  rw [applyAll, List.foldl_append]
  rfl

/-- A run: edits of the default configuration give the closed form. -/
lemma applyAll_default_eq (edits : List ConfigEdit) :
    default.applyAll edits = closedForm edits := by
  induction edits using List.reverseRecOn with
  | nil => rfl
  | append_singleton edits edit ih =>
    rw [applyAll_concat, ih]
    by_cases never : ∀ fault, ¬ Fails edit fault
    · rw [(steps edits edit).succeeds never]
    · obtain ⟨fault, fails⟩ := not_forall_not.mp never
      obtain ⟨applied, same⟩ := (steps edits edit).fails fault fails
      rw [applied, same]

end Step

/-- Edits of the default configuration, with those that fail left out, give the closed form: the
keys of the schema in its order with their values since they were last put back. No list repeats a
text. The next edit fails if and only if its key is not in the schema, or it sets a switch to a text
that is none of the words for true and false. -/
theorem applyAll_default (edits : List ConfigEdit) :
    default.applyAll edits = closedForm edits ∧
      (∀ setting ∈ schema, setting.type = .list → (listAfter setting edits).Nodup) ∧
      ∀ edit fault, (default.applyAll edits).apply edit = .error fault ↔ Fails edit fault := by
  refine ⟨applyAll_default_eq edits, fun setting mem _ => ?_, fun edit fault => ?_⟩
  · exact nodup_newTexts (by revert setting; decide) _
  · rw [applyAll_default_eq]
    refine ⟨fun failed => ?_, fun fails => ((steps edits edit).fails fault fails).1⟩
    by_contra notThis
    by_cases never : ∀ fault, ¬ Fails edit fault
    · rw [(steps edits edit).succeeds never] at failed
      cases failed
    · obtain ⟨other, fails⟩ := not_forall_not.mp never
      rw [((steps edits edit).fails other fails).1] at failed
      cases failed
      exact notThis fails

example : default.applyAll [.set "ignore" "a", .unset "ignore", .set "ignore" "b",
      .set "fail_on_unreadable" "YES", .set "ignore" "b", .set "fail_on_unreadable" "maybe"]
    = (default.set "ignore" (.texts ["b"])).set "fail_on_unreadable" (.bool true) := by
  rfl

end Config

end ExportCover
