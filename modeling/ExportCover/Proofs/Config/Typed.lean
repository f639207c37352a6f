import ExportCover.Proofs.Outcome
import ExportCover.Run.Coverage

/-!
# Well-typed configurations

A well-typed configuration holds a value of the right type under every key of the schema, so that
looking a key up cannot fail. Under texts for the index name and the extensions, the spelling and
the comparison of specifiers are total functions (`Config.specifierOf_eq`, `Config.sameModule_eq`).
-/

namespace ExportCover

namespace Listing

/-- A list of texts is a listing of them. -/
lemma ofItems_strings (texts : List String) : ofItems (texts.map .string) = ofTexts texts := by
  induction texts with
  | nil => rfl
  | cons text rest ih => rw [List.map_cons, ofItems, ih]; rfl

/-- A value that is a list of texts is a listing of them. -/
lemma ofValue_texts (texts : List String) : ofValue (.texts texts) = .ok (ofTexts texts) :=
  congrArg Except.ok (ofItems_strings texts)

/-- A list of texts is gone through to its end. -/
lemma any_ofTexts (texts : List String) (holds : String → Bool) :
    (ofTexts texts).any holds = .ok (texts.any holds) := by
  rw [any, ofTexts]
  split
  next some => rw [some]
  next none => simp [none]

end Listing

namespace Config

/-- The text under a key, if there is one. -/
def textOf (config : Config) (key : String) : String :=
  ((config.get? key).bind Json.text?).getD ""

/-- The texts in the list under a key, if there is one. -/
def textsOf (config : Config) (key : String) : List String :=
  match config.get? key with
  | some (.array items) => items.filterMap Json.text?
  | _ => []

/-- The switch under a key, if there is one. -/
def switchOf (config : Config) (key : String) : Bool :=
  match config.get? key with
  | some (.bool value) => value
  | _ => false

/-- A key that is in the table can be read. -/
lemma get_eq_ok {config : Config} {key value} (found : config.get? key = some value) :
    config.get key = .ok value := by
  rw [get, found]

/-- The text under a key is what the key holds. -/
lemma textOf_eq {config : Config} {key text} (has : config.get key = .ok (.string text)) :
    config.textOf key = text := by
  rw [get] at has
  split at has
  next value found =>
    cases has
    rw [textOf, found]
    rfl
  next => cases has

/-- Every key of the schema has a value of its type. -/
lemma WellTyped.admits {config : Config} (typed : config.WellTyped) {key : String} {type}
    (known : (setting? key).map (·.type) = some type) :
    ∃ value, config.get? key = some value ∧ SettingType.admits type value := by
  obtain ⟨setting, found, rfl⟩ := Option.map_eq_some_iff.mp known
  have holds := typed setting (List.mem_of_find?_eq_some found)
  have same : setting.key = key := by simpa using List.find?_some found
  rw [same] at holds
  cases value : config.get? key with
  | none => rw [value] at holds; cases holds
  | some value' => rw [value] at holds; exact ⟨value', rfl, holds⟩

/-- All items of a list of texts are texts. -/
lemma filterMap_text (texts : List String) :
    (texts.map Json.string).filterMap Json.text? = texts := by
  rw [List.filterMap_map]
  exact List.filterMap_some

/-- A list of texts is the list of the texts in it. -/
lemma eq_map_string {items : List Json} (texts : items.all fun item => item.text?.isSome) :
    items = (items.filterMap Json.text?).map .string := by
  induction items with
  | nil => rfl
  | cons item rest ih =>
    rw [List.all_cons, Bool.and_eq_true] at texts
    cases item with
    | string s =>
      rw [List.filterMap_cons, Json.text?, List.map_cons, ← ih texts.2]
    | _ => cases texts.1

/-- A text setting of a well-typed configuration. -/
lemma WellTyped.get_text {config : Config} (typed : config.WellTyped) {key : String}
    (known : (setting? key).map (·.type) = some .text) :
    config.get key = .ok (.string (config.textOf key)) := by
  obtain ⟨value, found, admits⟩ := typed.admits known
  cases value with
  | string s => rw [get_eq_ok found, textOf, found]; rfl
  | _ => cases admits

/-- A list setting of a well-typed configuration. -/
lemma WellTyped.get_texts {config : Config} (typed : config.WellTyped) {key : String}
    (known : (setting? key).map (·.type) = some .list) :
    config.get key = .ok (.texts (config.textsOf key)) := by
  obtain ⟨value, found, admits⟩ := typed.admits known
  cases value with
  | array items =>
    rw [get_eq_ok found, textsOf, found, Json.texts, ← eq_map_string admits]
  | _ => cases admits

/-- A switch of a well-typed configuration. -/
lemma WellTyped.isOn_eq {config : Config} (typed : config.WellTyped) {key : String}
    (known : (setting? key).map (·.type) = some .switch) :
    config.isOn key = .ok (config.switchOf key) := by
  obtain ⟨value, found, admits⟩ := typed.admits known
  cases value with
  | bool b => rw [isOn, get_eq_ok found, switchOf, found]; rfl
  | _ => cases admits

/-- The exclusions of a well-typed configuration. -/
lemma WellTyped.exclusions_eq {config : Config} (typed : config.WellTyped) :
    config.exclusions = .ok (config.textsOf "exclude") := by
  have scalar (texts : List String) : (texts.map Json.string).all Json.isScalar := by
    rw [List.all_map, List.all_eq_true]
    exact fun _ _ => rfl
  rw [exclusions, typed.get_texts rfl]
  simp only [Outcome.ok_bind, Json.texts, Json.parts?, scalar, filterMap_text, if_true,
    Outcome.pure_eq]

/-- Extensions that are texts are tried from the longest on. -/
lemma orderedExtensions_texts (extensions : List String) :
    orderedExtensions (.texts extensions) = .ok (.ofTexts (Specifier.byLength extensions)) := by
  have sized : (extensions.map Json.string).all (·.size?.isSome) := by
    rw [List.all_map, List.all_eq_true]
    exact fun _ _ => rfl
  have sorted : (extensions.map Json.string).mergeSort (fun a b => b.size?.getD 0 ≤ a.size?.getD 0)
      = (Specifier.byLength extensions).map .string := by
    rw [Specifier.byLength, List.map_mergeSort]
    exact fun _ _ _ _ => rfl
  simp only [orderedExtensions, Json.texts, Json.parts?, sized, if_true]
  rw [sorted, Listing.ofItems_strings]

/-- The specifier of a file under texts for the index name and the extensions. -/
lemma specifierOf_eq {config : Config} {extensions : List String} {indexName : String}
    (hasExtensions : config.get "extensions" = .ok (.texts extensions))
    (hasIndex : config.get "index_name" = .ok (.string indexName)) (path : String) :
    config.specifierOf path = .ok (Specifier.ofFile path extensions indexName) := by
  rw [specifierOf, hasExtensions, hasIndex]
  simp only [Outcome.ok_bind, orderedExtensions_texts, Listing.ofTexts, Bool.false_and, Json.text?]
  rw [Specifier.ofFile, Specifier.stem]
  simp [Bool.beq_comm]

/-- An index name that is a text is removed as it stands. -/
lemma stripIndex_eq (indexName specifier : String) :
    stripIndex (.string indexName) specifier = .ok (Specifier.stripIndex indexName specifier) := by
  rw [stripIndex, Specifier.stripIndex, Json.display]
  split <;> rfl

/-- Specifiers are compared by their texts under an index name that is a text. -/
lemma sameModule_eq (indexName a b : String) :
    sameModule (.string indexName) a b = .ok (Specifier.sameModule indexName a b) := by
  rw [sameModule, stripIndex_eq, stripIndex_eq]
  rfl

end Config

end ExportCover
