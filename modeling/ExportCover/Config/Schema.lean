import ExportCover.Discovery
import ExportCover.Path.Specifier

/-!
# Settings

The keys of a configuration, the type that each of them is meant to have and its default. A
configuration is a table in the order in which its keys were first set; a file may put values of
other types and keys of its own into it.
-/

namespace ExportCover

/-- The type that a setting is meant to have. -/
inductive SettingType where
  | list
  | text
  | switch
deriving DecidableEq, Repr

/-- A key of a configuration. -/
structure Setting where
  key : String
  type : SettingType
  default : Json
  description : String
deriving Repr

/-- A configuration: keys with their values, in the order in which they were first set. -/
abbrev Config := List (String × Json)

namespace Config

/-- The keys that a configuration has, in order. -/
def schema : List Setting :=
  [⟨"test_suffixes", .list, .texts Discovery.defaultSuffixes,
      "File name suffixes that mark a test file"⟩,
    ⟨"exclude", .list, .texts Discovery.defaultExclusions,
      "Directory names never descended into (dependency and VCS dirs)"⟩,
    ⟨"extensions", .list, .texts Specifier.defaultExtensions,
      "Source file extensions stripped when building module paths"⟩,
    ⟨"index_name", .text, .string Specifier.defaultIndexName,
      "Directory-index module name folded into its directory path"⟩,
    ⟨"ignore_marker", .text, .string "test-ignore",
      "Comment text that exempts the following export from the check"⟩,
    ⟨"locale", .text, .string "en", "Diagnostic message locale (en, ja)"⟩,
    ⟨"fail_on_unreadable", .switch, .bool false,
      "Abort the pass when a test file cannot be read (default: skip with warning)"⟩,
    ⟨"report_unchecked_exports", .switch, .bool false,
      "Emit a warning for default and destructured exports the check cannot verify"⟩,
    ⟨"ignore", .list, .texts [], "Glob patterns of module files that are never checked"⟩]

/-- The setting with a key. -/
def setting? (key : String) : Option Setting :=
  schema.find? (·.key == key)

/-- The configuration with every key at its default. -/
def default : Config :=
  schema.map fun setting => (setting.key, setting.default)

/-- The value of a key. -/
def get? (config : Config) (key : String) : Option Json :=
  (config.find? (·.1 == key)).map (·.2)

/-- The value of a key that has to be there. -/
def get (config : Config) (key : String) : Except Fault Json :=
  match config.get? key with
  | some value => .ok value
  | none => .error (.missingKey key)

/-- Sets a key: in its place if it is there, at the end otherwise. -/
def set (config : Config) (key : String) (value : Json) : Config :=
  match config with
  | [] => [(key, value)]
  | entry :: rest =>
    if entry.1 == key then (key, value) :: rest else entry :: set rest key value

/-- The configuration with the keys that it lacks at their defaults, after those that it has. -/
def fill (config : Config) : Config :=
  schema.foldl
    (fun config setting =>
      if (config.get? setting.key).isSome then config else config.set setting.key setting.default)
    config

/-- A value of a setting's type. -/
def SettingType.admits : SettingType → Json → Bool
  | .list, .array items => items.all fun item => item.text?.isSome
  | .text, .string _ => true
  | .switch, .bool _ => true
  | _, _ => false

/-- Every key of the schema is there with a value of its type. -/
def WellTyped (config : Config) : Prop :=
  ∀ setting ∈ schema, (config.get? setting.key).any (SettingType.admits setting.type) = true

/-- Whether a configuration is well typed can be computed. -/
instance (config : Config) : Decidable config.WellTyped :=
  inferInstanceAs (Decidable (∀ setting ∈ schema, _))

/-- The value of a key, gone through as a list of texts. -/
def listing (config : Config) (key : String) : Except Fault Listing := do
  Listing.ofValue (← config.get key)

/-- The names of the directories that are not entered. -/
def exclusions (config : Config) : Except Fault (List String) := do
  match (← config.get "exclude").parts? with
  | none => .error .illTyped
  | some items =>
    if items.all Json.isScalar then return items.filterMap Json.text? else .error .illTyped

/-- Extensions in the order in which they are tried: longer ones first. -/
def orderedExtensions (value : Json) : Except Fault Listing :=
  match value.parts? with
  | none => .error .illTyped
  | some items =>
    if items.all (·.size?.isSome) then
      .ok (Listing.ofItems (items.mergeSort fun a b => b.size?.getD 0 ≤ a.size?.getD 0))
    else .error .illTyped

/-- The switch is on. -/
def isOn (config : Config) (key : String) : Except Fault Bool := do
  return (← config.get key).isTruthy

end Config

end ExportCover
