import ExportCover.Config.Schema

/-!
# Editing a configuration

Setting a key from a text and putting it back to its default. A list grows by the text unless it
has it already; a switch takes the usual words for true and false; a text is replaced. An edit that
fails leaves nothing behind: it has no resulting configuration.
-/

namespace ExportCover

/-- A change of one key. -/
inductive ConfigEdit where
  | set (key raw : String)
  | unset (key : String)
deriving DecidableEq, Repr

/-- The key that an edit is about. -/
def ConfigEdit.key : ConfigEdit → String
  | .set key _ => key
  | .unset key => key

namespace Config

/-- The meaning of a text as a switch. -/
def switch? (raw : String) : Option Bool :=
  let word := Text.lower raw
  if ["true", "1", "yes"].contains word then some true
  else if ["false", "0", "no"].contains word then some false
  else none

/-- A list value with a text added to it, unless the text is there. -/
def grow (value : Json) (raw : String) : Except Fault Json :=
  match value with
  | .array items =>
    if items.any (·.text? == some raw) then .ok value else .ok (.array (items ++ [.string raw]))
  | .string s => if Text.contains s raw then .ok value else .error .notGrowable
  | .object fields => if fields.any (·.1 == raw) then .ok value else .error .notGrowable
  | _ => .error .illTyped

/-- The value that setting a key to a text gives it. -/
def valueFor (config : Config) (setting : Setting) (raw : String) : Except Fault Json :=
  match setting.type with
  | .switch =>
    match switch? raw with
    | some value => .ok (.bool value)
    | none => .error (.notSwitch setting.key raw)
  | .list => grow ((config.get? setting.key).getD (.array [])) raw
  | .text => .ok (.string raw)

/-- The configuration after an edit. -/
def apply (config : Config) : ConfigEdit → Except Fault Config
  | .set key raw =>
    match setting? key with
    | none => .error (.unknownKey key)
    | some setting => do return config.set key (← config.valueFor setting raw)
  | .unset key =>
    match setting? key with
    | none => .error (.unknownKey key)
    | some setting => .ok (config.set key setting.default)

/-- The configuration after edits, those that fail left out. -/
def applyAll (config : Config) (edits : List ConfigEdit) : Config :=
  edits.foldl
    (fun config edit => match config.apply edit with
      | .ok edited => edited
      | .error _ => config)
    config

end Config

end ExportCover
