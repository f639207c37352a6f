import ExportCover.Config.Edit

/-!
# Changing a configuration in place

An edit made step by step on a configuration that its owner goes on holding: keys are assigned as
the steps come to them, and a fault at a later step does not take back what an earlier one did. A
list that is missing is put there empty before it is looked into and grows.
-/

namespace ExportCover

namespace Json

/-- The value has a text in it: as an item of an array, as a part of a text or as a key of an
object. -/
def holds (value : Json) (raw : String) : Except Fault Bool :=
  match value with
  | .array items => .ok (items.any (·.text? == some raw))
  | .string s => .ok (Text.contains s raw)
  | .object fields => .ok (fields.any (·.1 == raw))
  | _ => .error .illTyped

/-- The value with an item at its end, if it is an array. -/
def append (value item : Json) : Except Fault Json :=
  match value with
  | .array items => .ok (.array (items ++ [item]))
  | _ => .error .notGrowable

end Json

/-- A change of a configuration in its place. -/
abbrev Change := ExceptT Fault (StateM Config)

namespace Change

/-- An outcome that changes nothing. -/
def ofExcept {α : Type} (outcome : Except Fault α) : Change α :=
  ExceptT.mk (pure outcome)

/-- A computation that only may fail is a change that leaves the configuration alone. -/
instance : MonadLift (Except Fault) Change := ⟨ofExcept⟩

/-- Gives a key a value. -/
def assign (key : String) (value : Json) : Change Unit :=
  modify fun config => config.set key value

/-- Gives a key a value unless it has one. -/
def supply (key : String) (value : Json) : Change Unit :=
  modify fun config => if (config.get? key).isSome then config else config.set key value

/-- The value of a key. -/
def read (key : String) : Change Json := do
  (← get).get key

/-- Adds a text to the list under a key unless it is there. -/
def extend (key raw : String) : Change Unit := do
  supply key (.array [])
  if !(← (← read key).holds raw) then
    assign key (← (← read key).append (.string raw))

/-- Makes an edit. -/
def ofEdit : ConfigEdit → Change Unit
  | .set key raw =>
    match Config.setting? key with
    | none => throw (.unknownKey key)
    | some setting =>
      match setting.type with
      | .switch =>
        match Config.switch? raw with
        | some value => assign key (.bool value)
        | none => throw (.notSwitch key raw)
      | .list => extend key raw
      | .text => assign key (.string raw)
  | .unset key =>
    match Config.setting? key with
    | none => throw (.unknownKey key)
    | some setting => assign key setting.default

/-- The outcome of a change and the configuration after it, whether it succeeds or fails. -/
def runOn {α : Type} (change : Change α) (config : Config) : Except Fault α × Config :=
  Id.run (StateT.run (ExceptT.run change) config)

end Change

end ExportCover
