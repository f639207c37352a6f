import ExportCover.Command.Arguments
import ExportCover.Config.Edit

/-!
# Invocations

What the program is asked to do: a check of modules, or a look at the configuration or a change of
it.
-/

namespace ExportCover

/-- What the program is asked to do. -/
inductive Task where
  /-- Check modules, all of them if no paths are given. -/
  | check (paths : List String) (asJson : Bool)
  | showConfig
  | editConfig (edit : ConfigEdit)
deriving DecidableEq, Repr

/-- A command line that makes sense. -/
structure Invocation where
  /-- The root of the project, if one was given. -/
  root : Option String
  /-- All notices are wanted. -/
  isVerbose : Bool
  task : Task
deriving DecidableEq, Repr

namespace Command

/-- The name of the program. -/
def programName : String := "requiretest"

/-- The option for the root of the project. -/
def rootFlag : Flag := ⟨["--root"], true⟩

/-- The option for all notices. -/
def verboseFlag : Flag := ⟨["-v", "--verbose"], false⟩

/-- The option for a report that programs can read. -/
def jsonFlag : Flag := ⟨["--json"], false⟩

/-- The keys that can be edited, in the order of their characters. -/
def editableKeys : List String :=
  (Config.schema.map (·.key)).mergeSort fun a b => a ≤ b

/-- What the program takes. -/
def usage : Usage :=
  ⟨programName, [rootFlag, verboseFlag], [⟨"command", .command, some ["check", "config"]⟩]⟩

/-- What the check takes. -/
def checkUsage : Usage :=
  ⟨programName ++ " check", [jsonFlag], [⟨"paths", .many, none⟩]⟩

/-- What the command for the configuration takes. -/
def configUsage : Usage :=
  ⟨programName ++ " config", [], [⟨"config_action", .command, some ["show", "set", "unset"]⟩]⟩

/-- What showing the configuration takes. -/
def showUsage : Usage :=
  ⟨programName ++ " config show", [], []⟩

/-- What setting a key takes. -/
def setUsage : Usage :=
  ⟨programName ++ " config set", [], [⟨"key", .one, some editableKeys⟩, ⟨"value", .one, none⟩]⟩

/-- What putting a key back takes. -/
def unsetUsage : Usage :=
  ⟨programName ++ " config unset", [], [⟨"key", .one, some editableKeys⟩]⟩

/-- The command that was given and the arguments for it. -/
def subcommand (given : List Given) (name : String) : String × List String :=
  match valuesGiven given name with
  | some (command :: arguments) => (command, arguments)
  | _ => ("", [])

/-- Reads the arguments of the check. -/
def readCheck (arguments : List String) : Except Refusal (Task × List String) := do
  let (given, extras) ← checkUsage.read arguments
  let paths := (valuesGiven given "paths").getD []
  return (.check paths (valuesGiven given jsonFlag.label).isSome, extras)

/-- Reads the arguments of the command for the configuration. -/
def readConfig (arguments : List String) : Except Refusal (Task × List String) := do
  let (given, extras) ← configUsage.read arguments
  let (action, arguments) := subcommand given "config_action"
  let valueOf (given : List Given) (name : String) := (valueGiven given name).getD ""
  let (task, others) ←
    if action == "set" then do
      let (given, others) ← setUsage.read arguments
      pure (Task.editConfig (.set (valueOf given "key") (valueOf given "value")), others)
    else if action == "unset" then do
      let (given, others) ← unsetUsage.read arguments
      pure (Task.editConfig (.unset (valueOf given "key")), others)
    else do
      let (_, others) ← showUsage.read arguments
      pure (Task.showConfig, others)
  return (task, extras ++ others)

/-- Reads a whole command line. Arguments that nothing takes are refused at the end. -/
def readInvocation (arguments : List String) : Except Refusal Invocation := do
  let (given, extras) ← usage.read arguments
  let (command, rest) := subcommand given "command"
  let (task, others) ← if command == "check" then readCheck rest else readConfig rest
  let unknown := extras ++ others
  if !unknown.isEmpty then
    usage.misuse ("unrecognized arguments: " ++ " ".intercalate unknown)
  return ⟨valueGiven given rootFlag.label, (valuesGiven given verboseFlag.label).isSome, task⟩

/-- The line that says how a command line breaks a rule. -/
def Refusal.line : Refusal → String
  | .misuse program text => program ++ ": error: " ++ text
  | .help program => "usage: " ++ program ++ " [-h] ..."

end Command

end ExportCover
