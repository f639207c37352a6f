import ExportCover.Text.Quoted

/-!
# Command-line arguments

A general reader for command lines. A command has options, which start with a dash, and positional
arguments. Long options may be shortened as long as that leaves no doubt, a value may follow its
option after an equals sign, short options without values may share a dash, and `--` ends the
options. The last positional argument of a command may be a command of its own, which takes all
arguments after it.
-/

namespace ExportCover.Command

/-- An option. -/
structure Flag where
  /-- All spellings. -/
  names : List String
  takesValue : Bool
deriving DecidableEq, Repr

/-- How many arguments a positional argument takes. -/
inductive Arity where
  | one
  | many
  /-- A command and everything after it. -/
  | command
deriving DecidableEq, Repr

/-- A positional argument. -/
structure Positional where
  name : String
  arity : Arity
  /-- The admitted values, if not every value is. -/
  choices : Option (List String)
deriving DecidableEq, Repr

/-- What a command takes. -/
structure Usage where
  /-- The words that call the command. -/
  program : String
  flags : List Flag
  positionals : List Positional
deriving DecidableEq, Repr

/-- Why a command line is not carried out. -/
inductive Refusal where
  /-- The arguments break a rule. -/
  | misuse (program text : String)
  /-- The arguments ask for help. -/
  | help (program : String)
deriving DecidableEq, Repr

/-- An option or a positional argument with the values that it was given. -/
structure Given where
  name : String
  values : List String
deriving DecidableEq, Repr

/-- The option that asks for help. Every command has it. -/
def helpFlag : Flag := ⟨["-h", "--help"], false⟩

/-- How messages call an option. -/
def Flag.label (flag : Flag) : String :=
  "/".intercalate flag.names

/-- An argument that was recognised as an option. -/
structure Match where
  /-- The option, if the command has it. -/
  flag : Option Flag
  /-- The spelling that was recognised. -/
  name : String
  /-- The value came after an equals sign. -/
  hasSign : Bool
  /-- The value in the same argument. -/
  value : Option String
deriving DecidableEq, Repr

/-- What an argument is. -/
inductive Mark where
  | plain
  | separator
  | flag (found : Match)
deriving DecidableEq, Repr

namespace Usage

/-- All options, that for help first. -/
def allFlags (spec : Usage) : List Flag :=
  helpFlag :: spec.flags

/-- The spellings of all options with their options, in order. -/
def spellings (spec : Usage) : List (String × Flag) :=
  spec.allFlags.flatMap fun flag => flag.names.map fun name => (name, flag)

/-- A message about a broken rule. -/
def misuse {α : Type} (spec : Usage) (text : String) : Except Refusal α :=
  .error (.misuse spec.program text)

/-- A message about an argument. -/
def misuseOf {α : Type} (spec : Usage) (label text : String) : Except Refusal α :=
  spec.misuse ("argument " ++ label ++ ": " ++ text)

/-- A text before and after its first equals sign. -/
def splitSign (text : String) : String × Option String :=
  match text.toList.dropWhile (· != '=') with
  | [] => (text, none)
  | _ :: value => (String.ofList (text.toList.takeWhile (· != '=')), some (String.ofList value))

/-- The options that a shortened spelling may stand for. -/
def candidates (spec : Usage) (argument : String) : List Match :=
  if Text.startsWith argument "--" then
    let (start, value) := splitSign argument
    (spec.spellings.filter fun (name, _) => Text.startsWith name start).map fun (name, flag) =>
      ⟨some flag, name, value.isSome, value⟩
  else
    let short := String.ofList (argument.toList.take 2)
    let value := String.ofList (argument.toList.drop 2)
    spec.spellings.filterMap fun (name, flag) =>
      if name == short then some ⟨some flag, name, false, some value⟩
      else if Text.startsWith name argument then some ⟨some flag, name, false, none⟩
      else none

/-- The text is a number with a minus sign. -/
def isNegativeNumber (text : String) : Bool :=
  match text.toList with
  | '-' :: digits =>
    let rest := digits.dropWhile Char.isDigit
    match rest with
    | [] => !digits.isEmpty
    | '.' :: fraction => !fraction.isEmpty && fraction.all Char.isDigit
    | _ => false
  | _ => false

/-- What an argument before the separator is. -/
def classify (spec : Usage) (argument : String) : Except Refusal Mark :=
  if !Text.startsWith argument "-" then .ok .plain
  else
    match spec.spellings.lookup argument with
    | some flag => .ok (.flag ⟨some flag, argument, false, none⟩)
    | none =>
      if argument == "-" then .ok .plain
      else
        let (start, value) := splitSign argument
        match value, spec.spellings.lookup start with
        | some value, some flag => .ok (.flag ⟨some flag, start, true, some value⟩)
        | _, _ =>
          match spec.candidates argument with
          | [found] => .ok (.flag found)
          | [] =>
            if isNegativeNumber argument || argument.toList.contains ' ' then .ok .plain
            else .ok (.flag ⟨none, argument, false, none⟩)
          | several => spec.misuse ("ambiguous option: " ++ argument ++ " could match "
              ++ ", ".intercalate (several.map (·.name)))

/-- What every argument is. After the first separator all are plain. -/
def classifyAll (spec : Usage) : List String → Except Refusal (List (String × Mark))
  | [] => .ok []
  | argument :: rest =>
    if argument == "--" then
      .ok ((argument, .separator) :: rest.map fun other => (other, .plain))
    else do
      let mark ← spec.classify argument
      return (argument, mark) :: (← spec.classifyAll rest)

end Usage

namespace Mark

/-- The argument is the separator. -/
def isSeparator : Mark → Bool
  | .separator => true
  | _ => false

/-- The argument is neither the separator nor an option. -/
def isPlain : Mark → Bool
  | .plain => true
  | _ => false

/-- The argument is an option. -/
def isFlag : Mark → Bool
  | .flag _ => true
  | _ => false

end Mark

/-- The number of arguments that a positional argument takes from the start of a list. -/
def Arity.extent (arity : Arity) (marks : List Mark) : Option Nat :=
  let before := (marks.takeWhile Mark.isSeparator).length
  let rest := marks.drop before
  match arity with
  | .many => some (marks.takeWhile fun mark => !mark.isFlag).length
  | .one =>
    if rest.head?.any Mark.isPlain then
      some (before + 1 + ((rest.drop 1).takeWhile Mark.isSeparator).length)
    else none
  | .command => if rest.head?.any Mark.isPlain then some marks.length else none

/-- How far a command line has been read. -/
structure Reading where
  rest : List (String × Mark)
  positionals : List Positional
  given : List Given
  /-- The arguments that nothing takes. -/
  extras : List String
deriving DecidableEq, Repr

namespace Usage

/-- The values of a positional argument; the separator is none of them. -/
def valuesOf (spec : Usage) (positional : Positional) (arguments : List String) :
    Except Refusal Given := do
  let values := match positional.arity with
    | .command => arguments
    | _ => arguments.erase "--"
  let checked := match positional.arity with
    | .command => values.take 1
    | _ => values
  match positional.choices with
  | none => return ⟨positional.name, values⟩
  | some choices =>
    match checked.find? fun value => !choices.contains value with
    | none => return ⟨positional.name, values⟩
    | some value => spec.misuseOf positional.name ("invalid choice: " ++ Text.quoted value
        ++ " (choose from " ++ ", ".intercalate (choices.map Text.quoted) ++ ")")

/-- Gives arguments to as many positional arguments as possible. -/
def takePositionals (spec : Usage) (given : List Given) :
    List Positional → List (String × Mark) → Except Refusal Reading
  | [], rest => .ok ⟨rest, [], given, []⟩
  | positional :: others, rest =>
    match positional.arity.extent (rest.map (·.2)) with
    | none => .ok ⟨rest, positional :: others, given, []⟩
    | some count => do
      let taken ← spec.valuesOf positional ((rest.take count).map (·.1))
      spec.takePositionals (given ++ [taken]) others (rest.drop count)

/-- Gives arguments to the positional arguments that are left. -/
def readPositionals (spec : Usage) (reading : Reading) : Except Refusal Reading := do
  let taken ← spec.takePositionals reading.given reading.positionals reading.rest
  return { taken with extras := reading.extras }

/-- Options that share a dash, the first of them known, and what remains of the argument if it names
no option. `value` is what follows the option in the argument. -/
def sharedDash (spec : Usage) (flag : Flag) (hasSign : Bool) :
    List Char → Except Refusal (List Given × Option Flag × Option String)
  | [] => .ok ([], some flag, none)
  | c :: value =>
    let text := String.ofList (c :: value)
    if flag.takesValue then .ok ([⟨flag.label, [text]⟩], none, none)
    else if hasSign || c == '-' then
      spec.misuseOf flag.label ("ignored explicit argument " ++ Text.quoted text)
    else
      match spec.spellings.lookup (String.ofList ['-', c]) with
      | none => .ok ([⟨flag.label, []⟩], none, some ("-" ++ text))
      | some next =>
        match value with
        | '=' :: more => do
          let (given, open_, extra) ←
            if more.isEmpty then spec.misuseOf next.label "ignored explicit argument ''"
            else spec.sharedDash next true more
          return (⟨flag.label, []⟩ :: given, open_, extra)
        | more => do
          let (given, open_, extra) ← spec.sharedDash next false more
          return (⟨flag.label, []⟩ :: given, open_, extra)

/-- Reads an option that takes its value, if any, from the arguments after it. -/
def readFlag (spec : Usage) (flag : Flag) (reading : Reading) : Except Refusal Reading :=
  if !flag.takesValue then
    .ok { reading with given := reading.given ++ [⟨flag.label, []⟩] }
  else
    match reading.rest with
    | (value, .plain) :: rest =>
      .ok { reading with rest := rest, given := reading.given ++ [⟨flag.label, [value]⟩] }
    | _ => spec.misuseOf flag.label "expected one argument"

/-- Reads an argument that was recognised as an option. -/
def readMatch (spec : Usage) (argument : String) (found : Match) (reading : Reading) :
    Except Refusal Reading :=
  match found.flag, found.value with
  | none, _ => .ok { reading with extras := reading.extras ++ [argument] }
  | some flag, none => spec.readFlag flag reading
  | some flag, some value =>
    if flag.takesValue then
      .ok { reading with given := reading.given ++ [⟨flag.label, [value]⟩] }
    else if Text.startsWith found.name "--" || value == "" then
      spec.misuseOf flag.label ("ignored explicit argument " ++ Text.quoted value)
    else do
      let (given, open_, extra) ← spec.sharedDash flag found.hasSign value.toList
      let reading := { reading with
        given := reading.given ++ given, extras := reading.extras ++ extra.toList }
      match open_ with
      | none => return reading
      | some last => spec.readFlag last reading

/-- Reads options and positional arguments in turn until no option is left. -/
def readWithin (spec : Usage) : Nat → Reading → Except Refusal Reading
  | 0, reading => .ok reading
  | fuel + 1, reading =>
    if !(reading.rest.any (·.2.isFlag)) then do
      let final ← spec.readPositionals reading
      return { final with extras := final.extras ++ final.rest.map (·.1), rest := [] }
    else
      match reading.rest with
      | (argument, .flag found) :: rest => do
        let next ← spec.readMatch argument found { reading with rest := rest }
        if next.given.any (·.name == helpFlag.label) then throw (.help spec.program)
        spec.readWithin fuel next
      | _ => do
        let taken ← spec.readPositionals reading
        if taken.rest.length < reading.rest.length then spec.readWithin fuel taken
        else
          let skipped := taken.rest.takeWhile fun argument => !argument.2.isFlag
          spec.readWithin fuel { taken with
            rest := taken.rest.drop skipped.length
            extras := taken.extras ++ skipped.map (·.1) }

/-- The positional arguments that a command cannot do without. -/
def required (positionals : List Positional) : List String :=
  (positionals.filter (·.arity != .many)).map (·.name)

/-- Reads the arguments of a command: what they give, and those that nothing takes. -/
def read (spec : Usage) (arguments : List String) : Except Refusal (List Given × List String) := do
  let marked ← spec.classifyAll arguments
  let final ← spec.readWithin (2 * arguments.length + 1) ⟨marked, spec.positionals, [], []⟩
  let missing := required final.positionals
  if !missing.isEmpty then
    spec.misuse ("the following arguments are required: " ++ ", ".intercalate missing)
  return (final.given, final.extras)

end Usage

/-- The values that were given under a name the last time. -/
def valuesGiven (given : List Given) (name : String) : Option (List String) :=
  (given.reverse.find? (·.name == name)).map (·.values)

/-- The single value that was given under a name the last time. -/
def valueGiven (given : List Given) (name : String) : Option String :=
  (valuesGiven given name).bind List.head?

end ExportCover.Command
