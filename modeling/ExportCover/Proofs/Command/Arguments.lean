import Mathlib.Data.List.Basic
import ExportCover.Command.Invocation
import ExportCover.Proofs.Path.Names

/-!
# Command lines for edits

Arguments that do not start with a dash are taken for what they stand for: the first one for the
command and the rest for what belongs to it (`takePositionals_command`). Before them there may be
the option for the root of the project (`read_usage`). So a command line that edits the
configuration is read as that edit (`readInvocation_edit`), whatever text a key is set to.
-/

namespace ExportCover.Command

/-- The argument is no option. -/
def IsPlain (argument : String) : Prop :=
  Text.startsWith argument "-" = false

/-- Whether an argument is plain can be computed. -/
instance (argument : String) : Decidable (IsPlain argument) :=
  inferInstanceAs (Decidable (_ = _))

variable {spec : Usage} {argument : String} {arguments : List String}

/-- A plain argument does not end the options. -/
lemma IsPlain.ne_separator (plain : IsPlain argument) : argument ≠ "--" := by
  rintro rfl
  revert plain
  decide

/-- The arguments with the mark that they are no options. -/
def plainMarks (arguments : List String) : List (String × Mark) :=
  arguments.map fun argument => (argument, .plain)

/-- Plain arguments are all classified as arguments. -/
lemma classifyAll_plain (plain : ∀ argument ∈ arguments, IsPlain argument) :
    spec.classifyAll arguments = .ok (plainMarks arguments) := by
  induction arguments with
  | nil => rfl
  | cons argument rest ih =>
    obtain ⟨here, plain⟩ := List.forall_mem_cons.mp plain
    have mark : spec.classify argument = .ok .plain := by
      rw [Usage.classify, here]
      rfl
    rw [Usage.classifyAll, if_neg (by simpa using here.ne_separator), mark, ih plain]
    rfl

/-- Once no option is left, the positional arguments are read in one go. -/
lemma readWithin_plain {positionals : List Positional} {given total : List Given} (fuel : Nat)
    (taken : spec.takePositionals given positionals (plainMarks arguments)
      = .ok ⟨[], [], total, []⟩) :
    spec.readWithin (fuel + 1) ⟨plainMarks arguments, positionals, given, []⟩
      = .ok ⟨[], [], total, []⟩ := by
  have noFlag : (plainMarks arguments).any (·.2.isFlag) = false := by
    simp [plainMarks, Mark.isFlag]
  rw [Usage.readWithin, noFlag, Usage.readPositionals, taken]
  rfl

/-- A command line without options. -/
lemma read_plain (plain : ∀ argument ∈ arguments, IsPlain argument) {given : List Given}
    (taken : spec.takePositionals [] spec.positionals (plainMarks arguments)
      = .ok ⟨[], [], given, []⟩) : spec.read arguments = .ok (given, []) := by
  rw [Usage.read, classifyAll_plain plain]
  simp only [bind, Except.bind, readWithin_plain _ taken]
  rfl

/-- A command takes all arguments that are there. -/
lemma extent_command (argument : String) (rest : List String) :
    Arity.extent .command ((plainMarks (argument :: rest)).map (·.2))
      = some (plainMarks (argument :: rest)).length := by
  simp [plainMarks, Arity.extent, Mark.isSeparator, Mark.isPlain]

/-- A single argument takes one mark. -/
lemma extent_one (argument : String) (rest : List String) :
    Arity.extent .one ((plainMarks (argument :: rest)).map (·.2)) = some 1 := by
  cases rest <;> simp [plainMarks, Arity.extent, Mark.isSeparator, Mark.isPlain]

/-- The marks of plain arguments are about these arguments. -/
lemma map_plainMarks (arguments : List String) : (plainMarks arguments).map (·.1) = arguments := by
  rw [plainMarks, List.map_map]
  exact List.map_id arguments

/-- A command takes all arguments after it. -/
lemma takePositionals_command {name command : String} {choices : List String}
    (mem : command ∈ choices) (given : List Given) (rest : List String) :
    spec.takePositionals given [⟨name, .command, some choices⟩] (plainMarks (command :: rest))
      = .ok ⟨[], [], given ++ [⟨name, command :: rest⟩], []⟩ := by
  have values : spec.valuesOf ⟨name, .command, some choices⟩ (command :: rest)
      = .ok ⟨name, command :: rest⟩ := by
    simp only [Usage.valuesOf, List.take_succ_cons, List.take_zero, List.find?_cons,
      List.find?_nil, List.contains_iff_mem.mpr mem, Bool.not_true]
    rfl
  rw [Usage.takePositionals]
  simp only [extent_command, List.take_length, List.drop_length, map_plainMarks, values, bind,
    Except.bind]
  rfl

/-- A single argument is taken if it is among the admitted ones. -/
lemma valuesOf_one {name : String} {choices : Option (List String)} (plain : IsPlain argument)
    (admitted : ∀ all ∈ choices, argument ∈ all) :
    spec.valuesOf ⟨name, .one, choices⟩ [argument] = .ok ⟨name, [argument]⟩ := by
  have kept : [argument].erase "--" = [argument] := by
    rw [List.erase_of_not_mem]
    simpa using plain.ne_separator.symm
  cases choices with
  | none =>
    simp only [Usage.valuesOf, kept]
    rfl
  | some all =>
    simp only [Usage.valuesOf, kept, List.find?_cons, List.find?_nil,
      List.contains_iff_mem.mpr (admitted all rfl), Bool.not_true]
    rfl

/-- One argument more is taken by the next positional argument. -/
lemma takePositionals_one {name : String} {choices : Option (List String)}
    (plain : IsPlain argument) (admitted : ∀ all ∈ choices, argument ∈ all) (given : List Given)
    (others : List Positional) (rest : List String) :
    spec.takePositionals given (⟨name, .one, choices⟩ :: others) (plainMarks (argument :: rest))
      = spec.takePositionals (given ++ [⟨name, [argument]⟩]) others (plainMarks rest) := by
  rw [Usage.takePositionals]
  simp only [extent_one]
  have first : ((plainMarks (argument :: rest)).take 1).map (·.1) = [argument] := rfl
  rw [first, valuesOf_one plain admitted]
  rfl

section Edits

variable {key raw : String}

/-- The command line for an edit. -/
def editArguments : ConfigEdit → List String
  | .set key raw => ["config", "set", key, raw]
  | .unset key => ["config", "unset", key]

/-- An edit of a key of the schema that can be asked for on a command line: the text that the key is
set to does not start with a dash. -/
def IsTypable : ConfigEdit → Prop
  | .set key raw => key ∈ Config.schema.map (·.key) ∧ IsPlain raw
  | .unset key => key ∈ Config.schema.map (·.key)

/-- Whether an edit can be typed in can be computed. -/
instance : DecidablePred IsTypable
  | .set _ _ => inferInstanceAs (Decidable (_ ∧ _))
  | .unset _ => inferInstanceAs (Decidable (_ ∈ _))

/-- An edit that can be typed in is about a known key. -/
lemma IsTypable.known {edit : ConfigEdit} (typable : IsTypable edit) :
    edit.key ∈ Config.schema.map (·.key) := by
  cases edit with
  | set key raw => exact typable.1
  | unset key => exact typable

/-- The known keys are plain arguments. -/
lemma plain_of_known (known : key ∈ Config.schema.map (·.key)) : IsPlain key := by
  revert key
  decide

/-- Every known key can be edited. -/
lemma mem_editableKeys (known : key ∈ Config.schema.map (·.key)) : key ∈ editableKeys :=
  List.mem_mergeSort.mpr known

/-- The words `set`, a key and a value are read as these two. -/
lemma read_set (known : key ∈ Config.schema.map (·.key)) (plain : IsPlain raw) :
    setUsage.read [key, raw] = .ok ([⟨"key", [key]⟩, ⟨"value", [raw]⟩], []) := by
  have plainKey := plain_of_known known
  have admitted : ∀ all ∈ some editableKeys, key ∈ all := by simpa using mem_editableKeys known
  refine read_plain (by simpa using ⟨plainKey, plain⟩) ?_
  rw [setUsage, takePositionals_one plainKey admitted, takePositionals_one plain (by simp)]
  rfl

/-- The words `unset` and a key are read as that key. -/
lemma read_unset (known : key ∈ Config.schema.map (·.key)) :
    unsetUsage.read [key] = .ok ([⟨"key", [key]⟩], []) := by
  have plainKey := plain_of_known known
  have admitted : ∀ all ∈ some editableKeys, key ∈ all := by simpa using mem_editableKeys known
  refine read_plain (by simpa using plainKey) ?_
  rw [unsetUsage, takePositionals_one plainKey admitted]
  rfl

/-- The first word given for a subcommand is its name, and the others are its arguments. -/
lemma subcommand_single (name command : String) (rest : List String) :
    subcommand [⟨name, command :: rest⟩] name = (command, rest) := by
  simp [subcommand, valuesGiven]

/-- The action on the configuration and what belongs to it. -/
lemma read_action {action : String} {rest : List String} (mem : action ∈ ["show", "set", "unset"])
    (plain : ∀ argument ∈ action :: rest, IsPlain argument) :
    configUsage.read (action :: rest) = .ok ([⟨"config_action", action :: rest⟩], []) :=
  read_plain plain (takePositionals_command mem [] rest)

/-- The words `set`, a key and a text are read as an edit of that key. -/
lemma readConfig_set (known : key ∈ Config.schema.map (·.key)) (plain : IsPlain raw) :
    readConfig ["set", key, raw] = .ok (.editConfig (.set key raw), []) := by
  have all : ∀ argument ∈ ["set", key, raw], IsPlain argument := by
    simpa using ⟨by decide, plain_of_known known, plain⟩
  rw [readConfig, read_action (by decide) all]
  simp only [bind, Except.bind, subcommand_single, read_set known plain]
  rfl

/-- The words `unset` and a key are read as an edit that restores the default. -/
lemma readConfig_unset (known : key ∈ Config.schema.map (·.key)) :
    readConfig ["unset", key] = .ok (.editConfig (.unset key), []) := by
  have all : ∀ argument ∈ ["unset", key], IsPlain argument := by
    simpa using ⟨by decide, plain_of_known known⟩
  rw [readConfig, read_action (by decide) all]
  simp only [bind, Except.bind, subcommand_single, read_unset known]
  rfl

end Edits

section Root

/-- The arguments that name the root of a project; without them it is the working directory. -/
def rootArguments : Option String → List String
  | none => []
  | some root => ["--root", root]

/-- The option for the root is read together with its value. -/
lemma readWithin_root (fuel : Nat) (text : String) (positionals : List Positional) :
    spec.readWithin (fuel + 1) ⟨("--root", .flag ⟨some rootFlag, "--root", false, none⟩)
        :: plainMarks (text :: arguments), positionals, [], []⟩
      = spec.readWithin fuel ⟨plainMarks arguments, positionals, [⟨"--root", [text]⟩], []⟩ := by
  rw [Usage.readWithin, List.any_cons]
  rfl

/-- What the arguments about the root and the arguments of a command give. -/
def givenWith (root : Option String) (arguments : List String) : List Given :=
  (root.map fun text => Given.mk rootFlag.label [text]).toList ++ [⟨"command", arguments⟩]

/-- The arguments about the root come before the command and what belongs to it. -/
lemma read_usage {root : Option String} (plainRoot : ∀ text ∈ root, IsPlain text)
    {command : String} {rest : List String} (mem : command ∈ ["check", "config"])
    (plain : ∀ argument ∈ command :: rest, IsPlain argument) :
    usage.read (rootArguments root ++ command :: rest)
      = .ok (givenWith root (command :: rest), []) := by
  cases root with
  | none => exact read_plain plain (takePositionals_command mem [] rest)
  | some text =>
    have option : usage.classify "--root" = .ok (.flag ⟨some rootFlag, "--root", false, none⟩) := by
      decide
    have marked : usage.classifyAll ("--root" :: text :: command :: rest)
        = .ok (("--root", .flag ⟨some rootFlag, "--root", false, none⟩)
            :: plainMarks (text :: command :: rest)) := by
      rw [Usage.classifyAll, if_neg (by decide), option,
        classifyAll_plain (List.forall_mem_cons.mpr ⟨plainRoot text rfl, plain⟩)]
      rfl
    -- Once the option has its text, only plain arguments are left.
    have taken : usage.takePositionals [⟨"--root", [text]⟩] usage.positionals
        (plainMarks (command :: rest)) = .ok ⟨[], [], _, []⟩ := takePositionals_command mem _ rest
    change usage.read ("--root" :: text :: command :: rest) = _
    rw [Usage.read, marked]
    simp only [bind, Except.bind, List.length_cons, Nat.mul_add_one, readWithin_root,
      readWithin_plain _ taken]
    rfl

/-- A root that is given ahead leaves the subcommand as it is. -/
lemma subcommand_givenWith (root : Option String) (command : String) (rest : List String) :
    subcommand (givenWith root (command :: rest)) "command" = (command, rest) := by
  cases root <;> rfl

/-- A command line about the configuration is read as what its arguments ask for. -/
lemma readInvocation_config {root : Option String} (plainRoot : ∀ text ∈ root, IsPlain text)
    {task : Task} (plain : ∀ argument ∈ arguments, IsPlain argument)
    (asked : readConfig arguments = .ok (task, [])) :
    readInvocation (rootArguments root ++ "config" :: arguments) = .ok ⟨root, false, task⟩ := by
  have plain' := List.forall_mem_cons.mpr ⟨(by decide : IsPlain "config"), plain⟩
  rw [readInvocation, read_usage plainRoot (by decide) plain']
  simp only [bind, Except.bind, subcommand_givenWith]
  rw [if_neg (by decide), asked]
  cases root <;> rfl

/-- A command line that edits the configuration of a project is read as that edit. -/
theorem readInvocation_edit {root : Option String} (plainRoot : ∀ text ∈ root, IsPlain text)
    {edit : ConfigEdit} (typable : IsTypable edit) :
    readInvocation (rootArguments root ++ editArguments edit)
      = .ok ⟨root, false, .editConfig edit⟩ := by
  have plainKey := plain_of_known typable.known
  cases edit with
  | set key raw =>
    obtain ⟨known, plain⟩ := typable
    refine readInvocation_config plainRoot ?_ (readConfig_set known plain)
    simpa using ⟨by decide, plainKey, plain⟩
  | unset key =>
    refine readInvocation_config plainRoot ?_ (readConfig_unset typable)
    simpa using ⟨by decide, plainKey⟩

end Root

end ExportCover.Command
