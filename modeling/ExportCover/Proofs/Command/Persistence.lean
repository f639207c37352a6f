import ExportCover.Command.Basic
import ExportCover.Proofs.Command.Arguments
import ExportCover.Proofs.Config.Stored
import ExportCover.Proofs.FileTree.Replace

/-!
# Edits on the command line

Command lines that edit the configuration of a project, one after the other, leave the configuration
that the same edits give in memory (`edits_persist`). The root of the project is the working
directory or the directory that an option names. A step either replaces the file by the edited
configuration or is refused and leaves the tree as it is (`Stores.steps`), and after it the project
stores a configuration again (`Steps.stores`).
-/

namespace ExportCover.Command

open Config (schema)

/-- What is found at the path of a configuration file: nothing, which counts as an empty
configuration, or a file with an object. Where nothing is found, the path must not lead to a
directory through more links than are followed. -/
inductive Finds (tree : FileTree) (path : List String) : Config → Prop where
  | nothing {error : SystemError} (absent : tree.status path = .error error)
    (aside : ∀ n place, tree.Leads n [] path place → tree.entry? place ≠ some .directory) :
    Finds tree path []
  | object {content : Bytes} {fields : Config} (read : tree.read path = .ok content)
    (parsed : (Text.decode? content).bind Json.parse? = some (.object fields)) :
    Finds tree path fields

/-- A project whose configuration can be edited: its folder is there or can be made, and the keys of
the schema that are in the file have values of their kinds. -/
structure CanEdit (tree : FileTree) (root : Path) (fields : Config) : Prop where
  proper : tree.IsProper
  isRoot : tree.entry? root = some .directory
  folder : tree.entry? (root ++ [".requiretest"]) = none ∨
    tree.isDirectory (root ++ [".requiretest"]) = true
  finds : Finds tree (root ++ Config.fileNames) fields
  exact : Json.Exact (.object fields)
  fits : ∀ setting ∈ schema, ∀ value, fields.get? setting.key = some value →
    Config.SettingType.fits setting.type value = true

/-- The configuration that a project stores. -/
def projectConfig (disk : Disk) (root : Path) : Config :=
  Run.storedConfig disk (Path.render root)

/-- The root of a project: the one that was named, or the working directory. -/
def projectRoot (disk : Disk) (named : Option Path) : Path :=
  named.getD disk.cwd

/-- The command line for an edit in a project. -/
def commandLine (named : Option Path) (edit : ConfigEdit) : List String :=
  rootArguments (named.map Path.render) ++ editArguments edit

/-- What a command line leaves for the next one. -/
def Setting.after (setting : Setting) (arguments : List String) : Setting :=
  { setting with disk := ⟨(run setting arguments).tree, setting.disk.cwd⟩ }

/-- What the command lines for edits leave, one after the other. -/
def Setting.afterEdits (setting : Setting) (named : Option Path) (edits : List ConfigEdit) :
    Setting :=
  edits.foldl (fun setting edit => setting.after (commandLine named edit)) setting

/-- The project at a root stores a configuration that can be edited. -/
structure Stores (disk : Disk) (root : Path) (config : Config) : Prop where
  keeps : disk.tree.Keeps root ".requiretest" "config.json"
  loads : projectConfig disk root = config
  editable : config.Editable
  complete : config.IsComplete

variable {setting : Setting} {disk : Disk} {root : Path} {named : Option Path}
  {fields config : Config} {edit : ConfigEdit}

/-- The configuration of a project is looked for below its root, without `..` on the way. -/
lemma names_fileNames (proper : disk.tree.IsProper)
    (isRoot : disk.tree.entry? root = some .directory) :
    disk.names (Path.render root) ++ Config.fileNames
      = root ++ [".requiretest", "config.json"] := by
  rw [Disk.names_render, Path.names_render (proper.normal_of_entry? isRoot)]
  rfl

/-- A file that is found is an object that can be edited, and nothing counts as one without
fields. -/
lemma Finds.editable {tree : FileTree} {path : List String} (finds : Finds tree path fields)
    (exact : Json.Exact (.object fields))
    (fits : ∀ setting ∈ schema, ∀ value, fields.get? setting.key = some value →
      Config.SettingType.fits setting.type value) :
    fields.Editable ∧ Config.load tree path = fields.fill := by
  cases finds with
  | nothing absent =>
    exact ⟨⟨List.nodup_nil, nofun, nofun⟩, Config.load_of_absent absent⟩
  | object read parsed =>
    obtain ⟨text, -, holds⟩ := Option.bind_eq_some_iff.mp parsed
    cases exact with
    | object allExact =>
    cases Json.distinct_of_parse? holds with
    | object once allDistinct =>
    refine ⟨⟨once, fun entry mem => ⟨allExact entry mem, allDistinct entry mem⟩, fits⟩, ?_⟩
    rw [Config.load, Config.stored?, read]
    dsimp only
    rw [parsed]
    rfl

/-- The entry of a configuration file leads to no directory. -/
lemma Finds.leadsAside {tree : FileTree} {name : String} {directory : Path}
    (finds : Finds tree (root ++ [name]) fields) (located : tree.locate root = .ok directory)
    (isDirectory : tree.entry? directory = some .directory) : tree.LeadsAside directory name := by
  intro n place leads isPlace
  obtain ⟨m, -, above⟩ := FileTree.locate_eq_ok_iff.mp located
  have whole := above.append isDirectory leads
  cases finds with
  | nothing _ aside => exact aside _ _ whole isPlace
  | object read _ =>
    obtain ⟨other, found, isFile⟩ := FileTree.read_eq_ok_iff.mp read
    obtain ⟨_, -, leads'⟩ := FileTree.locate_eq_ok_iff.mp found
    obtain ⟨-, rfl⟩ := whole.unique leads'
    cases isPlace.symm.trans isFile

/-- What is found can be edited after the keys that it lacks were filled in. -/
lemma CanEdit.stores (project : CanEdit disk.tree root fields) : Stores disk root fields.fill := by
  obtain ⟨editable, loads⟩ := project.finds.editable project.exact project.fits
  refine ⟨⟨project.proper, project.isRoot, ?_⟩, ?_, editable.fill, Config.isComplete_fill fields⟩
  · refine project.folder.imp_right fun isFolder => ?_
    rw [FileTree.isDirectory] at isFolder
    split at isFolder
    next found =>
      obtain ⟨directory, located, isDirectory⟩ := FileTree.status_eq_ok_iff.mp found
      have names : root ++ Config.fileNames = root ++ [".requiretest"] ++ ["config.json"] := by
        rw [List.append_assoc]
        rfl
      have finds := project.finds
      rw [names] at finds
      exact ⟨directory, located, isDirectory, finds.leadsAside located isDirectory⟩
    next => cases isFolder
  · rw [projectConfig, Run.storedConfig, names_fileNames project.proper project.isRoot]
    exact loads

/-- The root of a project is found again however it was named. -/
lemma rootOf_projectRoot (proper : disk.tree.IsProper)
    (isRoot : disk.tree.entry? (projectRoot disk named) = some .directory) :
    rootOf disk (named.map Path.render) = .ok (Path.render (projectRoot disk named)) := by
  cases named with
  | none => rfl
  | some root =>
    have names := Path.names_render (proper.normal_of_entry? isRoot)
    have resolved : disk.resolve (Path.render root) = .ok root := by
      rw [projectRoot, Option.getD_some] at isRoot names
      rw [Disk.resolve_render, names, proper.resolve_directory isRoot]
    rw [Option.map_some, rootOf, resolved]
    · rfl
    · exact ne_of_apply_ne String.toList (by simp [Path.render])

/-- A path from the root cannot be mistaken for an option. -/
lemma isPlain_render (path : Path) : IsPlain (Path.render path) := by
  rw [IsPlain, Text.startsWith, Path.render, String.toList_append]
  rfl

/-- A command line for an edit carries it out at the root of the project. -/
lemma run_commandLine (typable : IsTypable edit) (proper : setting.disk.tree.IsProper)
    (isRoot : setting.disk.tree.entry? (projectRoot setting.disk named) = some .directory) :
    run setting (commandLine named edit)
      = editConfig setting (Path.render (projectRoot setting.disk named)) edit := by
  have plain : ∀ text ∈ named.map Path.render, IsPlain text := by
    intro text mem
    obtain ⟨root, -, rfl⟩ := Option.map_eq_some_iff.mp mem
    exact isPlain_render root
  rw [run, commandLine, readInvocation_edit plain typable]
  simp only [perform, rootOf_projectRoot proper isRoot]

/-- The configuration is looked for where it is stored. -/
lemma Stores.names (stores : Stores disk root config) :
    disk.names (Path.render root) ++ Config.fileNames = root ++ [".requiretest", "config.json"] :=
  names_fileNames stores.keeps.proper stores.keeps.isRoot

/-- The configuration that is stored is the one that is loaded. -/
lemma Stores.load_eq (stores : Stores disk root config) :
    Config.load disk.tree (root ++ [".requiretest", "config.json"]) = config := by
  rw [← stores.names]
  exact stores.loads

/-- An edit that has a result replaces the file by it. -/
lemma Stores.run_eq {edited : Config}
    (stores : Stores setting.disk (projectRoot setting.disk named) config)
    (typable : IsTypable edit) (applied : config.apply edit = .ok edited)
    (editable : edited.Editable) (complete : edited.IsComplete) :
    ∃ output, (run setting (commandLine named edit)).output = .ok output ∧ output.exit = 0 ∧
      Stores (setting.after (commandLine named edit)).disk (projectRoot setting.disk named)
        edited := by
  obtain ⟨tree', saved, keeps, read⟩ := stores.keeps.exists_replaceFile (by decide) (by decide)
    (by decide) (by decide) (Text.encode edited.fileText)
  have outcome : ∃ output, run setting (commandLine named edit) = ⟨.ok output, tree'⟩ ∧
      output.exit = 0 := by
    rw [run_commandLine typable stores.keeps.proper stores.keeps.isRoot, editConfig]
    simp only [stores.names, stores.load_eq, applied, Config.save, saved]
    exact ⟨_, rfl, rfl⟩
  obtain ⟨output, ran, exit⟩ := outcome
  refine ⟨output, by rw [ran], exit, ?_⟩
  rw [Setting.after, ran]
  refine ⟨keeps, ?_, editable, complete⟩
  rw [projectConfig, Run.storedConfig, names_fileNames keeps.proper keeps.isRoot,
    Config.load_of_read editable read, complete.fill_eq_self]

/-- An edit that has no result is refused and changes nothing. -/
lemma Stores.run_refused {raw : String}
    (stores : Stores setting.disk (projectRoot setting.disk named) config)
    (typable : IsTypable edit) (refused : config.apply edit = .error (.notSwitch edit.key raw)) :
    ∃ output, (run setting (commandLine named edit)).output = .ok output ∧ output.exit = 2 ∧
      (run setting (commandLine named edit)).tree = setting.disk.tree := by
  rw [run_commandLine typable stores.keeps.proper stores.keeps.isRoot, editConfig]
  simp only [stores.names, stores.load_eq, refused]
  exact ⟨_, rfl, rfl, rfl⟩

/-- What a step does: an edit is carried out and stored, or it is refused and changes nothing. -/
inductive Steps (setting : Setting) (named : Option Path) (edit : ConfigEdit) (config : Config) :
    Prop where
  | done (edited : Config) (output : Output) (applied : config.apply edit = .ok edited)
    (printed : (run setting (commandLine named edit)).output = .ok output) (exit : output.exit = 0)
    (stores : Stores (setting.after (commandLine named edit)).disk (projectRoot setting.disk named)
      edited)
  | refused (fault : Fault) (output : Output) (failed : config.apply edit = .error fault)
    (printed : (run setting (commandLine named edit)).output = .ok output) (exit : output.exit = 2)
    (same : (run setting (commandLine named edit)).tree = setting.disk.tree)

/-- A step of a project that stores a configuration. -/
lemma Stores.steps (stores : Stores setting.disk (projectRoot setting.disk named) config)
    (typable : IsTypable edit) : Steps setting named edit config := by
  obtain ⟨edited, applied, editable, complete⟩ | ⟨raw, refused⟩ :=
    stores.editable.apply stores.complete typable.known
  · obtain ⟨output, printed, exit, stores'⟩ :=
      stores.run_eq typable applied editable complete
    exact .done edited output applied printed exit stores'
  · obtain ⟨output, printed, exit, same⟩ := stores.run_refused typable refused
    exact .refused _ output refused printed exit same

/-- After a step the project stores a configuration again: the edited one, or the same. -/
lemma Steps.stores (steps : Steps setting named edit config)
    (stores : Stores setting.disk (projectRoot setting.disk named) config) :
    Stores (setting.after (commandLine named edit)).disk (projectRoot setting.disk named)
      (config.applyAll [edit]) := by
  cases steps with
  | done edited _ applied _ _ stores' =>
    rw [Config.applyAll, List.foldl_cons, applied]
    exact stores'
  | refused _ _ failed _ _ same =>
    rw [Config.applyAll, List.foldl_cons, failed, Setting.after, same]
    exact stores

/-- The working directory stays. -/
lemma projectRoot_afterEdits (setting : Setting) (named : Option Path) (edits : List ConfigEdit) :
    projectRoot (setting.afterEdits named edits).disk named = projectRoot setting.disk named := by
  induction edits generalizing setting with
  | nil => rfl
  | cons edit edits ih => exact ih (setting.after (commandLine named edit))

/-- A run: after edits the project stores what they come to. -/
lemma Stores.afterEdits (stores : Stores setting.disk (projectRoot setting.disk named) config)
    {edits : List ConfigEdit} (typable : ∀ edit ∈ edits, IsTypable edit) :
    Stores (setting.afterEdits named edits).disk (projectRoot setting.disk named)
      (config.applyAll edits) := by
  induction edits using List.reverseRecOn with
  | nil => exact stores
  | append_singleton edits edit ih =>
    obtain ⟨before, last⟩ := List.forall_mem_append.mp typable
    have reached := ih before
    rw [← projectRoot_afterEdits setting named edits] at reached ⊢
    rw [Setting.afterEdits, List.foldl_append, Config.applyAll, List.foldl_append]
    exact (reached.steps (last edit List.mem_cons_self)).stores reached

section Lost

/-- A session at the root of a tree. -/
def bareSetting (tree : FileTree) : Setting :=
  ⟨⟨tree, []⟩, ⟨false, false⟩, true⟩

/-- A project without a configuration file that can be loaded. -/
structure IsBare (tree : FileTree) : Prop where
  proper : tree.IsProper
  absent : ∃ error, tree.status Config.fileNames = .error error

variable {tree tree' : FileTree}

/-- Where nothing is stored the defaults are loaded. -/
lemma IsBare.load_eq (bare : IsBare tree) : Config.load tree Config.fileNames = Config.fill [] := by
  obtain ⟨error, absent⟩ := bare.absent
  exact Config.load_of_absent absent

/-- The configuration of a bare tree is looked for right below the root. -/
lemma IsBare.names (bare : IsBare tree) :
    (bareSetting tree).disk.names (Path.render []) ++ Config.fileNames = Config.fileNames :=
  names_fileNames bare.proper rfl

end Lost

end ExportCover.Command
