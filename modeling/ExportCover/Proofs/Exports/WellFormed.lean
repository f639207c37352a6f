import ExportCover.Proofs.Exports.Occurrence
import ExportCover.Source.Program

/-!
# What collected functions look like

A function that is collected of a program is reported at the start of an export statement that is
neither marked nor a default export. An item of an export list is never collected without a name or
under the name `default`. The name of a declaration is taken as it is: it is empty if the node that
stands for the name covers no text, as in a tree with a name that the parser had to make up
(`Node.exports_wellFormed`).
-/

namespace ExportCover.Node

/-- The statement exports a declaration of a function, or of a single variable with an arrow
function, and the name of the declaration is the empty text. -/
def DeclaresUnnamed (statement : Node) : Prop :=
  ∃ declaration ∈ statement.child? "declaration",
    declaration.DeclaresFunction "" ∨ declaration.DeclaresArrow ""

/-- Whether a statement declares something unnamed can be computed. -/
instance (statement : Node) : Decidable statement.DeclaresUnnamed :=
  inferInstanceAs (Decidable (∃ declaration ∈ statement.child? "declaration", _))

variable {program statement : Node} {marker : String} {exports own : Exports}

/-- What unmarked export statements offer can be told if the exports of the program can. -/
lemma exists_exportsOfStatement_of_unmarked (extracted : program.exports marker = .ok exports)
    {placed : List Node × Node} (listed : placed ∈ program.placedExports)
    (unmarked : placed.2.isMarked marker placed.1 = false) :
    ∃ own, placed.2.exportsOfStatement program.symbolTable = .ok own :=
  ⟨_, (exports_eq_join extracted).1 placed
    (List.mem_filter.mpr ⟨listed, by simp [isUnmarked, unmarked]⟩)⟩

/-- A collected function is one that an unmarked export statement offers. -/
lemma mem_functions_iff (extracted : program.exports marker = .ok exports)
    (function : ExportedFunction) :
    function ∈ exports.functions ↔ ∃ placed ∈ program.placedExports,
      placed.2.isMarked marker placed.1 = false ∧
        ∃ own, placed.2.exportsOfStatement program.symbolTable = .ok own ∧
          function ∈ own.functions := by
  obtain ⟨each, rfl⟩ := exports_eq_join extracted
  rw [Exports.join, List.flatMap_map, List.mem_flatMap]
  constructor
  · rintro ⟨placed, mem, offered⟩
    obtain ⟨listed, unmarked⟩ := List.mem_filter.mp mem
    exact ⟨placed, listed, by simpa [isUnmarked] using unmarked, _, each placed mem, offered⟩
  · rintro ⟨placed, listed, unmarked, own, offers, mem⟩
    refine ⟨placed, List.mem_filter.mpr ⟨listed, by simp [isUnmarked, unmarked]⟩, ?_⟩
    rwa [offered_eq offers]

/-- A statement offers a function under a name if one is counted for it under this name. -/
lemma exists_name_iff (offers : statement.exportsOfStatement program.symbolTable = .ok own)
    (name : String) : (∃ function ∈ own.functions, function.name = name) ↔
      program.functionExports statement name ≠ 0 := by
  rw [← (offers_statement offers).counted, ← Nat.pos_iff_ne_zero, List.countP_pos_iff]
  simp only [beq_iff_eq]

/-- The empty name is only exported by a declaration without a name, not as the default. -/
lemma functionExports_empty_ne_zero_iff :
    program.functionExports statement "" ≠ 0 ↔
      statement.isDefaultExport = false ∧ statement.DeclaresUnnamed := by
  rw [functionExports, DeclaresUnnamed]
  cases statement.isDefaultExport with
  | true => simp
  | false =>
    cases statement.child? "declaration" with
    | some declaration => simp [or_iff_not_imp_left]
    | none => simp [ReExports]

/-- An item of an export list is counted under a proper name only. -/
lemma name_of_reExported {name : String} (kind : statement.exportKind = .reExported)
    (counted : program.functionExports statement name ≠ 0) : name ≠ "" ∧ name ≠ "default" := by
  rw [functionExports] at counted
  rw [exportKind] at kind
  cases declared : statement.child? "declaration" with
  | some declaration =>
    rw [declared] at kind
    dsimp only at kind
    split at kind <;> cases kind
  | none =>
    rw [declared] at counted
    dsimp only at counted
    split at counted
    · exact absurd rfl counted
    split at counted
    · exact absurd rfl counted
    · rw [← Nat.pos_iff_ne_zero, List.countP_pos_iff] at counted
      obtain ⟨specifier, _, reExports⟩ := counted
      obtain ⟨nonempty, noDefault, _⟩ := of_decide_eq_true reExports
      exact ⟨nonempty, noDefault⟩

/-- Every collected function is reported at the start of an export statement that is neither marked
nor a default export, and an item of an export list has a name other than `default`. All collected
functions have names if and only if no such statement declares a function without one. -/
theorem exports_wellFormed (extracted : program.exports marker = .ok exports) :
    (∀ function ∈ exports.functions,
      (function.kind = .reExported → function.name ≠ "" ∧ function.name ≠ "default") ∧
      ∃ placed ∈ program.placedExports, placed.2.isMarked marker placed.1 = false ∧
        placed.2.isDefaultExport = false ∧ function.line = placed.2.start.row + 1 ∧
        function.column = placed.2.start.column + 1) ∧
    ((∀ function ∈ exports.functions, function.name ≠ "") ↔
      ∀ placed ∈ program.placedExports, placed.2.isMarked marker placed.1 = false →
        placed.2.isDefaultExport = false → ¬ placed.2.DeclaresUnnamed) := by
  refine ⟨fun function mem => ?_, ?_, ?_⟩
  · obtain ⟨placed, listed, unmarked, own, offers, mem⟩ := (mem_functions_iff extracted _).mp mem
    have counted := (exists_name_iff offers function.name).mp ⟨function, mem, rfl⟩
    have kind := kind_of_mem offers function mem
    obtain ⟨line, column⟩ := (offers_statement offers).placed function mem
    have noDefault : placed.2.isDefaultExport = false := by
      rw [Bool.eq_false_iff]
      intro isDefault
      exact counted (if_pos isDefault)
    exact ⟨fun reExported => name_of_reExported (kind.symm.trans reExported) counted, placed,
      listed, unmarked, noDefault, line, column⟩
  · intro named placed listed unmarked noDefault unnamed
    obtain ⟨own, offers⟩ := exists_exportsOfStatement_of_unmarked extracted listed unmarked
    obtain ⟨function, mem, empty⟩ := (exists_name_iff offers "").mpr
      (functionExports_empty_ne_zero_iff.mpr ⟨noDefault, unnamed⟩)
    have collected := (mem_functions_iff extracted function).mpr
      ⟨placed, listed, unmarked, own, offers, mem⟩
    exact named function collected empty
  · intro noneUnnamed function mem empty
    obtain ⟨placed, listed, unmarked, own, offers, mem⟩ := (mem_functions_iff extracted _).mp mem
    have counted := (exists_name_iff offers "").mp ⟨function, mem, empty⟩
    obtain ⟨noDefault, unnamed⟩ := functionExports_empty_ne_zero_iff.mp counted
    exact noneUnnamed placed listed unmarked noDefault unnamed

/-- A program with a marked export, a default export, an arrow function and an export list of it. -/
def assorted : Node :=
  (Program.parse .typescript (Text.encode
    ("// test-ignore\nexport function f() {}\nexport default f\n"
      ++ "export const a = () => 1\nexport { a as b, a as default }"))).root

/-- Its functions have names, and each is reported at an unmarked statement. -/
theorem exports_wellFormed_assorted :
    ∃ exports, assorted.exports "test-ignore" = .ok exports ∧
      exports.functions = [⟨"a", .arrowBinding, 4, 1⟩, ⟨"b", .reExported, 5, 1⟩] ∧
      ∀ function ∈ exports.functions, function.name ≠ "" ∧
        (function.kind = .reExported → function.name ≠ "default") ∧
        ∃ placed ∈ assorted.placedExports, placed.2.isMarked "test-ignore" placed.1 = false ∧
          placed.2.isDefaultExport = false ∧ function.line = placed.2.start.row + 1 ∧
          function.column = placed.2.start.column + 1 := by
  obtain ⟨extracted, noneUnnamed⟩ :
      assorted.exports "test-ignore" = .ok ⟨[⟨"a", .arrowBinding, 4, 1⟩, ⟨"b", .reExported, 5, 1⟩],
        [⟨"default", "default export", 3, 1⟩, ⟨"a", "default export", 5, 1⟩]⟩ ∧
      ∀ placed ∈ assorted.placedExports, placed.2.isMarked "test-ignore" placed.1 = false →
        placed.2.isDefaultExport = false → ¬ placed.2.DeclaresUnnamed := by decide +kernel
  obtain ⟨each, allNamed⟩ := exports_wellFormed extracted
  refine ⟨_, extracted, rfl, fun function mem => ?_⟩
  obtain ⟨reExported, reported⟩ := each function mem
  exact ⟨allNamed.mpr noneUnnamed function mem, fun kind => (reExported kind).2, reported⟩

/-- An export of a function whose name covers no text. -/
def emptyName : Node :=
  let at0 : Point := ⟨0, 0⟩
  let name : Node := ⟨"identifier", some "name", true, "", at0, at0, []⟩
  let declaration : Node :=
    ⟨"function_declaration", some "declaration", true, "", at0, at0, [name]⟩
  ⟨"program", none, true, "", at0, at0,
    [⟨"export_statement", none, true, "", at0, at0, [declaration]⟩]⟩

/-- The function is collected without a name. -/
theorem exports_unnamed :
    ∃ exports, emptyName.exports "test-ignore" = .ok exports ∧
      ∃ function ∈ exports.functions, function.name = "" :=
  ⟨⟨[⟨"", .namedFunction, 1, 1⟩], []⟩, by decide +kernel, _, List.mem_singleton_self _, rfl⟩

end ExportCover.Node
