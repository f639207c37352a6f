import ExportCover.Proofs.Run.Snapshot

/-!
# Coverage is sound

A run that answers that a name is covered has read a test file that imports the name through a
specifier which leads to the module (`exists_import_denotes`): what the search found can be
recalled, and a specifier that spells a module leads to the key of that module.
-/

namespace ExportCover

namespace Run

open Specifier

variable {run : Run} {disk : Disk} {memo : Memo}

/-- A run that answers that a name is covered knows its test files and recalls a covering one. -/
lemma exists_coveringFile (wf : memo.WellFormed) {name moduleFile indexName place}
    (hasIndex : run.config.get "index_name" = .ok (.string indexName))
    (resolved : disk.resolveFrom run.root moduleFile = .ok place)
    (covered : run.ask disk memo (.isCovered name moduleFile) = .ok (.verdict true)) :
    ∃ files testFile,
      (run.step memo (disk, .isCovered name moduleFile)).testFiles? = some files ∧
      (run.step memo (disk, .isCovered name moduleFile)).recollection.coveringFile run disk
        (.string indexName) name (Path.render place) files = .ok (some testFile) := by
  have keeps : run.Keeps disk disk (.isCovered name moduleFile) := rfl
  obtain ⟨answer, recalled, same⟩ := Outcome.map_eq_ok.mp (recollection_step wf keeps covered)
  cases same
  obtain ⟨place', resolved', recalled⟩ := Outcome.bind_eq_ok.mp recalled
  obtain ⟨index, hasIndex', recalled⟩ := Outcome.bind_eq_ok.mp recalled
  obtain ⟨files, found, recalled⟩ := Outcome.bind_eq_ok.mp recalled
  obtain ⟨testFile?, searched, recalled⟩ := Outcome.bind_eq_ok.mp recalled
  -- The recollection resolves the module and reads the index name as the question did.
  cases resolved.symm.trans resolved'
  cases hasIndex.symm.trans hasIndex'
  cases testFile? with
  | none => cases recalled
  | some testFile => exact ⟨files, testFile, Memo.recollection_files.mp found, searched⟩

/-- A name that is covered is imported from its module. Some test file of the run has an import
with the name whose specifier, put behind the directory of the file, leads to the key of the
module. -/
theorem exists_import_denotes (run : Run) (disk : Disk) (past : List (Disk × Operation))
    {name moduleFile indexName : String} {extensions : List String} {place : Path}
    (hasExtensions : run.config.get "extensions" = .ok (.texts extensions))
    (hasIndex : run.config.get "index_name" = .ok (.string indexName))
    (index_ne : indexName ≠ "") (index_free : '/' ∉ indexName.toList)
    (resolved : disk.resolveFrom run.root moduleFile = .ok place)
    (normal : place.IsNormal) (plain : ∀ name ∈ place, '\\' ∉ name.toList)
    (covered : run.ask disk (run.replay past .empty) (.isCovered name moduleFile)
      = .ok (.verdict true)) :
    ∃ files,
      (run.replay (past ++ [(disk, .isCovered name moduleFile)]) .empty).testFiles? = some files ∧
      ((∀ testFile ∈ files, ¬ place <+: Path.ofText [] (Path.directoryPart testFile)) →
        ∃ testFile ∈ files, ∃ facts,
          (run.replay (past ++ [(disk, .isCovered name moduleFile)]) .empty).imports.lookup testFile
            = some facts ∧
          ∃ fact ∈ facts, name ∈ fact.bound.names ∧
            placeFrom testFile (stripIndex indexName (foldSeparators fact.specifier))
              = moduleKey extensions indexName (Path.render place)) := by
  have wf := wellFormed_replay run past
  obtain ⟨wf', _⟩ := evolves_step run _ (disk, .isCovered name moduleFile) wf
  rw [replay_concat]
  obtain ⟨files, testFile, known, found⟩ := exists_coveringFile wf hasIndex resolved covered
  refine ⟨files, known, fun apart => ?_⟩
  obtain ⟨mem, target, facts, spelled, read, brought⟩ := Reading.exists_brings found
  obtain ⟨fact, fact_mem, brings⟩ := List.any_eq_true.mp brought
  obtain ⟨same, named⟩ := Bool.and_eq_true_iff.mp brings
  refine ⟨testFile, mem, facts, Memo.recollection_imports.mp read, fact, fact_mem, ?_, ?_⟩
  · simpa using named
  have spelled' := target_eq_spelling disk hasExtensions hasIndex
    (wf'.rooted known testFile mem) (Path.isAbsolute_render place)
  cases spelled.symm.trans spelled'
  refine placeFrom_eq_moduleKey index_ne index_free normal plain (apart testFile mem) ?_
  rwa [spelling, Path.ofText_render normal] at same

/-- In the sample project the specifier `../lib` leads to the directory of the index module. -/
theorem exists_import_denotes_sample :
    ∃ testFile facts, ∃ fact ∈ facts, "f" ∈ fact.bound.names ∧
      (sampleRun.replay [(sampleDisk, .isCovered "f" "/lib/index.ts")] .empty).imports.lookup
        testFile = some facts ∧
      placeFrom testFile (stripIndex "index" (foldSeparators fact.specifier)) = ["lib"] := by
  have normal : Path.IsNormal ["lib", "index.ts"] := by decide +kernel
  have key : moduleKey [".ts"] "index" (Path.render ["lib", "index.ts"]) = ["lib"] := by
    rw [moduleKey, stem_singleton]
    decide +kernel
  obtain ⟨files, known, denotes⟩ := exists_import_denotes sampleRun sampleDisk [] rfl rfl
    (by decide +kernel) (by decide +kernel) resolveFrom_sample normal (by decide +kernel) ask_sample
  -- The files that the memo holds are those of the disk, which the question left as they were.
  have same : sampleRun.reading sampleDisk
      (sampleRun.step .empty (sampleDisk, .isCovered "f" "/lib/index.ts"))
        = sampleRun.reading sampleDisk .empty := reading_step Memo.wellFormed_empty _
  have found := files_sample
  rw [← same, Run.reading] at found
  simp only [show (sampleRun.step _ _).testFiles? = some files from known] at found
  cases found
  obtain ⟨testFile, _, facts, read, fact, mem, named, denotes⟩ := denotes (by decide +kernel)
  exact ⟨testFile, facts, fact, mem, named, read, denotes.trans key⟩

end Run

end ExportCover
