import ShadowCheck.Proofs.Recheck.Report
import ShadowCheck.Proofs.Script.Standing

/-!
Runs without a transformer. Printing leaves a text without errors at its
positions, so a run that transforms nothing reports what type checking the
project would have reported.
-/

namespace ShadowCheck.Recheck

open Project

section

variable {memory : Memory} {project : ShadowCheck.Project} {file : Path}

theorem keepsFile_nil : Shadow.KeepsFile Eq memory project [] file :=
  fun text _ => ⟨Script.parse file .latest text, rfl, rfl⟩

/-- Whether a file that can be read has no syntax errors and only plain strings. -/
def IsUnremarkable (memory : Memory) (file : Path) : Prop :=
  ∀ text ∈ memory.read? file,
    (Script.parse file .latest text).diagnostics = [] ∧ Script.PlainStrings text.toList

instance (memory : Memory) (file : Path) : Decidable (IsUnremarkable memory file) :=
  inferInstanceAs (Decidable (∀ text ∈ memory.read? file,
    (Script.parse file .latest text).diagnostics = [] ∧ Script.PlainStrings text.toList))

/-- Without a transformer a file is reported with its own syntax errors. -/
theorem reports_nil (edition : Edition) :
    Shadow.reports memory project [] file =
      (Program.scriptOf memory.read? edition file).elim [] Script.diagnostics := by
  rw [Shadow.reports, Shadow.transformed?, Program.scriptOf]
  cases memory.read? file with
  | none => rfl
  | some text => exact List.append_nil _

theorem scriptOf_printed?_nil
    (plain : ∀ text ∈ memory.read? file, Script.PlainStrings text.toList) (edition : Edition) :
    Program.scriptOf (Shadow.printed? memory project []) edition file =
      (Program.scriptOf memory.read? edition file).map Script.reread := by
  rw [Program.scriptOf, Program.scriptOf, Shadow.printed?, Shadow.transformed?]
  cases read : memory.read? file with
  | none => rfl
  | some text =>
      exact congrArg some
        (Script.parse_print_parse file file .latest edition (plain text read))

theorem reports_of_unremarkable (unremarkable : IsUnremarkable memory file) :
    Shadow.reports memory project [] file = [] := by
  rw [reports_nil .latest, Program.scriptOf]
  cases read : memory.read? file with
  | none => rfl
  | some text => exact (unremarkable text read).1

theorem scriptOf_printed?_of_unremarkable (unremarkable : IsUnremarkable memory file)
    (edition : Edition) :
    Program.scriptOf (Shadow.printed? memory project []) edition file =
      Program.scriptOf memory.read? edition file := by
  rw [scriptOf_printed?_nil fun text read => (unremarkable text read).2, Program.scriptOf]
  cases read : memory.read? file with
  | none => rfl
  | some text =>
      have quiet : (Script.parse file edition text).findings = [] :=
        List.map_eq_nil_iff.mp (unremarkable text read).1
      exact congrArg some (Script.reread_parse quiet)

end

/-- A run without a transformer over files without errors reports nothing of its
own, takes the files that can be read as its sources, in order, and gives the
diagnostics of the project on the untouched store. -/
theorem execute_nil_eq_checkProject {directory : Path} (absolute : directory.isAbsolute)
    {memory : Memory} (reachable : memory.Reachable directory) {config : Path}
    {project : ShadowCheck.Project}
    (resolved : (memory.run (resolve Memory.fileSystem config)).1 = .ok project)
    (outside : ∀ file ∈ project.files, ¬ file.startsWith memory.makeTemporary.1)
    (apart : project.files.Pairwise fun left right =>
      ¬ (Path.shadowed memory.makeTemporary.1 project.root left).Same
        (Path.shadowed memory.makeTemporary.1 project.root right))
    (unremarkable : ∀ file ∈ project.files, IsUnremarkable memory file)
    (keepShadow : Bool) :
    ∃ report,
      (memory.run (execute Memory.fileSystem keepShadow config [])).1 = .ok report ∧
      report.transformDiagnostics = [] ∧
      report.substitutions.entries.map (·.source) =
        project.files.filter (Shadow.isReadable memory) ∧
      report.diagnostics = (memory.run (checkProject Memory.fileSystem project)).1 := by
  have sound := reachable.sound absolute
  obtain ⟨document, loaded, found⟩ := exists_document_of_resolve resolved
  have settled := settled_files sound (isAbsolute_root_of_loadDocument sound loaded) found
  have keeps : ∀ file ∈ project.files, Shadow.KeepsFile Eq memory project [] file :=
    fun _ _ => keepsFile_nil
  obtain ⟨report, ran, describes⟩ := exists_describes_execute Path.likeness_eq sound loaded found
    ⟨settled, outside, apart⟩ keeps keepShadow
  refine ⟨report, ran, ?_, ?_, ?_⟩
  · rw [describes.transformed, List.flatMap_eq_nil_iff]
    intro file inside
    exact reports_of_unremarkable (unremarkable file inside)
  · have sources := describes.sources
    rw [List.forall₂_eq_eq_eq] at sources
    exact sources
  · rw [eq_of_forall₂_agrees describes.checked, run_checkProject (Memory.run_read memory)]
    apply diagnosticsWith_congr
    intro file inside
    exact scriptOf_printed?_of_unremarkable (unremarkable file inside) project.options.target

theorem execute_nil_eq_checkProject_sample :
    (∀ file ∈ sampleProject.files, IsUnremarkable sampleMemory file) ∧
      ∃ report,
        (sampleMemory.run (execute Memory.fileSystem true ⟨"tsconfig.json"⟩ [])).1 = .ok report ∧
        report.diagnostics =
          (sampleMemory.run (checkProject Memory.fileSystem sampleProject)).1 := by
  have unremarkable : ∀ file ∈ sampleProject.files, IsUnremarkable sampleMemory file := by
    decide +kernel
  obtain ⟨report, ran, -, -, same⟩ :=
    execute_nil_eq_checkProject (by decide) (.ofEntries _) resolve_sampleMemory
      (by decide +kernel) (by decide +kernel) unremarkable true
  exact ⟨unremarkable, report, ran, same⟩

end ShadowCheck.Recheck
