import ShadowCheck.Proofs.Recheck.Inert
import ShadowCheck.Proofs.Script.RoundTrip

/-!
Syntax errors in a run without a transformer. Printing keeps what could be read,
so the printed copies have no errors left but the constants without a value: a
run reports these once more, and everything else as often as type checking the
project does.
-/

namespace ShadowCheck

namespace Script

/-- What is reported of the constants of a script that have no value. -/
def missingValues (script : Script) : List Diagnostic :=
  (script.declarations.filter Declaration.lacksValue).map (missingValue script.file)

theorem diagnostics_reread (script : Script) : script.reread.diagnostics = script.missingValues :=
  map_diagnostic_findings script.file script.declarations

theorem missingValues_eq_nil_iff (script : Script) :
    script.missingValues = [] ↔
      ∀ declaration ∈ script.declarations, declaration.lacksValue = false := by
  rw [missingValues, List.map_eq_nil_iff, List.filter_eq_nil_iff]
  simp only [Bool.not_eq_true]

end Script

namespace Program

theorem scope_map_reread (scripts : List Script) :
    scope (scripts.map Script.reread) = scope scripts := by
  unfold scope
  rw [List.flatMap_map]
  rfl

theorem semanticDiagnostics_map_reread (scripts : List Script) :
    semanticDiagnostics (scripts.map Script.reread) = semanticDiagnostics scripts := by
  unfold semanticDiagnostics
  rw [scope_map_reread, List.flatMap_map]
  rfl

theorem diagnostics_map_reread (scripts : List Script) :
    diagnostics (scripts.map Script.reread) =
      semanticDiagnostics scripts ++ scripts.flatMap Script.missingValues := by
  rw [diagnostics, semanticDiagnostics_map_reread, syntacticDiagnostics, List.flatMap_map]
  congr 1
  exact List.flatMap_congr fun script _ => script.diagnostics_reread

end Program

namespace Recheck

open Project

section

variable (memory : Memory) (project : ShadowCheck.Project)

/-- The files of a project that can be read, as scripts. -/
def scriptsOf : List Script :=
  project.files.filterMap (Program.scriptOf memory.read? project.options.target)

theorem flatMap_reports_nil :
    project.files.flatMap (Shadow.reports memory project []) =
      Program.syntacticDiagnostics (scriptsOf memory project) := by
  rw [Program.syntacticDiagnostics, scriptsOf, List.filterMap_eq_flatMap_toList, List.flatMap_assoc]
  apply List.flatMap_congr
  intro file _
  rw [reports_nil project.options.target]
  cases Program.scriptOf memory.read? project.options.target file with
  | none => rfl
  | some script => exact (List.flatMap_singleton _ _).symm

variable {memory project}

theorem diagnosticsWith_printed?_nil
    (plain : ∀ file ∈ project.files, ∀ text ∈ memory.read? file,
      Script.PlainStrings text.toList) :
    diagnosticsWith (Shadow.printed? memory project []) project =
      Program.semanticDiagnostics (scriptsOf memory project) ++
        (scriptsOf memory project).flatMap Script.missingValues := by
  rw [← Program.diagnostics_map_reread, scriptsOf, List.map_filterMap, diagnosticsWith]
  congr 1
  exact List.filterMap_congr fun file found =>
    scriptOf_printed?_nil (plain file found) project.options.target

end

theorem perm_iff_of_perm_append {all direct others : List Diagnostic}
    (perm : all.Perm (direct ++ others)) : all.Perm direct ↔ others = [] :=
  calc
    all.Perm direct ↔ (direct ++ others).Perm (direct ++ []) := by
      rw [List.append_nil, perm.congr_left]
    _ ↔ others.Perm [] := List.perm_append_left_iff direct
    _ ↔ others = [] := List.perm_nil

/-- A run without a transformer reports what type checking the project gives, and
once more each constant without a value; so it reports everything once exactly
when no file has such a constant. -/
theorem exists_perm_execute_nil {directory : Path} (absolute : directory.isAbsolute)
    {memory : Memory} (reachable : memory.Reachable directory) {config : Path}
    {project : ShadowCheck.Project}
    (resolved : (memory.run (resolve Memory.fileSystem config)).1 = .ok project)
    (outside : ∀ file ∈ project.files, ¬ file.startsWith memory.makeTemporary.1)
    (apart : project.files.Pairwise fun left right =>
      ¬ (Path.shadowed memory.makeTemporary.1 project.root left).Same
        (Path.shadowed memory.makeTemporary.1 project.root right))
    (plain : ∀ file ∈ project.files, ∀ text ∈ memory.read? file,
      Script.PlainStrings text.toList)
    (keepShadow : Bool) :
    let direct := (memory.run (checkProject Memory.fileSystem project)).1
    ∃ report,
      (memory.run (execute Memory.fileSystem keepShadow config [])).1 = .ok report ∧
      report.allDiagnostics.Perm
        (direct ++ (scriptsOf memory project).flatMap Script.missingValues) ∧
      (report.allDiagnostics.Perm direct ↔
        ∀ script ∈ scriptsOf memory project, ∀ declaration ∈ script.declarations,
          declaration.lacksValue = false) := by
  intro direct
  have sound := reachable.sound absolute
  obtain ⟨document, loaded, found⟩ := exists_document_of_resolve resolved
  have settled := settled_files sound (isAbsolute_root_of_loadDocument sound loaded) found
  have keeps : ∀ file ∈ project.files, Shadow.KeepsFile Eq memory project [] file :=
    fun _ _ => keepsFile_nil
  obtain ⟨report, ran, describes⟩ := exists_describes_execute Path.likeness_eq sound loaded found
    ⟨settled, outside, apart⟩ keeps keepShadow
  have repeated : report.allDiagnostics.Perm
      (direct ++ (scriptsOf memory project).flatMap Script.missingValues) := by
    have checked : direct = Program.diagnostics (scriptsOf memory project) :=
      congrArg Prod.fst (run_checkProject (Memory.run_read memory) project)
    -- the copies are type checked like the files, but have none of their other errors
    rw [Report.allDiagnostics, describes.transformed, flatMap_reports_nil,
      eq_of_forall₂_agrees describes.checked, diagnosticsWith_printed?_nil plain, checked,
      Program.diagnostics, ← List.append_assoc]
    exact List.perm_append_comm.append_right _
  refine ⟨report, ran, repeated, ?_⟩
  rw [perm_iff_of_perm_append repeated, List.flatMap_eq_nil_iff]
  simp only [Script.missingValues_eq_nil_iff]

def listedProject : ShadowCheck.Project :=
  ⟨⟨"/root/tsconfig.json"⟩, ⟨"/root"⟩, [⟨"/root/a.ts"⟩], .default⟩

/-- A file with errors of several kinds. -/
def faultyMemory : Memory :=
  Memory.ofEntries ⟨"/root"⟩
    [⟨⟨"tsconfig.json"⟩, "\x7b\x7d"⟩, ⟨⟨"a.ts"⟩, "var = 'x\n# let b 1\nconst c = 2 d"⟩]

theorem exists_perm_execute_nil_faulty :
    ∃ report,
      (faultyMemory.run (execute Memory.fileSystem false ⟨"tsconfig.json"⟩ [])).1 = .ok report ∧
      report.allDiagnostics.Perm
        (faultyMemory.run (checkProject Memory.fileSystem listedProject)).1 := by
  have found : (faultyMemory.run (resolve Memory.fileSystem ⟨"tsconfig.json"⟩)).1.toOption =
      some listedProject := by
    decide +kernel
  obtain ⟨report, ran, -, once⟩ :=
    exists_perm_execute_nil (by decide) (.ofEntries _) (eq_ok_of_toOption found)
      (by decide +kernel) (by decide +kernel) (by decide +kernel) false
  exact ⟨report, ran, once.mpr (by decide +kernel)⟩

/-- A constant without a value. -/
def bareMemory : Memory :=
  Memory.ofEntries ⟨"/root"⟩ [⟨⟨"tsconfig.json"⟩, "\x7b\x7d"⟩, ⟨⟨"a.ts"⟩, "const a"⟩]

theorem not_perm_execute_nil_bare :
    (bareMemory.run (resolve Memory.fileSystem ⟨"tsconfig.json"⟩)).1 = .ok listedProject ∧
      (∀ file ∈ listedProject.files, ¬ file.startsWith bareMemory.makeTemporary.1) ∧
      (∀ file ∈ listedProject.files, ∀ text ∈ bareMemory.read? file,
        Script.PlainStrings text.toList) ∧
      ¬ ∃ report,
        (bareMemory.run (execute Memory.fileSystem false ⟨"tsconfig.json"⟩ [])).1 = .ok report ∧
        report.allDiagnostics.Perm
          (bareMemory.run (checkProject Memory.fileSystem listedProject)).1 := by
  have found : (bareMemory.run (resolve Memory.fileSystem ⟨"tsconfig.json"⟩)).1.toOption =
      some listedProject := by
    decide +kernel
  have twice : (bareMemory.run (execute Memory.fileSystem false ⟨"tsconfig.json"⟩
      [])).1.toOption.map (·.allDiagnostics.length) = some 2 := by
    decide +kernel
  have once : (bareMemory.run (checkProject Memory.fileSystem listedProject)).1.length = 1 := by
    decide +kernel
  refine ⟨eq_ok_of_toOption found, by decide +kernel, by decide +kernel, ?_⟩
  rintro ⟨report, ran, perm⟩
  rw [ran] at twice
  have two : report.allDiagnostics.length = 2 := Option.some.inj twice
  rw [perm.length_eq, once] at two
  cases two

end Recheck

end ShadowCheck
