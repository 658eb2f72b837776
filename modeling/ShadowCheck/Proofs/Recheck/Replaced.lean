import ShadowCheck.Proofs.Recheck.Report
import ShadowCheck.Transform.Edit

/-!
Runs and replaced files. What a run reports is what the same document gives on
the store in which every file that could be read was overwritten in place by the
text that the run printed for it.
-/

namespace ShadowCheck

namespace Memory

/-- Overwrites files in order by the texts that there are for them. -/
def overwrite (text? : Path → Option String) : List Path → Memory → Memory
  | [], memory => memory
  | file :: rest, memory =>
      overwrite text? rest <|
        match text? file with
        | none => memory
        | some text => memory.write file text

variable {text? : Path → Option String}

theorem directory_overwrite (files : List Path) (memory : Memory) :
    (memory.overwrite text? files).directory = memory.directory := by
  induction files generalizing memory with
  | nil => rfl
  | cons file rest ih =>
      rw [overwrite, ih]
      split <;> rfl

theorem read?_overwrite_of_apart {files : List Path} (settled : ∀ file ∈ files, file.Settled)
    {path : Path} (pathSettled : path.Settled) (apart : ∀ file ∈ files, ¬ file.Same path)
    (memory : Memory) : (memory.overwrite text? files).read? path = memory.read? path := by
  induction files generalizing memory with
  | nil => rfl
  | cons file rest ih =>
      obtain ⟨fileSettled, restSettled⟩ := List.forall_mem_cons.mp settled
      obtain ⟨fileApart, restApart⟩ := List.forall_mem_cons.mp apart
      rw [overwrite, ih restSettled restApart]
      split
      · rfl
      · rw [read?_write_of_settled _ fileSettled pathSettled, if_neg fileApart]

/-- Every file reads as its text, or as before where it has none. -/
theorem read?_overwrite {files : List Path} (settled : ∀ file ∈ files, file.Settled)
    (apart : files.Pairwise fun left right => ¬ left.Same right) {file : Path}
    (found : file ∈ files) (memory : Memory) :
    (memory.overwrite text? files).read? file = (text? file).or (memory.read? file) := by
  induction files generalizing memory with
  | nil => cases found
  | cons first rest ih =>
      obtain ⟨firstSettled, restSettled⟩ := List.forall_mem_cons.mp settled
      obtain ⟨firstApart, restApart⟩ := List.pairwise_cons.mp apart
      rw [overwrite]
      rcases List.mem_cons.mp found with rfl | later
      · have others : ∀ other ∈ rest, ¬ other.Same file :=
          fun other inside same => firstApart other inside same.symm
        rw [read?_overwrite_of_apart restSettled firstSettled others]
        cases text? file with
        | none => rfl
        | some text =>
            rw [read?_write_of_settled _ firstSettled firstSettled, if_pos (Path.Same.refl file)]
            rfl
      · rw [ih restSettled restApart later]
        cases text? first with
        | none => rfl
        | some text =>
            rw [read?_write_of_settled _ firstSettled (restSettled file later),
              if_neg (firstApart file later)]

theorem map_path_overwrite {files : List Path} (settled : ∀ file ∈ files, file.Settled)
    {memory : Memory}
    (present : ∀ file ∈ files, (text? file).isSome → (memory.read? file).isSome) :
    (memory.overwrite text? files).entries.map (·.path) = memory.entries.map (·.path) := by
  induction files generalizing memory with
  | nil => rfl
  | cons file rest ih =>
      obtain ⟨fileSettled, restSettled⟩ := List.forall_mem_cons.mp settled
      obtain ⟨filePresent, restPresent⟩ := List.forall_mem_cons.mp present
      rw [overwrite]
      cases found : text? file with
      | none => exact ih restSettled restPresent
      | some text =>
          have stays : ∀ other ∈ rest, (text? other).isSome →
              ((memory.write file text).read? other).isSome := by
            intro other inside some?
            rw [read?_write_of_settled _ fileSettled (restSettled other inside)]
            split
            · rfl
            · exact restPresent other inside some?
          obtain ⟨old, read⟩ := Option.isSome_iff_exists.mp (filePresent (by rw [found]; rfl))
          rw [ih restSettled stays, map_path_write read text]

end Memory

namespace Recheck

open Project

/-- The store in which the files of a project that can be read were overwritten
in place by the texts that a chain gives for them. -/
def replaced (memory : Memory) (project : ShadowCheck.Project) (chain : List Transformer) :
    Memory :=
  memory.overwrite (Shadow.printed? memory project chain) project.files

section

variable {like : Path → Path → Prop} {memory : Memory} {document : Document}
  {project : ShadowCheck.Project} {chain : List Transformer}

theorem isReadable_of_printed? {file : Path}
    (printed : (Shadow.printed? memory project chain file).isSome) :
    (memory.read? file).isSome := by
  cases read : memory.read? file with
  | some text => rfl
  | none => simp [Shadow.printed?, Shadow.transformed?, read] at printed

theorem printed?_or_read? {file : Path} (keeps : Shadow.KeepsFile like memory project chain file) :
    (Shadow.printed? memory project chain file).or (memory.read? file) =
      Shadow.printed? memory project chain file := by
  cases read : memory.read? file with
  | none => exact Option.or_none
  | some text =>
      obtain ⟨output, outputs, -⟩ := keeps text read
      simp [Shadow.printed?, Shadow.transformed?, read, outputs]

theorem run_checkDocument_replaced
    (resolved : (memory.run (resolveDocument Memory.fileSystem document)).1 = .ok project)
    (settled : ∀ file ∈ project.files, file.Settled)
    (apart : project.files.Pairwise fun left right => ¬ left.Same right)
    (keeps : ∀ file ∈ project.files, Shadow.KeepsFile like memory project chain file) :
    ((replaced memory project chain).run (checkDocument Memory.fileSystem document)).1 =
      .ok (diagnosticsWith (Shadow.printed? memory project chain) project) := by
  rw [run_resolveDocument_fileSystem] at resolved
  have paths : (replaced memory project chain).entries.map (·.path) =
      memory.entries.map (·.path) :=
    Memory.map_path_overwrite settled fun file _ => isReadable_of_printed?
  have sameList : (replaced memory project chain).list = memory.list := by
    funext root selection
    exact Memory.list_congr (Memory.directory_overwrite _ _) paths root selection
  have sameScripts : ∀ file ∈ project.files,
      Program.scriptOf (replaced memory project chain).read? project.options.target file =
        Program.scriptOf (Shadow.printed? memory project chain) project.options.target file := by
    intro file found
    rw [Program.scriptOf, replaced, Memory.read?_overwrite settled apart found,
      printed?_or_read? (keeps file found), ← Program.scriptOf]
  rw [run_checkDocument (Memory.run_list _) (Memory.run_read _), sameList]
  dsimp only at resolved ⊢
  rw [resolved, Except.map, diagnosticsWith_congr sameScripts]

end

/-- A run whose chain gives one script for every file that can be read, under the
name of that file, reports what the document gives where these files are
replaced by the printed scripts; where the names are spelled alike, the
diagnostics are the same to the letter. -/
theorem execute_eq_replaced {directory : Path} (absolute : directory.isAbsolute)
    {memory : Memory} (reachable : memory.Reachable directory) {config : Path}
    {document : Document} {project : ShadowCheck.Project}
    (loaded : (memory.run (loadDocument Memory.fileSystem config)).1 = .ok document)
    (resolved : (memory.run (resolveDocument Memory.fileSystem document)).1 = .ok project)
    {chain : List Transformer}
    (keeps : ∀ file ∈ project.files, Shadow.KeepsFile Path.Same memory project chain file)
    (outside : ∀ file ∈ project.files, ¬ file.startsWith memory.makeTemporary.1)
    (apart : project.files.Pairwise fun left right =>
      ¬ (Path.shadowed memory.makeTemporary.1 project.root left).Same
        (Path.shadowed memory.makeTemporary.1 project.root right))
    (keepShadow : Bool) :
    ∃ report diagnostics,
      (memory.run (execute Memory.fileSystem keepShadow config chain)).1 = .ok report ∧
      ((replaced memory project chain).run (checkDocument Memory.fileSystem document)).1 =
        .ok diagnostics ∧
      List.Forall₂ Diagnostic.Same report.diagnostics diagnostics ∧
      ((∀ file ∈ project.files, Shadow.KeepsFile Eq memory project chain file) →
        report.diagnostics = diagnostics) := by
  have sound := reachable.sound absolute
  have settled := settled_files sound (isAbsolute_root_of_loadDocument sound loaded) resolved
  have spread : Shadow.Spread memory.makeTemporary.1 project.root project.files :=
    ⟨settled, outside, apart⟩
  obtain ⟨report, ran, describes⟩ :=
    exists_describes_execute Path.likeness_same sound loaded resolved spread keeps keepShadow
  have checked := run_checkDocument_replaced resolved settled spread.pairwise keeps
  refine ⟨report, _, ran, checked, describes.checked, ?_⟩
  intro exactly
  obtain ⟨other, ranAgain, describesExactly⟩ :=
    exists_describes_execute Path.likeness_eq sound loaded resolved spread exactly keepShadow
  have same : report = other := Except.ok.inj (ran.symm.trans ranAgain)
  rw [same]
  exact eq_of_forall₂_agrees describesExactly.checked

theorem execute_eq_replaced_sample :
    ∃ document report diagnostics,
      (sampleMemory.run (loadDocument Memory.fileSystem ⟨"tsconfig.json"⟩)).1 = .ok document ∧
      (sampleMemory.run (execute Memory.fileSystem false ⟨"tsconfig.json"⟩
        [Edit.transformer (.setInitializer "b" none)])).1 = .ok report ∧
      ((replaced sampleMemory sampleProject [Edit.transformer (.setInitializer "b" none)]).run
        (checkDocument Memory.fileSystem document)).1 = .ok diagnostics ∧
      List.Forall₂ Diagnostic.Same report.diagnostics diagnostics := by
  obtain ⟨document, loaded, resolved⟩ := exists_document_of_resolve resolve_sampleMemory
  have keeps : ∀ file ∈ sampleProject.files, Shadow.KeepsFile Path.Same sampleMemory sampleProject
      [Edit.transformer (.setInitializer "b" none)] file := by
    intro file _ text _
    refine ⟨_, rfl, ?_⟩
    exact Path.Same.refl file
  obtain ⟨report, diagnostics, ran, checked, same, -⟩ :=
    execute_eq_replaced (by decide) (.ofEntries _) loaded resolved keeps (by decide +kernel)
      (by decide +kernel) false
  exact ⟨document, report, diagnostics, loaded, ran, checked, same⟩

end Recheck

end ShadowCheck
