import ShadowCheck.Proofs.Recheck.Run
import ShadowCheck.Proofs.Transform.Shadow

/-!
What a run reports. Seen through its substitutions, a store shows the files of a
project as they were listed, each with the text that was printed for it; so the
run checks the project that has these texts in the places of the old ones.
-/

namespace ShadowCheck.Recheck

open Project

theorem settled_of_mem_filesWith {memory : Memory} (sound : memory.Sound) {root : Path}
    (absolute : root.isAbsolute) {settings : Settings} {file : Path}
    (found : file ∈ filesWith memory.list root settings) : file.Settled := by
  obtain ⟨added, files, fromList⟩ := exists_filesWith memory.list root settings
  rw [files] at found
  rcases List.mem_append.mp found with named | listed
  · obtain ⟨text, -, rfl⟩ := List.mem_map.mp named
    exact Path.settled_resolve absolute _
  · obtain ⟨selection, here⟩ := fromList file listed
    exact (sound.of_mem_list here).1

theorem settled_files {memory : Memory} (sound : memory.Sound) {document : Document}
    (absolute : document.root.isAbsolute) {project : ShadowCheck.Project}
    (resolved : (memory.run (resolveDocument Memory.fileSystem document)).1 = .ok project) :
    ∀ file ∈ project.files, file.Settled := by
  rw [run_resolveDocument_fileSystem] at resolved
  obtain ⟨settings, -, described, -⟩ := exists_settings_of_projectOf resolved
  rw [described]
  intro file found
  exact settled_of_mem_filesWith sound absolute found

section

variable {like : Path → Path → Prop} {memory current : Memory} {project : ShadowCheck.Project}
  {shadow : Path} {chain : List Transformer} {outcome : Shadow.Outcome}

/-- How a path reads through a table. -/
def readThrough (table : Substitutions) (memory : Memory) (path : Path) : Option String :=
  memory.read? ((table.lookup? path).getD path)

/-- Seen through a table, a document is checked with the sources of the table as
listings and every path read where the table leads. -/
theorem perform_checkDocument_overlay {σ : Type} {store : FileSystem (StateM σ)}
    {memory : σ → Memory} (backs : Memory.Backs memory store) (state : σ)
    (table : Substitutions) (document : Document) :
    perform state (checkDocument (table.overlay store) document) =
      ((projectOf document (interpretWith (fun _ _ => table.sources) document)).map
        (diagnosticsWith (readThrough table (memory state))), state) := by
  apply perform_checkDocument
  · exact fun _ _ => rfl
  · exact fun path => backs.read state ((table.lookup? path).getD path)

/-- Through the substitutions of a run every file reads as the text printed for it. -/
theorem readThrough_eq (likeness : Path.Likeness like)
    (progress : Shadow.Progress like memory project shadow chain project.files outcome current)
    (spread : Shadow.Spread shadow project.root project.files)
    (keeps : ∀ file ∈ project.files, Shadow.KeepsFile like memory project chain file)
    {file path : Path} (found : file ∈ project.files) (alike : like path file) :
    readThrough outcome.substitutions current path =
      Shadow.printed? memory project chain file := by
  have same := likeness.same alike
  have settled := spread.settled file found
  have apart := spread.pairwise.sublist (List.filter_sublist (p := Shadow.isReadable memory))
  unfold readThrough
  cases read : memory.read? file with
  | some text =>
      have readable : file ∈ project.files.filter (Shadow.isReadable memory) :=
        List.mem_filter.mpr ⟨found, by rw [Shadow.isReadable, read]; rfl⟩
      rw [progress.sends.lookup?_eq_some likeness apart readable same, Option.getD_some]
      obtain ⟨output, outputs, -⟩ := keeps file found text read
      have printed : Shadow.printed? memory project chain file = some output.print := by
        simp [Shadow.printed?, Shadow.transformed?, read, outputs]
      rw [progress.written file found output.print printed, printed]
  | none =>
      have unlisted : ∀ other ∈ project.files.filter (Shadow.isReadable memory),
          ¬ other.Same path := by
        intro other inside here
        obtain ⟨-, readable⟩ := List.mem_filter.mp inside
        rw [Shadow.isReadable, memory.read?_same (here.trans same) settled, read] at readable
        cases readable
      rw [progress.sends.lookup?_eq_none likeness unlisted, Option.getD_none,
        current.read?_same same settled,
        progress.untouched file settled (spread.outside file found), read]
      rw [Shadow.printed?, Shadow.transformed?, read]
      rfl

end

theorem isReadable_of_mem_list {memory : Memory} (sound : memory.Sound) {root : Path}
    {selection : Selection} {path : Path} (listed : path ∈ memory.list root selection) :
    Shadow.isReadable memory path := by
  obtain ⟨-, text, read⟩ := sound.of_mem_list listed
  rw [Shadow.isReadable, read]
  rfl

/-- What a report says of a chain that keeps the files of a project: what the chain
reported, the files that could be read as sources, and the diagnostics of the
project with the printed texts. -/
structure Report.Describes (like : Path → Path → Prop) (memory : Memory)
    (project : ShadowCheck.Project) (chain : List Transformer) (report : Report) : Prop where
  transformed : report.transformDiagnostics =
    project.files.flatMap (Shadow.reports memory project chain)
  sources : List.Forall₂ like (report.substitutions.entries.map (·.source))
    (project.files.filter (Shadow.isReadable memory))
  checked : List.Forall₂ (Diagnostic.Agrees like) report.diagnostics
    (diagnosticsWith (Shadow.printed? memory project chain) project)

/-- A run whose chain keeps the files of the project gives a report that describes it. -/
theorem exists_describes {like : Path → Path → Prop} (likeness : Path.Likeness like)
    {memory : Memory} (sound : memory.Sound) {document : Document}
    (absolute : document.root.isAbsolute) {project : ShadowCheck.Project}
    (resolved : (memory.run (resolveDocument Memory.fileSystem document)).1 = .ok project)
    {shadow : Path} (shadowSettled : shadow.Settled)
    (spread : Shadow.Spread shadow project.root project.files) {chain : List Transformer}
    (keeps : ∀ file ∈ project.files, Shadow.KeepsFile like memory project chain file)
    (keepShadow : Bool) :
    ∃ report,
      (memory.run (executeIn Memory.fileSystem keepShadow document project chain shadow)).1 =
        .ok report ∧
      report.Describes like memory project chain := by
  rw [run_resolveDocument_fileSystem] at resolved
  obtain ⟨settings, nonempty, described, elsewhere⟩ := exists_settings_of_projectOf resolved
  have files : project.files = filesWith memory.list document.root settings := by
    rw [described]
  have root : project.root = document.root := by rw [described]
  have started := Shadow.progress_nil like memory project shadow chain
  have progress : Shadow.Progress like memory project shadow chain ([] ++ project.files) _ _ :=
    Shadow.progress_transformFiles likeness shadowSettled (root ▸ absolute) started spread keeps
  rw [List.nil_append] at progress
  rw [run_executeIn]
  unfold Shadow.transformProject
  generalize memory.run (Shadow.transformFiles Memory.fileSystem project shadow chain .empty
    project.files) = transformed at progress ⊢
  obtain ⟨outcome, current⟩ := transformed
  dsimp only at progress ⊢
  have checked : current.run (checkDocument (outcome.substitutions.overlay Memory.fileSystem)
      document) = _ :=
    perform_checkDocument_overlay Memory.backs_fileSystem current outcome.substitutions document
  -- the second interpretation lists the sources of the table in place of the files
  have sources := progress.sends.sources likeness (spread.pairwise.sublist List.filter_sublist)
  rw [files] at sources
  have alike := forall₂_filesWith likeness (fun _ _ => isReadable_of_mem_list sound)
    (files ▸ spread.pairwise) sources
  have again : filesWith (fun _ _ => outcome.substitutions.sources) document.root settings ≠ [] := by
    intro empty
    rw [empty, List.forall₂_nil_left_iff] at alike
    exact nonempty alike
  rw [checked, elsewhere _ again]
  refine ⟨_, rfl, progress.diagnostics, progress.sends.map_source, ?_⟩
  rw [← files] at alike
  apply Program.agrees_diagnostics
  apply Program.agrees_scripts project.options.target
  apply Path.forall₂_of_mem alike
  intro file found path same
  exact ⟨same, readThrough_eq likeness progress spread keeps found same⟩

theorem exists_describes_execute {like : Path → Path → Prop} (likeness : Path.Likeness like)
    {memory : Memory} (sound : memory.Sound) {config : Path} {document : Document}
    {project : ShadowCheck.Project}
    (loaded : (memory.run (loadDocument Memory.fileSystem config)).1 = .ok document)
    (resolved : (memory.run (resolveDocument Memory.fileSystem document)).1 = .ok project)
    (spread : Shadow.Spread memory.makeTemporary.1 project.root project.files)
    {chain : List Transformer}
    (keeps : ∀ file ∈ project.files, Shadow.KeepsFile like memory project chain file)
    (keepShadow : Bool) :
    ∃ report,
      (memory.run (execute Memory.fileSystem keepShadow config chain)).1 = .ok report ∧
      report.Describes like memory project chain := by
  have absolute := isAbsolute_root_of_loadDocument sound loaded
  have again : (memory.makeTemporary.2.run (resolveDocument Memory.fileSystem document)).1 =
      .ok project := by
    rw [run_resolveDocument_fileSystem] at resolved ⊢
    exact resolved
  -- the temporary directory is the only change before the files are transformed
  rw [run_execute loaded resolved]
  obtain ⟨report, ran, transformed, sources, checked⟩ :=
    exists_describes likeness sound.makeTemporary absolute again
      (Memory.settled_temporaryPath memory.nextTemporary) spread keeps keepShadow
  exact ⟨report, ran, transformed, sources, checked⟩

end ShadowCheck.Recheck
