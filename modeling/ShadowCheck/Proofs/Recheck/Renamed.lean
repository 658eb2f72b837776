import ShadowCheck.Proofs.Recheck.Checked
import ShadowCheck.Proofs.Transform.Renamed

/-!
Runs that rename all files. As long as no two files have names that are shown alike, they
record every file under its new name and check the same declarations as a run without a
transformer. So they report the same diagnostics, located in the new names.
-/

namespace ShadowCheck

/-- Files that can be read, each with its text. -/
theorem Memory.exists_sources {memory : Memory} {files : List Path}
    (readable : ∀ file ∈ files, ∃ text, memory.read? file = some text) :
    ∃ sources : List Entry, sources.map (·.path) = files ∧
      ∀ source ∈ sources, memory.read? source.path = some source.text := by
  induction files with
  | nil => exact ⟨[], rfl, nofun⟩
  | cons file rest ih =>
      obtain ⟨⟨text, read⟩, others⟩ := List.forall_mem_cons.mp readable
      obtain ⟨sources, paths, reads⟩ := ih others
      refine ⟨⟨file, text⟩ :: sources, ?_, List.forall_mem_cons.mpr ⟨read, reads⟩⟩
      rw [List.map_cons, paths]

namespace Recheck

open Project

/-- The files of a project that were listed below its root. -/
structure Listing (memory : Memory) (project : ShadowCheck.Project) (shadow : Path)
    (sources : List Entry) : Prop where
  files : project.files = sources.map (·.path)
  root : project.root.Settled
  read : ∀ source ∈ sources, memory.read? source.path = some source.text
  settled : ∀ source ∈ sources, source.path.Settled
  outside : ∀ source ∈ sources, ¬ source.path.startsWith shadow
  below : ∀ source ∈ sources, ∃ rest, rest ≠ [] ∧
    source.path.components = project.root.components ++ rest
  apart : sources.Pairwise fun first second => ¬ first.path.Same second.path

section

variable {memory after : Memory} {config : Path} {begun : Start}

theorem Begins.exists_listing (begins : Begins memory after config begun) (sound : memory.Sound)
    (unnamed : begun.document.field? "files" = none)
    (clear : ∀ entry ∈ memory.entries, ¬ entry.path.startsWith begun.shadow) :
    ∃ sources, Listing memory begun.project begun.shadow sources := by
  have rootSettled := begins.settled_root sound.directory
  obtain ⟨selection, files⟩ : ∃ selection,
      begun.project.files = memory.list begun.project.root selection := by
    rw [begins.project_eq]
    exact exists_filesWith_of_unnamed (Document.files_settings unnamed) memory.list _
      fun _ => Path.pairwise_distinct _
  have listed : ∀ file ∈ begun.project.files, file ∈ memory.list begun.project.root selection :=
    fun _ found => files ▸ found
  have apart : begun.project.files.Pairwise fun left right => ¬ left.Same right := by
    rw [files]
    exact Path.pairwise_distinct _
  obtain ⟨sources, paths, read⟩ :=
    Memory.exists_sources fun file found => (sound.of_mem_list (listed file found)).2
  have inside : ∀ source ∈ sources, source.path ∈ begun.project.files :=
    fun source found => paths ▸ List.mem_map_of_mem found
  refine ⟨sources, paths.symm, rootSettled, read, ?_, ?_, ?_, ?_⟩
  · exact fun source found => (sound.of_mem_list (listed _ (inside source found))).1
  · intro source found
    obtain ⟨⟨entry, here, same⟩, -⟩ := Memory.mem_list (listed _ (inside source found))
    rw [← same]
    exact clear entry here
  · intro source found
    obtain ⟨rest, nonempty, components⟩ :=
      Memory.exists_below_of_mem_list (listed _ (inside source found))
    rw [Memory.locate_same rootSettled memory] at components
    exact ⟨rest, nonempty, components⟩
  · rw [← paths] at apart
    exact List.pairwise_map.mp apart

end

/-! Renaming. -/

/-- Whether new names for the files of a listing are settled below the root, and
different for different files. -/
structure Suits (name : Path → Path) (project : ShadowCheck.Project) (sources : List Entry) :
    Prop where
  settled : ∀ source ∈ sources, (name source.path).Settled
  below : ∀ source ∈ sources, (name source.path).startsWith project.root
  apart : sources.Pairwise fun first second => ¬ (name first.path).Same (name second.path)

section

variable {memory : Memory} {project : ShadowCheck.Project} {shadow : Path}
  {sources : List Entry}

theorem Listing.suits_id (listing : Listing memory project shadow sources) :
    Suits id project sources where
  settled := listing.settled
  below source found := by
    obtain ⟨rest, -, components⟩ := listing.below source found
    exact (Path.startsWith_iff _ _).mpr ⟨rest, components⟩
  apart := listing.apart

theorem Listing.exists_fileName? (listing : Listing memory project shadow sources)
    {source : Entry} (found : source ∈ sources) :
    ∃ name, source.path.fileName? = some name := by
  obtain ⟨rest, nonempty, components⟩ := listing.below source found
  exact (listing.settled source found).exists_fileName? listing.root components nonempty

theorem Listing.suits_withSuffix (listing : Listing memory project shadow sources)
    {suffix : String} (whole : '/' ∉ suffix.toList)
    (distinct : sources.Pairwise fun first second => ¬ first.path.ShownAlike second.path) :
    Suits (·.withSuffix suffix) project sources := by
  refine ⟨?_, ?_, ?_⟩
  · intro source found
    obtain ⟨name, last⟩ := listing.exists_fileName? found
    exact Path.settled_withSuffix (listing.settled source found) last whole
  · intro source found
    obtain ⟨name, last⟩ := listing.exists_fileName? found
    obtain ⟨rest, nonempty, components⟩ := listing.below source found
    apply (Path.startsWith_iff _ _).mpr
    refine ⟨rest.dropLast ++ [.name (Path.suffixed suffix name)], ?_⟩
    rw [Path.components_withSuffix last whole, components,
      List.dropLast_append_of_ne_nil nonempty, List.append_assoc]
  · refine distinct.imp_of_mem ?_
    intro first second firstFound secondFound apart same
    obtain ⟨name, last⟩ := listing.exists_fileName? firstFound
    obtain ⟨otherName, otherLast⟩ := listing.exists_fileName? secondFound
    exact apart ((Path.withSuffix_same_iff_shownAlike last otherLast whole).mp same)

/-- Files whose names are texts have names that are shown differently. -/
theorem Listing.pairwise_not_shownAlike (listing : Listing memory project shadow sources)
    (areTexts : ∀ source ∈ sources, ∀ name ∈ source.path.fileName?, name.IsText) :
    sources.Pairwise fun first second => ¬ first.path.ShownAlike second.path := by
  refine listing.apart.imp_of_mem ?_
  intro first second firstFound secondFound apart alike
  obtain ⟨name, last⟩ := listing.exists_fileName? firstFound
  obtain ⟨otherName, otherLast⟩ := listing.exists_fileName? secondFound
  have isText := areTexts first firstFound name last
  have otherIsText := areTexts second secondFound otherName otherLast
  exact apart ((Path.shownAlike_iff_of_isText last otherLast isText otherIsText).mp alike)

/-- Files at different places below the root have different places below the shadow
directory, under their new names too. -/
theorem Listing.pairwise_place (listing : Listing memory project shadow sources)
    (shadowSettled : shadow.Settled) {name : Path → Path} (suits : Suits name project sources) :
    sources.Pairwise fun first second =>
      ¬ (Path.shadowed shadow project.root (name first.path)).Same
        (Path.shadowed shadow project.root (name second.path)) := by
  refine suits.apart.imp_of_mem ?_
  intro first second firstFound secondFound apart same
  exact apart (Path.same_of_same_shadowed shadowSettled.isAbsolute listing.root
    (suits.settled first firstFound) (suits.settled second secondFound)
    (suits.below first firstFound) (suits.below second secondFound) same)

variable {config : Path} {begun : Start} {current : Memory} {name : Path → Path}
  {chain : List Transformer}

/-- The report of a run that only renames. -/
theorem fst_perform_execute_of_renames (absolute : memory.directory.isAbsolute)
    (started : perform memory (start Memory.fileSystem config) = (.ok begun, current))
    (unnamed : begun.document.field? "files" = none)
    (listing : Listing memory begun.project begun.shadow sources)
    (renames : Shadow.Renames name chain) (suits : Suits name begun.project sources)
    (keepShadow : Bool) :
    (perform memory (execute Memory.fileSystem keepShadow config chain)).1 =
      .ok ⟨begun.shadow,
        Substitutions.empty.pushAll
          (sources.map fun source => (begun.job chain).entry (Shadow.renamed name source)),
        sources.flatMap fun source =>
          (Script.parse source.path .latest source.text).diagnostics,
        Program.diagnostics (sources.map fun source =>
          (Shadow.renamed name source).readBack begun.project.options.target)⟩ := by
  have begins : Begins memory current config begun :=
    begins_of_start Memory.backs_fileSystem started
  have renamable : (begun.job chain).Renamable name current sources := by
    rw [begins.after]
    exact ⟨listing.read, listing.settled, listing.outside, suits.apart⟩
  have root : (begun.job chain).project.root.isAbsolute :=
    (begins.settled_root absolute).isAbsolute
  have happened : (perform current ((begun.job chain).events Memory.fileSystem)).1 =
      sources.flatMap (Shadow.renamedEvents name) :=
    Shadow.Job.perform_events_of_renames renames begins.settled_shadow root listing.files renamable
  have nonempty : sources ≠ [] := by
    have files := begins.files_ne_nil
    rw [listing.files] at files
    exact mt (congrArg _) files
  have ran := fst_perform_execute Memory.backs_fileSystem absolute started unnamed keepShadow chain
  dsimp only at ran
  rw [happened, Shadow.recorded_renamedEvents] at ran
  rw [ran (mt List.map_eq_nil_iff.mp nonempty)
    (List.pairwise_map.mpr (listing.pairwise_place begins.settled_shadow suits)),
    Shadow.Job.diagnostics_renamedEvents renames, List.map_map]
  rw [Shadow.Job.substitutions_after, Shadow.Job.extend, Shadow.recorded_renamedEvents,
    List.map_map]
  rfl

theorem start_of_resolved {document : Document}
    (loaded : (memory.run (loadDocument Memory.fileSystem config)).1 = .ok document)
    (resolved : (memory.run (resolveDocument Memory.fileSystem document)).1 = .ok project) :
    perform memory (start Memory.fileSystem config) =
      (.ok ⟨document, project, memory.makeTemporary.1⟩, memory.makeTemporary.2) := by
  obtain ⟨outcome, ran, -⟩ := run_loadDocument memory config
  rw [ran] at loaded
  rw [run_resolveDocument_fileSystem] at resolved
  dsimp only at loaded resolved
  change memory.run (start Memory.fileSystem config) = _
  unfold start
  rw [Memory.run_bind, ran, loaded]
  dsimp only
  rw [Memory.run_bind, run_resolveDocument_fileSystem, resolved]
  rfl

end

/-- Whether the report of a run that renames files by a suffix is that of a run that does not,
with the new names in it: in the diagnostics, and each with an entry of its own. -/
structure OnlyRenames (suffix : String) (project : ShadowCheck.Project) (plain renamed : Report) :
    Prop where
  shadow : renamed.shadow = plain.shadow
  transformed : renamed.transformDiagnostics = plain.transformDiagnostics
  checked : renamed.diagnostics = plain.diagnostics.map (Diagnostic.mapFile (·.withSuffix suffix))
  entries : renamed.substitutions.entries = project.files.map fun file =>
    ⟨file.withSuffix suffix, Path.shadowed plain.shadow project.root (file.withSuffix suffix)⟩
  apart : renamed.substitutions.entries.Pairwise fun first second =>
    ¬ first.source.Same second.source ∧ ¬ first.target.Same second.target

/-- New names that are all different come from names that are shown differently. -/
theorem OnlyRenames.pairwise_not_shownAlike {suffix : String} {project : ShadowCheck.Project}
    {plain renamed : Report} (onlyRenames : OnlyRenames suffix project plain renamed)
    (named : ∀ file ∈ project.files, ∃ name, file.fileName? = some name)
    (whole : '/' ∉ suffix.toList) :
    project.files.Pairwise fun left right => ¬ left.ShownAlike right := by
  have apart := onlyRenames.apart
  rw [onlyRenames.entries, List.pairwise_map] at apart
  refine apart.imp_of_mem ?_
  intro left right leftFound rightFound different alike
  obtain ⟨name, last⟩ := named left leftFound
  obtain ⟨otherName, otherLast⟩ := named right rightFound
  exact different.1 ((Path.withSuffix_same_iff_shownAlike last otherLast whole).mpr alike)

theorem Listing.exists_onlyRenames {memory current : Memory} {config : Path} {begun : Start}
    {sources : List Entry} (listing : Listing memory begun.project begun.shadow sources)
    (absolute : memory.directory.isAbsolute)
    (started : perform memory (start Memory.fileSystem config) = (.ok begun, current))
    (unnamed : begun.document.field? "files" = none) {suffix : String}
    (whole : '/' ∉ suffix.toList)
    (distinct : sources.Pairwise fun first second => ¬ first.path.ShownAlike second.path)
    {keepShadow : Bool} {plain : Report}
    (ran : (perform memory (execute Memory.fileSystem keepShadow config [])).1 = .ok plain) :
    ∃ renamed,
      (perform memory (execute Memory.fileSystem keepShadow config
        [Edit.transformer (.renameWithSuffix suffix)])).1 = .ok renamed ∧
      OnlyRenames suffix begun.project plain renamed := by
  have begins : Begins memory current config begun :=
    begins_of_start Memory.backs_fileSystem started
  have suits := listing.suits_withSuffix whole distinct
  rw [fst_perform_execute_of_renames absolute started unnamed listing Shadow.renames_nil
    listing.suits_id keepShadow] at ran
  cases ran
  refine ⟨_, fst_perform_execute_of_renames absolute started unnamed listing
    (Shadow.renames_withSuffix suffix) suits keepShadow, ⟨rfl, rfl, ?_, ?_, ?_⟩⟩
  · apply eq_map_of_forall₂_agrees
    apply Program.agrees_diagnostics
    rw [List.forall₂_map_left_iff, List.forall₂_map_right_iff, List.forall₂_same]
    intro source _
    exact ⟨rfl, rfl, rfl⟩
  · rw [Substitutions.entries_pushAll, listing.files, List.map_map]
    rfl
  · have places := listing.pairwise_place begins.settled_shadow suits
    rw [Substitutions.entries_pushAll]
    exact List.pairwise_map.mpr (suits.apart.and places)

/-- A file with dots in its name, in front and between. -/
def dottedMemory : Memory :=
  Memory.ofEntries ⟨"/root"⟩
    [⟨⟨"tsconfig.json"⟩, "\x7b\x7d"⟩, ⟨⟨".a.b.ts"⟩, "let a: string = 1"⟩]

def dottedProject : ShadowCheck.Project :=
  ⟨⟨"/root/tsconfig.json"⟩, ⟨"/root"⟩, [⟨"/root/.a.b.ts"⟩], .default⟩

theorem resolve_dottedMemory :
    (dottedMemory.run (resolve Memory.fileSystem ⟨"tsconfig.json"⟩)).1 = .ok dottedProject :=
  eq_ok_of_toOption (by decide +kernel)

end Recheck

end ShadowCheck
