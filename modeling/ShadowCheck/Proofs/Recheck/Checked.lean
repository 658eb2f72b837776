import Mathlib.Data.List.Nodup
import ShadowCheck.Proofs.Recheck.Report
import ShadowCheck.Proofs.Recheck.Reported
import ShadowCheck.Proofs.Transform.Recorded

/-!
What a run checks. Where a document does not name its files, the program that is
checked consists of the recorded outputs, in order, each as its printed text
reads: no output is checked twice, left out, or replaced by what it was made from.
-/

namespace ShadowCheck

/-- A script as its own printed text reads. -/
def Script.readBack (edition : Edition) (script : Script) : Script :=
  parse script.file edition script.print

namespace Project

def Document.field? (document : Document) (name : String) : Option Json.Value :=
  document.value.fields?.bind (·.lookup name)

theorem Document.files_settings {document : Document} (unnamed : document.field? "files" = none) :
    document.settings.files = none := by
  unfold Document.field? at unnamed
  have absent : (document.value.fields?.getD []).lookup "files" = none := by
    cases fields : document.value.fields? with
    | none => rfl
    | some found =>
        rw [fields] at unnamed
        exact unnamed
  unfold Document.settings Settings.ofFields
  rw [absent]
  rfl

/-- Where no file is named, the files are those that are listed. -/
theorem exists_filesWith_of_unnamed {settings : Settings} (unnamed : settings.files = none)
    (list : Path → Selection → List Path) (root : Path)
    (apart : ∀ selection, (list root selection).Pairwise fun left right => ¬ left.Same right) :
    ∃ selection, filesWith list root settings = list root selection := by
  have whole : ∀ selection, addListed [] (list root selection) = list root selection := by
    intro selection
    exact addListed_of_apart (apart selection)
  unfold filesWith Settings.patterns? Settings.namedFiles
  rw [unnamed]
  cases settings.includes with
  | none => exact ⟨_, whole _⟩
  | some patterns => exact ⟨_, whole _⟩

end Project

namespace Shadow.Job

variable (job : Job) {events : List Event}

theorem sources_after (apart : (job.after .empty events).substitutions.Apart) :
    (job.after .empty events).substitutions.sources = (recorded events).map (·.file) := by
  have pairwise : ((job.after .empty events).substitutions.entries.map (·.source)).Pairwise
      fun left right => ¬ left.Same right := List.pairwise_map.mpr apart
  rw [Substitutions.sources_eq, Path.distinct_eq_self pairwise, entries_after, List.map_map]
  rfl

/-- Outputs that were written to different places can all be read there. -/
theorem read?_place (settled : job.shadow.Settled) (absolute : job.project.root.isAbsolute)
    (apart : (recorded events).Pairwise fun first second =>
      ¬ (job.place first).Same (job.place second))
    (memory : Memory) {output : Script} (found : output ∈ recorded events) :
    (memory.writeAll ((recorded events).map job.write)).read? (job.place output) =
      some output.print := by
  have placed : ∀ output : Script, (memory.locate (job.place output)).Same (job.place output) :=
    fun output => Memory.locate_same (Path.settled_shadowed settled absolute output.file) memory
  have nodup : ((recorded events).map fun output => (job.place output).components).Nodup :=
    List.pairwise_map.mpr apart
  apply Memory.read?_writeAll
  · exact ⟨job.write output, List.mem_map_of_mem found, Path.Same.refl _⟩
  · intro entry inside same
    obtain ⟨other, otherFound, rfl⟩ := List.mem_map.mp inside
    have samePlace := (placed other).symm.trans (same.trans (placed output))
    rw [List.inj_on_of_nodup_map nodup otherFound found samePlace]
    rfl

end Shadow.Job

namespace Recheck

open Project

section

variable {σ : Type} {store : FileSystem (StateM σ)} {memory : σ → Memory}

theorem fst_perform_executeIn (backs : Memory.Backs memory store) {state : σ}
    {job : Shadow.Job} {events : List Shadow.Event}
    (happened : (perform state (job.events store)).1 = events) (keepShadow : Bool)
    (document : Document) :
    let table := (job.after .empty events).substitutions
    let written := (memory state).writeAll ((Shadow.recorded events).map job.write)
    (perform state
      (executeIn store keepShadow document job.project job.chain job.shadow)).1 =
      (projectOf document (interpretWith (fun _ _ => table.sources) document)).map fun project =>
        ⟨job.shadow, table, events.flatMap job.diagnostics,
          diagnosticsWith (readThrough table written) project⟩ := by
  intro table written
  have left : memory (perform state (job.events store)).2 =
      (memory state).writeAll
        ((Shadow.recorded (perform state (job.events store)).1).map job.write) :=
    job.memory_perform_events state backs
  have stage : perform state
      (Shadow.transformProject store job.project job.shadow job.chain) =
        (job.after .empty events, (perform state (job.events store)).2) := by
    rw [job.transformProject_eq, ← happened]
    rfl
  generalize (perform state (job.events store)).2 = later at stage left
  rw [happened] at left
  unfold executeIn
  rw [perform_bind, stage, perform_bind]
  dsimp only
  rw [perform_checkDocument_overlay backs, left, perform_bind, perform_pure]
  cases projectOf document (interpretWith (fun _ _ => table.sources) document) <;> rfl

/-- What a run begins with on a store that a memory is behind. -/
structure Begins (before after : Memory) (config : Path) (begun : Start) : Prop where
  document : begun.document.path = before.directory.resolve config
  resolved : projectOf begun.document (interpretWith before.list begun.document) =
    .ok begun.project
  shadow : begun.shadow = before.makeTemporary.1
  after : after = before.makeTemporary.2

theorem begins_of_start (backs : Memory.Backs memory store) {state current : σ} {config : Path}
    {begun : Start} (started : perform state (start store config) = (.ok begun, current)) :
    Begins (memory state) (memory current) config begun := by
  obtain ⟨loaded, ran, document⟩ := perform_loadDocument backs state config
  unfold start at started
  rw [perform_bind, ran] at started
  cases loaded with
  | error failure => cases started
  | ok loaded =>
      dsimp only at started
      rw [perform_bind, perform_resolveDocument (backs.list state)] at started
      cases resolved : projectOf loaded (interpretWith (memory state).list loaded) with
      | error failure =>
          rw [resolved] at started
          cases started
      | ok project =>
          rw [resolved] at started
          dsimp only at started
          rw [perform_bind] at started
          have made := backs.makeTemporary state
          generalize perform state store.makeTemporary = handed at started made
          obtain ⟨error | shadow, later⟩ := handed
          · cases started
          · cases started
            obtain ⟨path, after⟩ := made shadow rfl
            exact ⟨document loaded rfl, resolved, path, after⟩

variable {before after : Memory} {config : Path} {begun : Start}

theorem Begins.settled_shadow (begins : Begins before after config begun) :
    begun.shadow.Settled := by
  rw [begins.shadow]
  exact Memory.settled_temporaryPath before.nextTemporary

theorem Begins.project_eq (begins : Begins before after config begun) :
    begun.project = ⟨begun.document.path, begun.document.root,
      filesWith before.list begun.document.root begun.document.settings,
      begun.document.settings.options⟩ := by
  have here := projectOf_interpretWith begins.resolved before.list
  rw [begins.resolved, if_neg (filesWith_ne_nil_of_projectOf begins.resolved)] at here
  exact Except.ok.inj here

theorem Begins.files_ne_nil (begins : Begins before after config begun) :
    begun.project.files ≠ [] := by
  rw [begins.project_eq]
  exact filesWith_ne_nil_of_projectOf begins.resolved

theorem Begins.settled_root (begins : Begins before after config begun)
    (absolute : before.directory.isAbsolute) : begun.project.root.Settled := by
  rw [begins.project_eq]
  dsimp only
  rw [Document.root, begins.document]
  exact settled_rootOf (Path.settled_resolve absolute config)

/-- Where every recorded output can be read at its place, these outputs are what
is checked. -/
theorem diagnosticsWith_readThrough {job : Shadow.Job} {events : List Shadow.Event}
    (apart : (job.after .empty events).substitutions.Apart) {written : Memory}
    (reads : ∀ output ∈ Shadow.recorded events,
      written.read? (job.place output) = some output.print)
    {project : ShadowCheck.Project}
    (files : project.files = (Shadow.recorded events).map (·.file)) :
    diagnosticsWith (readThrough (job.after .empty events).substitutions written) project =
      Program.diagnostics
        ((Shadow.recorded events).map (Script.readBack project.options.target)) := by
  unfold diagnosticsWith
  rw [files, List.filterMap_map, ← List.filterMap_eq_map]
  congr 1
  apply List.filterMap_congr
  intro output found
  have through : readThrough (job.after .empty events).substitutions written output.file =
      some output.print := by
    rw [readThrough, job.lookup?_eq_place apart found, Option.getD_some, reads output found]
  rw [Function.comp_apply, Program.scriptOf, through]
  rfl

variable {state current : σ}

/-- The report of a run that recorded outputs, all of them at different places. -/
theorem fst_perform_execute (backs : Memory.Backs memory store)
    (absolute : (memory state).directory.isAbsolute)
    (started : perform state (start store config) = (.ok begun, current))
    (unnamed : begun.document.field? "files" = none) (keepShadow : Bool)
    (chain : List Transformer) :
    let job := begun.job chain
    let events := (perform current (job.events store)).1
    let outputs := Shadow.recorded events
    outputs ≠ [] →
    outputs.Pairwise (fun first second => ¬ (job.place first).Same (job.place second)) →
    (perform state (execute store keepShadow config chain)).1 =
      .ok ⟨begun.shadow, (job.after .empty events).substitutions,
        events.flatMap job.diagnostics,
        Program.diagnostics (outputs.map (Script.readBack begun.project.options.target))⟩ := by
  intro job events outputs nonempty places
  have begins := begins_of_start backs started
  have apart : (job.after .empty events).substitutions.Apart := job.apart_events store current
  have sources := job.sources_after apart
  have reads : ∀ output ∈ outputs, ((memory current).writeAll (outputs.map job.write)).read?
      (job.place output) = some output.print := fun output found =>
    job.read?_place begins.settled_shadow (begins.settled_root absolute).isAbsolute places _ found
  -- the second interpretation finds the names of the recorded outputs
  have listed : filesWith (fun _ _ => (job.after .empty events).substitutions.sources)
      begun.document.root begun.document.settings = outputs.map (·.file) := by
    have apart := (job.after .empty events).substitutions.listsFirsts_sources.apart
    obtain ⟨_, files⟩ := exists_filesWith_of_unnamed (Document.files_settings unnamed)
      (fun _ _ => (job.after .empty events).substitutions.sources) begun.document.root
      fun _ => apart
    rw [files, sources]
  have options : begun.project.options = begun.document.settings.options := by
    rw [begins.project_eq]
  rw [fst_perform_execute_of_start started keepShadow chain]
  have ran := fst_perform_executeIn backs (rfl : _ = events) keepShadow begun.document
  dsimp only at ran
  rw [projectOf_interpretWith begins.resolved, listed,
    if_neg (by rwa [List.map_eq_nil_iff])] at ran
  refine ran.trans ?_
  rw [Except.map, diagnosticsWith_readThrough apart reads rfl, options]
  rfl

/-- Where a document does not name its files and the recorded outputs have different
places, a run checks just these outputs: each under its own name, in order, and
with the text that was printed for it. -/
theorem execute_checks_recorded (backs : Memory.Backs memory store)
    (absolute : (memory state).directory.isAbsolute)
    (started : perform state (start store config) = (.ok begun, current))
    (unnamed : begun.document.field? "files" = none) (keepShadow : Bool)
    (chain : List Transformer) :
    let job := begun.job chain
    let outputs := Shadow.recorded (perform current (job.events store)).1
    let scripts := outputs.map fun output =>
      Script.parse output.file begun.project.options.target output.print
    outputs ≠ [] →
    outputs.Pairwise (fun first second => ¬ (job.place first).Same (job.place second)) →
    ∃ report,
      (perform state (execute store keepShadow config chain)).1 = .ok report ∧
      report.substitutions.entries = outputs.map job.entry ∧
      report.substitutions.sources = outputs.map (·.file) ∧
      (outputs.map (·.file)).Pairwise (fun left right => ¬ left.Same right) ∧
      report.diagnostics =
        Program.semanticDiagnostics scripts ++ Program.syntacticDiagnostics scripts := by
  intro job outputs scripts nonempty places
  have apart := job.apart_events store current
  refine ⟨_, fst_perform_execute backs absolute started unnamed keepShadow chain nonempty places,
    job.entries_after _, job.sources_after apart, ?_, rfl⟩
  rw [← job.sources_after apart]
  exact (Substitutions.listsFirsts_sources _).apart

end

/-- Each output of a file and of its copy, twice. -/
def twice : List Transformer :=
  [Edit.transformer (.copy "x" "y"), Edit.transformer .duplicate]

/-- The file itself cannot be written, and the copy is recorded once. -/
theorem execute_checks_recorded_refusing :
    ∃ report,
      (perform listedMemory (execute (refusing [⟨"/tmp/recheck-shadow-0/a.ts"⟩]) false
        ⟨"tsconfig.json"⟩ twice)).1 = .ok report ∧
      report.substitutions.entries =
        [⟨⟨"/root/a.x.ts"⟩, ⟨"/tmp/recheck-shadow-0/a.x.ts"⟩⟩] := by
  let store := refusing [⟨"/tmp/recheck-shadow-0/a.ts"⟩]
  have ready : (match perform listedMemory (start store ⟨"tsconfig.json"⟩) with
      | (.ok begun, current) =>
          let job := begun.job twice
          let outputs := Shadow.recorded (perform current (job.events store)).1
          decide ((begun.document.field? "files").isNone ∧ outputs ≠ [] ∧
            outputs.Pairwise (fun first second => ¬ (job.place first).Same (job.place second)) ∧
            outputs.map job.entry = [⟨⟨"/root/a.x.ts"⟩, ⟨"/tmp/recheck-shadow-0/a.x.ts"⟩⟩])
      | (.error _, _) => false) = true := by
    decide +kernel
  generalize started : perform listedMemory (start store ⟨"tsconfig.json"⟩) = first at ready
  obtain ⟨failure | begun, current⟩ := first
  · cases ready
  · obtain ⟨unnamed, nonempty, places, entries⟩ := of_decide_eq_true ready
    have backs : Memory.Backs id store := Memory.backs_fileSystem.guard rfl
    obtain ⟨report, ran, recorded, -⟩ := execute_checks_recorded backs (by decide) started
      (Option.isNone_iff_eq_none.mp unnamed) false twice nonempty places
    exact ⟨report, ran, recorded.trans entries⟩

end Recheck

end ShadowCheck
