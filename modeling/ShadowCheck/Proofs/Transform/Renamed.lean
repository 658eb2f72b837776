import ShadowCheck.Proofs.Transform.Recorded
import ShadowCheck.Transform.Edit

/-!
Chains that do nothing but give every script another name. On a store in memory
they record one output for each file, in order, as long as the new names are
different and no file lies below the shadow directory.
-/

namespace ShadowCheck.Shadow

def Renames (name : Path → Path) (chain : List Transformer) : Prop :=
  ∀ options script, Transformer.runChain options chain script =
    ⟨[{ script with file := name script.file }], []⟩

theorem renames_nil : Renames id [] :=
  fun _ _ => rfl

theorem renames_withSuffix (suffix : String) :
    Renames (·.withSuffix suffix) [Edit.transformer (.renameWithSuffix suffix)] :=
  fun _ _ => rfl

/-- The script of a file under its new name. -/
def renamed (name : Path → Path) (source : Entry) : Script :=
  { Script.parse source.path .latest source.text with file := name source.path }

def renamedEvents (name : Path → Path) (source : Entry) : List Event :=
  [.opened source.path source.text, .handled (renamed name source) .written]

theorem recorded_renamedEvents (name : Path → Path) (sources : List Entry) :
    recorded (sources.flatMap (renamedEvents name)) = sources.map (renamed name) := by
  induction sources with
  | nil => rfl
  | cons source rest ih =>
      rw [List.flatMap_cons, recorded_append, ih]
      rfl

theorem Renames.transformText {name : Path → Path} {chain : List Transformer}
    (renames : Renames name chain) (options : Project.Options) (source : Entry) :
    transformText options chain source.path source.text =
      ⟨[renamed name source], (Script.parse source.path .latest source.text).diagnostics⟩ := by
  unfold Shadow.transformText
  dsimp only
  rw [renames, List.append_nil]
  rfl

namespace Job

variable {job : Job} {name : Path → Path}

theorem diagnostics_renamedEvents (renames : Renames name job.chain) (sources : List Entry) :
    (sources.flatMap (renamedEvents name)).flatMap job.diagnostics =
      sources.flatMap fun source =>
        (Script.parse source.path .latest source.text).diagnostics := by
  rw [List.flatMap_assoc]
  apply List.flatMap_congr
  intro source _
  have opened : job.diagnostics (.opened source.path source.text) =
      (Script.parse source.path .latest source.text).diagnostics := by
    rw [diagnostics, renames.transformText]
  rw [renamedEvents, List.flatMap_cons, opened]
  exact List.append_nil _

theorem contains_extend_renamedEvents (table : Substitutions) (source : Entry) (path : Path) :
    (job.extend table (renamedEvents name source)).contains path =
      (table.contains path || decide ((name source.path).Same path)) :=
  table.contains_push (job.entry (renamed name source)) path

/-- A file that can be read is recorded under its new name, if that is not taken. -/
theorem perform_fileEvents_of_renames (renames : Renames name job.chain) {memory : Memory}
    {source : Entry} (read : memory.read? source.path = some source.text)
    {table : Substitutions} (fresh : table.contains (name source.path) = false) :
    perform memory (job.fileEvents Memory.fileSystem table source.path) =
      (renamedEvents name source,
        memory.write (job.place (renamed name source)) (renamed name source).print) := by
  have opened : perform memory (Memory.fileSystem.read source.path) =
      (some source.text, memory) := by
    change (memory.read? source.path, memory) = _
    rw [read]
  have written : perform memory (job.fate Memory.fileSystem table (renamed name source)) =
      (.written,
        memory.write (job.place (renamed name source)) (renamed name source).print) := by
    unfold fate
    rw [renamed, if_neg (Bool.eq_false_iff.mp fresh)]
    rfl
  unfold fileEvents
  rw [perform_bind, opened]
  simp only [renames.transformText, outputEvents, perform_bind, perform_pure, written]
  rfl

/-- Whether files can be read outside the shadow directory, and get different names. -/
structure Renamable (job : Job) (name : Path → Path) (memory : Memory) (sources : List Entry) :
    Prop where
  read : ∀ source ∈ sources, memory.read? source.path = some source.text
  settled : ∀ source ∈ sources, source.path.Settled
  outside : ∀ source ∈ sources, ¬ source.path.startsWith job.shadow
  apart : sources.Pairwise fun first second => ¬ (name first.path).Same (name second.path)

/-- Writing an output leaves the other files as they are. -/
theorem Renamable.write {memory : Memory} {source : Entry} {rest : List Entry}
    (settled : job.shadow.Settled) (absolute : job.project.root.isAbsolute)
    (renamable : job.Renamable name memory (source :: rest)) (output : Script) :
    job.Renamable name (memory.write (job.place output) output.print) rest := by
  obtain ⟨read, settledFiles, outside, apart⟩ := renamable
  refine ⟨?_, (List.forall_mem_cons.mp settledFiles).2, (List.forall_mem_cons.mp outside).2,
    (List.pairwise_cons.mp apart).2⟩
  intro other found
  have later := List.mem_cons_of_mem source found
  rw [Memory.read?_write, if_neg]
  · exact read other later
  · intro same
    have below := job.startsWith_place settled absolute memory output
    rw [Path.startsWith_congr (same.trans (Memory.locate_same (settledFiles other later) memory))]
      at below
    exact outside other later below

theorem perform_filesEvents_of_renames (renames : Renames name job.chain)
    (settled : job.shadow.Settled) (absolute : job.project.root.isAbsolute) {memory : Memory}
    {sources : List Entry} (renamable : job.Renamable name memory sources)
    {table : Substitutions}
    (fresh : ∀ source ∈ sources, table.contains (name source.path) = false) :
    (perform memory (job.filesEvents Memory.fileSystem table (sources.map (·.path)))).1 =
      sources.flatMap (renamedEvents name) := by
  induction sources generalizing memory table with
  | nil => rfl
  | cons source rest ih =>
      obtain ⟨freshFirst, freshRest⟩ := List.forall_mem_cons.mp fresh
      obtain ⟨firstApart, -⟩ := List.pairwise_cons.mp renamable.apart
      have first := perform_fileEvents_of_renames renames
        (renamable.read source List.mem_cons_self) freshFirst
      have freshLater : ∀ other ∈ rest,
          (job.extend table (renamedEvents name source)).contains (name other.path) = false := by
        intro other found
        rw [contains_extend_renamedEvents, freshRest other found,
          decide_eq_false (firstApart other found)]
        rfl
      have others := ih (renamable.write settled absolute (renamed name source)) freshLater
      simp only [List.map_cons, filesEvents, perform_bind, perform_pure, first, others,
        List.flatMap_cons]

theorem perform_events_of_renames (renames : Renames name job.chain)
    (settled : job.shadow.Settled) (absolute : job.project.root.isAbsolute) {memory : Memory}
    {sources : List Entry} (files : job.project.files = sources.map (·.path))
    (renamable : job.Renamable name memory sources) :
    (perform memory (job.events Memory.fileSystem)).1 = sources.flatMap (renamedEvents name) := by
  unfold events
  rw [files]
  exact perform_filesEvents_of_renames renames settled absolute renamable fun _ _ => rfl

end Job

end ShadowCheck.Shadow
