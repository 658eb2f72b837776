import ShadowCheck.Proofs.Recheck.Report
import ShadowCheck.Proofs.Transform.Recorded
import ShadowCheck.Transform.Edit

/-!
What a run leaves behind. All that it writes lies below its shadow directory,
whatever the outputs are named; when it is over, failed or not, the store is the
one it began with, or has the shadow directory on top where that is kept.
-/

namespace ShadowCheck

namespace Recheck

open Project

theorem snd_run_checkDocument_overlay (memory : Memory) (table : Substitutions)
    (document : Document) :
    (memory.run (checkDocument (table.overlay Memory.fileSystem) document)).2 = memory :=
  congrArg Prod.snd (perform_checkDocument_overlay Memory.backs_fileSystem memory table document)

theorem snd_run_release (memory : Memory) (keepShadow : Bool) (shadow : Path) :
    (memory.run (release Memory.fileSystem keepShadow shadow)).2 =
      if keepShadow then memory else memory.removeTemporary shadow := by
  cases keepShadow <;> rfl

theorem snd_run_executeIn (memory : Memory) (keepShadow : Bool) (document : Document)
    (project : ShadowCheck.Project) (chain : List Transformer) (shadow : Path) :
    (memory.run (executeIn Memory.fileSystem keepShadow document project chain shadow)).2 =
      let left := (memory.run
        (Shadow.transformProject Memory.fileSystem project shadow chain)).2
      if keepShadow then left else left.removeTemporary shadow := by
  unfold executeIn
  rw [Memory.run_bind]
  generalize memory.run (Shadow.transformProject Memory.fileSystem project shadow chain) = stage
  rw [Memory.run_bind, snd_run_checkDocument_overlay, Memory.run_bind, ← snd_run_release]
  rfl

/-- A run that does not get as far as a project leaves the store as it is. -/
theorem snd_run_execute_cases (memory : Memory) (config : Path) (keepShadow : Bool)
    (chain : List Transformer) :
    (memory.run (execute Memory.fileSystem keepShadow config chain)).2 = memory ∨
      ∃ document project,
        (memory.run (loadDocument Memory.fileSystem config)).1 = .ok document ∧
        (memory.run (resolveDocument Memory.fileSystem document)).1 = .ok project := by
  obtain ⟨loaded, ran, -⟩ := run_loadDocument memory config
  rw [ran]
  unfold execute
  rw [Memory.run_bind, ran]
  cases loaded with
  | error failure => exact .inl rfl
  | ok document =>
      dsimp only
      rw [Memory.run_bind, run_resolveDocument_fileSystem]
      cases found : projectOf document (interpretWith memory.list document) with
      | error failure => exact .inl rfl
      | ok project =>
          refine .inr ⟨document, project, rfl, ?_⟩
          rw [run_resolveDocument_fileSystem, found]

/-- Whether a store is another one to which only things below a folder were added. -/
structure Confined (folder : Path) (before after : Memory) : Prop where
  writes : ∃ added, after.writes = before.writes ++ added ∧ ∀ path ∈ added, path.startsWith folder
  entries : Memory.AddsBelow folder before.entries after

theorem confined_self (folder : Path) (memory : Memory) : Confined folder memory memory where
  writes := ⟨[], (List.append_nil _).symm, nofun⟩
  entries := Memory.addsBelow_self folder memory

theorem confined_transformProject (job : Shadow.Job) (settled : job.shadow.Settled)
    (absolute : job.project.root.isAbsolute) (memory : Memory)
    (clear : ∀ entry ∈ memory.entries, ¬ entry.path.startsWith job.shadow) :
    let left := (memory.run
      (Shadow.transformProject Memory.fileSystem job.project job.shadow job.chain)).2
    Confined job.shadow memory left ∧ left.temporaries = memory.temporaries := by
  intro left
  have ran : left = memory.writeAll _ := congrArg Prod.snd (job.run_transformProject memory)
  have inside := fun output => job.startsWith_place settled absolute memory output
  rw [ran]
  refine ⟨⟨⟨_, memory.writes_writeAll _, ?_⟩, ?_⟩, memory.temporaries_writeAll _⟩
  · intro path found
    obtain ⟨entry, written, rfl⟩ := List.mem_map.mp found
    obtain ⟨output, -, rfl⟩ := List.mem_map.mp written
    exact inside output
  · apply (Memory.addsBelow_self job.shadow memory).writeAll clear
    intro entry written
    obtain ⟨output, -, rfl⟩ := List.mem_map.mp written
    exact inside output

theorem confined_executeIn (job : Shadow.Job) (settled : job.shadow.Settled)
    (absolute : job.project.root.isAbsolute) (memory : Memory)
    (clear : ∀ entry ∈ memory.entries, ¬ entry.path.startsWith job.shadow) {others : List Path}
    (temporaries : memory.temporaries = others ++ [job.shadow])
    (apart : ∀ other ∈ others, ¬ other.Same job.shadow) (document : Document)
    (keepShadow : Bool) :
    let after := (memory.run (executeIn Memory.fileSystem keepShadow document job.project
      job.chain job.shadow)).2
    (∃ added, after.writes = memory.writes ++ added ∧
        ∀ path ∈ added, path.startsWith job.shadow) ∧
      (keepShadow = false → after.entries = memory.entries ∧ after.temporaries = others) ∧
      (keepShadow = true →
        ∃ added, after.entries = memory.entries ++ added ∧
          ∀ entry ∈ added, entry.path.startsWith job.shadow) := by
  intro after
  obtain ⟨⟨writes, entries⟩, kept⟩ := confined_transformProject job settled absolute memory clear
  have ran : after = _ := snd_run_executeIn memory keepShadow document _ _ _
  rw [ran]
  dsimp only
  cases keepShadow with
  | true =>
      rw [if_pos rfl]
      exact ⟨writes, nofun, fun _ => entries⟩
  | false =>
      have restored := entries.entries_removeTemporary clear settled
      have released := Memory.temporaries_removeTemporary (kept.trans temporaries) apart settled
      rw [if_neg Bool.false_ne_true]
      exact ⟨writes, fun _ => ⟨restored, released⟩, nofun⟩

/-- A run adds nothing outside its shadow directory. When that is not kept, the
entries and the temporary directories are those from before the run. -/
theorem confined_execute {directory : Path} (absolute : directory.isAbsolute) {memory : Memory}
    (reachable : memory.Reachable directory)
    (clear : ∀ entry ∈ memory.entries, ¬ entry.path.startsWith memory.makeTemporary.1)
    (config : Path) (chain : List Transformer) (keepShadow : Bool) :
    let shadow := memory.makeTemporary.1
    let after := (memory.run (execute Memory.fileSystem keepShadow config chain)).2
    (∃ added, after.writes = memory.writes ++ added ∧ ∀ path ∈ added, path.startsWith shadow) ∧
      (keepShadow = false →
        after.entries = memory.entries ∧ after.temporaries = memory.temporaries) ∧
      (keepShadow = true →
        ∃ added, after.entries = memory.entries ++ added ∧
          ∀ entry ∈ added, entry.path.startsWith shadow) := by
  intro shadow after
  have sound := reachable.sound absolute
  rcases snd_run_execute_cases memory config keepShadow chain with
    unchanged | ⟨document, project, loaded, resolved⟩
  · have same : after = memory := unchanged
    rw [same]
    exact ⟨(confined_self shadow memory).writes, fun _ => ⟨rfl, rfl⟩,
      fun _ => (confined_self shadow memory).entries⟩
  · have root : project.root.isAbsolute := by
      rw [run_resolveDocument_fileSystem] at resolved
      obtain ⟨settings, -, described, -⟩ := exists_settings_of_projectOf resolved
      rw [described]
      exact isAbsolute_root_of_loadDocument sound loaded
    have ran : after = _ := congrArg Prod.snd (run_execute loaded resolved keepShadow chain)
    rw [ran]
    have fresh : ∀ other ∈ memory.temporaries, ¬ other.Same memory.makeTemporary.1 :=
      fun _ found => reachable.not_same_makeTemporary found
    have settled : memory.makeTemporary.1.Settled := Memory.settled_temporaryPath _
    have allocated : memory.makeTemporary.2.temporaries =
        memory.temporaries ++ [memory.makeTemporary.1] := rfl
    exact confined_executeIn ⟨project, memory.makeTemporary.1, chain⟩ settled root
      memory.makeTemporary.2 clear allocated fresh document keepShadow

/-- Outputs named by climbing out of the project, and by the root of it. -/
def wandering : List Transformer :=
  [Edit.transformer (.renameTo ⟨"../../b.ts"⟩), Edit.transformer (.copy "x" "y"),
    fun _ script => ⟨[script, { script with file := ⟨"/work"⟩ }], []⟩]

theorem confined_execute_wandering :
    (∀ entry ∈ sampleMemory.entries, ¬ entry.path.startsWith sampleMemory.makeTemporary.1) ∧
      (sampleMemory.run
        (execute Memory.fileSystem false ⟨"tsconfig.json"⟩ wandering)).2.entries =
          sampleMemory.entries := by
  have clear : ∀ entry ∈ sampleMemory.entries,
      ¬ entry.path.startsWith sampleMemory.makeTemporary.1 := by
    decide +kernel
  have reachable : sampleMemory.Reachable ⟨"/work"⟩ := .ofEntries _
  obtain ⟨-, restored, -⟩ := confined_execute (by decide) reachable clear ⟨"tsconfig.json"⟩
    wandering false
  exact ⟨clear, (restored rfl).1⟩

end Recheck

end ShadowCheck
