import ShadowCheck.Proofs.Store.Writes
import ShadowCheck.Proofs.Transform.Events

/-!
Transforming on a store in memory, where every write succeeds. The store that a
run leaves is the one it began with, written over by the outputs it recorded. A
recorded output reads as its own text through the substitutions just when no
other text was written to its place.
-/

namespace ShadowCheck.Shadow

namespace Job

variable (job : Job)

def write (output : Script) : Entry :=
  ⟨job.place output, output.print⟩

/-- Wherever a store is asked from, an output goes below the shadow directory. -/
theorem startsWith_place (settled : job.shadow.Settled) (absolute : job.project.root.isAbsolute)
    (memory : Memory) (output : Script) :
    (memory.locate (job.place output)).startsWith job.shadow := by
  have placed : (job.place output).Settled := Path.settled_shadowed settled absolute output.file
  rw [Path.startsWith_congr (Memory.locate_same placed memory)]
  exact Path.startsWith_shadowed settled.isAbsolute absolute output.file

section

variable {σ : Type} {store : FileSystem (StateM σ)} {memory : σ → Memory} (state : σ)

/-! A memory behind a store holds what was recorded, and nothing else is done to it. -/

theorem memory_perform_fate (backs : Memory.Backs memory store) (table : Substitutions)
    (output : Script) :
    let result := perform state (job.fate store table output)
    memory result.2 =
      (memory state).writeAll ((recorded [.handled output result.1]).map job.write) := by
  unfold fate
  by_cases known : table.contains output.file
  · rw [if_pos known]
    rfl
  · rw [if_neg known, perform_bind]
    have written := backs.written state (job.place output) output.print
    have refused := backs.refused state (job.place output) output.print
    cases answer : (perform state (store.write (job.place output) output.print)).1 with
    | ok => exact written answer
    | error error => exact refused error answer

theorem memory_perform_outputEvents (backs : Memory.Backs memory store) (table : Substitutions)
    (outputs : List Script) :
    let result := perform state (job.outputEvents store table outputs)
    memory result.2 = (memory state).writeAll ((recorded result.1).map job.write) := by
  induction outputs generalizing state table with
  | nil => rfl
  | cons output rest ih =>
      simp only [outputEvents, perform_bind, perform_pure]
      rw [ih, recorded_cons _ (perform _ _).1, List.map_append, Memory.writeAll_append,
        memory_perform_fate job state backs]

theorem memory_perform_fileEvents (backs : Memory.Backs memory store) (table : Substitutions)
    (file : Path) :
    let result := perform state (job.fileEvents store table file)
    memory result.2 = (memory state).writeAll ((recorded result.1).map job.write) := by
  simp only [fileEvents, perform_bind, backs.read]
  cases (memory state).read? file with
  | none => rfl
  | some text =>
      simp only [perform_bind, perform_pure]
      rw [memory_perform_outputEvents job state backs, recorded_cons, recorded_opened,
        List.nil_append]

theorem memory_perform_filesEvents (backs : Memory.Backs memory store) (table : Substitutions)
    (files : List Path) :
    let result := perform state (job.filesEvents store table files)
    memory result.2 = (memory state).writeAll ((recorded result.1).map job.write) := by
  induction files generalizing state table with
  | nil => rfl
  | cons file rest ih =>
      simp only [filesEvents, perform_bind, perform_pure]
      rw [ih, memory_perform_fileEvents job state backs, recorded_append, List.map_append,
        Memory.writeAll_append]

theorem memory_perform_events (backs : Memory.Backs memory store) :
    let result := perform state (job.events store)
    memory result.2 = (memory state).writeAll ((recorded result.1).map job.write) :=
  job.memory_perform_filesEvents state backs .empty job.project.files

end

/-- What a run that transforms a project gives, and the store that it leaves. -/
theorem run_transformProject (memory : Memory) :
    let events := (memory.run (job.events Memory.fileSystem)).1
    memory.run (transformProject Memory.fileSystem job.project job.shadow job.chain) =
      (job.after .empty events, memory.writeAll ((recorded events).map job.write)) := by
  intro events
  rw [transformProject_eq]
  exact Prod.ext rfl (job.memory_perform_events memory Memory.backs_fileSystem)

/-- Through its substitutions a recorded output is looked for at its place. -/
theorem lookup?_eq_place {events : List Event}
    (apart : (job.after .empty events).substitutions.Apart) {output : Script}
    (found : output ∈ recorded events) :
    (job.after .empty events).substitutions.lookup? output.file = some (job.place output) := by
  have inside : job.entry output ∈ (job.after .empty events).substitutions.entries := by
    rw [entries_after]
    exact List.mem_map_of_mem found
  have target := apart.lookup?_of_mem inside
  exact target

section

variable (memory : Memory)

/-- A recorded output reads as the store has it at its place. -/
theorem run_read_recorded {output : Script}
    (found : output ∈ recorded (memory.run (job.events Memory.fileSystem)).1) :
    let stage :=
      memory.run (transformProject Memory.fileSystem job.project job.shadow job.chain)
    (stage.2.run ((stage.1.substitutions.overlay Memory.fileSystem).read output.file)).1 =
      stage.2.read? (job.place output) := by
  intro stage
  have ran : stage = _ := job.run_transformProject memory
  have target := job.lookup?_eq_place (job.apart_events Memory.fileSystem memory) found
  have table : stage.1.substitutions.lookup? output.file = some (job.place output) := by
    rw [ran]
    exact target
  change stage.2.read? ((stage.1.substitutions.lookup? output.file).getD output.file) = _
  rw [table, Option.getD_some]

/-- Whether all that a run recorded reads as its own text when the run is over. -/
def ReadsExactly : Prop :=
  let events := (memory.run (job.events Memory.fileSystem)).1
  let stage :=
    memory.run (transformProject Memory.fileSystem job.project job.shadow job.chain)
  ∀ output ∈ recorded events,
    (stage.2.run ((stage.1.substitutions.overlay Memory.fileSystem).read output.file)).1 =
      some output.print

theorem ReadsExactly.print_eq (exactly : job.ReadsExactly memory) {first second : Script}
    (firstFound : first ∈ recorded (memory.run (job.events Memory.fileSystem)).1)
    (secondFound : second ∈ recorded (memory.run (job.events Memory.fileSystem)).1)
    (same : (memory.locate (job.place first)).Same (memory.locate (job.place second))) :
    first.print = second.print := by
  have firstReads := (job.run_read_recorded memory firstFound).symm.trans
    (exactly first firstFound)
  have secondReads := (job.run_read_recorded memory secondFound).symm.trans
    (exactly second secondFound)
  rw [job.run_transformProject memory] at firstReads secondReads
  have located := memory.locate_writeAll
    ((recorded (memory.run (job.events Memory.fileSystem)).1).map job.write)
  rw [← located, ← located] at same
  have reads := firstReads.symm.trans ((Memory.read?_congr _ same).trans secondReads)
  exact Option.some.inj reads

/-- Recorded outputs read as their own texts exactly when no place was given to
two different texts. -/
theorem readsExactly_iff :
    let events := (memory.run (job.events Memory.fileSystem)).1
    let stage :=
      memory.run (transformProject Memory.fileSystem job.project job.shadow job.chain)
    stage.1.substitutions.entries = (recorded events).map job.entry ∧
      (job.ReadsExactly memory ↔
        ∀ first ∈ recorded events, ∀ second ∈ recorded events,
          (memory.locate (job.place first)).Same (memory.locate (job.place second)) →
            first.print = second.print) := by
  intro events stage
  have ran : stage = (job.after .empty events,
      memory.writeAll ((recorded events).map job.write)) := job.run_transformProject memory
  refine ⟨by rw [ran, entries_after], fun exactly => ?_, fun agree output found => ?_⟩
  · intro first firstFound second secondFound
    exact exactly.print_eq job memory firstFound secondFound
  · rw [job.run_read_recorded memory found]
    change stage.2.read? (job.place output) = some output.print
    rw [ran]
    apply Memory.read?_writeAll
    · exact ⟨job.write output, List.mem_map_of_mem found, Path.Same.refl _⟩
    · intro entry inside same
      obtain ⟨other, otherFound, rfl⟩ := List.mem_map.mp inside
      exact agree other otherFound output found same

end

/-- A file in the external directory of a project, and a file from outside that
is folded to the same place. -/
def clash : Job where
  project :=
    ⟨⟨"/root/tsconfig.json"⟩, ⟨"/root"⟩, [⟨"/root/__external__/x.ts"⟩, ⟨"/x.ts"⟩], .default⟩
  shadow := Memory.temporaryPath 0
  chain := []

def clashMemory : Memory :=
  Memory.ofEntries ⟨"/root"⟩
    [⟨⟨"/root/__external__/x.ts"⟩, "let a = 1"⟩, ⟨⟨"/x.ts"⟩, "let b = 2"⟩]

theorem not_readsExactly_clash : ¬ clash.ReadsExactly clashMemory := by
  intro exactly
  have folded : ∃ first ∈ recorded (clashMemory.run (clash.events Memory.fileSystem)).1,
      ∃ second ∈ recorded (clashMemory.run (clash.events Memory.fileSystem)).1,
        (clashMemory.locate (clash.place first)).Same
          (clashMemory.locate (clash.place second)) ∧
          first.print ≠ second.print := by
    decide +kernel
  obtain ⟨first, firstFound, second, secondFound, same, apart⟩ := folded
  exact apart (exactly.print_eq clash clashMemory firstFound secondFound same)

end Job

end ShadowCheck.Shadow
