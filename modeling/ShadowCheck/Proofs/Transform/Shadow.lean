import ShadowCheck.Proofs.Store.Memory
import ShadowCheck.Proofs.Store.Overlay
import ShadowCheck.Transform.Shadow

/-!
Transforming into a shadow directory on a store in memory. For a chain that
gives one script for each file, the table sends every file that can be read to
its own place below the shadow directory, the printed script stands there, and
nothing outside that directory has changed.
-/

namespace ShadowCheck.Shadow

def transformed? (memory : Memory) (project : Project) (chain : List Transformer)
    (file : Path) : Option Transformed :=
  (memory.read? file).map (transformText project.options chain file)

/-- The text that stands for a file once it is transformed. -/
def printed? (memory : Memory) (project : Project) (chain : List Transformer)
    (file : Path) : Option String :=
  (transformed? memory project chain file).bind fun transformed =>
    transformed.outputs.head?.map Script.print

def reports (memory : Memory) (project : Project) (chain : List Transformer)
    (file : Path) : List Diagnostic :=
  (transformed? memory project chain file).elim [] Transformed.reports

/-- Whether a chain gives just one script for a file that can be read, under a
name that is like the name of the file. -/
def KeepsFile (like : Path → Path → Prop) (memory : Memory) (project : Project)
    (chain : List Transformer) (file : Path) : Prop :=
  ∀ text, memory.read? file = some text →
    ∃ output, (transformText project.options chain file text).outputs = [output] ∧
      like output.file file

/-- Whether files lie outside a shadow directory and have different places in it. -/
structure Spread (shadow root : Path) (files : List Path) : Prop where
  settled : ∀ file ∈ files, file.Settled
  outside : ∀ file ∈ files, ¬ file.startsWith shadow
  apart : files.Pairwise fun left right =>
    ¬ (Path.shadowed shadow root left).Same (Path.shadowed shadow root right)

theorem Spread.pairwise {shadow root : Path} {files : List Path}
    (spread : Spread shadow root files) :
    files.Pairwise fun left right => ¬ left.Same right := by
  refine spread.apart.imp fun other same => other ?_
  rw [Path.shadowed_congr shadow root same]
  exact Path.Same.refl _

theorem Spread.of_append {shadow root : Path} {done rest : List Path}
    (spread : Spread shadow root (done ++ rest)) : Spread shadow root done where
  settled file found := spread.settled file (List.mem_append_left rest found)
  outside file found := spread.outside file (List.mem_append_left rest found)
  apart := (List.pairwise_append.mp spread.apart).1

section

variable (like : Path → Path → Prop) (memory : Memory) (project : Project) (shadow : Path)
  (chain : List Transformer)

def isReadable (file : Path) : Bool :=
  (memory.read? file).isSome

/-- How far a store has come when some files of a project are transformed. -/
structure Progress (done : List Path) (outcome : Outcome) (current : Memory) : Prop where
  directory : current.directory = memory.directory
  sends : outcome.substitutions.Sends like (Path.shadowed shadow project.root)
    (done.filter (isReadable memory))
  written : ∀ file ∈ done, ∀ text, printed? memory project chain file = some text →
    current.read? (Path.shadowed shadow project.root file) = some text
  untouched : ∀ path, path.Settled → ¬ path.startsWith shadow →
    current.read? path = memory.read? path
  diagnostics : outcome.diagnostics = done.flatMap (reports memory project chain)

theorem progress_nil : Progress like memory project shadow chain [] .empty memory where
  directory := rfl
  sends := Substitutions.sends_empty
  written := nofun
  untouched _ _ _ := rfl
  diagnostics := rfl

end

section

variable {like : Path → Path → Prop} {memory current : Memory} {project : Project} {shadow : Path}
  {chain : List Transformer} {done rest : List Path} {outcome : Outcome} {file : Path}

theorem Progress.skip (progress : Progress like memory project shadow chain done outcome current)
    (missing : memory.read? file = none) :
    Progress like memory project shadow chain (done ++ [file]) outcome current := by
  have quiet : reports memory project chain file = [] := by
    rw [reports, transformed?, missing]
    rfl
  have unprinted : printed? memory project chain file = none := by
    rw [printed?, transformed?, missing]
    rfl
  obtain ⟨directory, sends, written, untouched, diagnostics⟩ := progress
  refine ⟨directory, ?_, ?_, untouched, ?_⟩
  · rw [List.filter_append, List.filter_cons_of_neg (by simp [isReadable, missing]),
      List.filter_nil, List.append_nil]
    exact sends
  · intro other found text printed
    rcases List.mem_append.mp found with before | here
    · exact written other before text printed
    · rw [List.mem_singleton.mp here, unprinted] at printed
      cases printed
  · rw [List.flatMap_append, List.flatMap_singleton, quiet, List.append_nil]
    exact diagnostics

theorem Progress.write (shadowSettled : shadow.Settled) (absolute : project.root.isAbsolute)
    (progress : Progress like memory project shadow chain done outcome current)
    (spread : Spread shadow project.root (done ++ [file])) {text : String}
    (read : memory.read? file = some text) {output : Script}
    (outputs : (transformText project.options chain file text).outputs = [output])
    (alike : like output.file file) :
    Progress like memory project shadow chain (done ++ [file])
      ((outcome.report (reports memory project chain file)).record output.file
        (Path.shadowed shadow project.root file))
      (current.write (Path.shadowed shadow project.root file) output.print) := by
  obtain ⟨directory, sends, written, untouched, diagnostics⟩ := progress
  have place : ∀ other, (Path.shadowed shadow project.root other).Settled :=
    Path.settled_shadowed shadowSettled absolute
  have last : file ∈ done ++ [file] := List.mem_append_right done List.mem_cons_self
  have readable : isReadable memory file = true := by rw [isReadable, read]; rfl
  refine ⟨directory, ?_, ?_, ?_, ?_⟩
  · rw [List.filter_append, List.filter_cons_of_pos readable, List.filter_nil]
    exact sends.push alike
  · intro other found wanted printed
    rw [current.read?_write_of_settled (place file) (place other)]
    rcases List.mem_append.mp found with before | here
    · have apart := (List.pairwise_append.mp spread.apart).2.2 other before file
        List.mem_cons_self
      rw [if_neg fun same => apart same.symm]
      exact written other before wanted printed
    · have same : other = file := List.mem_singleton.mp here
      subst same
      rw [if_pos (Path.Same.refl _), ← printed]
      simp [printed?, transformed?, read, outputs]
  · intro path settled outside
    rw [current.read?_write_of_settled (place file) settled, if_neg]
    · exact untouched path settled outside
    · intro same
      have inside := Path.startsWith_shadowed shadowSettled.isAbsolute absolute file
      rw [Path.startsWith_congr same shadow] at inside
      exact outside inside
  · rw [List.flatMap_append, List.flatMap_singleton, ← diagnostics]
    rfl

theorem run_writeOutput {root : Path} {script : Script}
    (fresh : outcome.substitutions.contains script.file = false) :
    memory.run (writeOutput Memory.fileSystem shadow root outcome script) =
      (outcome.record script.file (Path.shadowed shadow root script.file),
        memory.write (Path.shadowed shadow root script.file) script.print) := by
  simp only [writeOutput, fresh, Bool.false_eq_true, if_false]
  rfl

theorem progress_transformFile (likeness : Path.Likeness like) (shadowSettled : shadow.Settled)
    (absolute : project.root.isAbsolute)
    (progress : Progress like memory project shadow chain done outcome current)
    (spread : Spread shadow project.root (done ++ [file]))
    (keeps : KeepsFile like memory project chain file) :
    Progress like memory project shadow chain (done ++ [file])
      (current.run (transformFile Memory.fileSystem project shadow chain outcome file)).1
      (current.run (transformFile Memory.fileSystem project shadow chain outcome file)).2 := by
  have last : file ∈ done ++ [file] := List.mem_append_right done List.mem_cons_self
  have reads : current.read? file = memory.read? file :=
    progress.untouched file (spread.settled file last) (spread.outside file last)
  unfold transformFile
  rw [Memory.run_bind, Memory.run_read]
  simp only [reads]
  cases read : memory.read? file with
  | none => exact progress.skip read
  | some text =>
      obtain ⟨output, outputs, alike⟩ := keeps text read
      have fresh : (outcome.report (transformText project.options chain file
          text).reports).substitutions.contains output.file = false := by
        apply progress.sends.contains_eq_false likeness
        intro other found same
        have before := (List.mem_filter.mp found).1
        have apart := (List.pairwise_append.mp spread.pairwise).2.2 other before file
          List.mem_cons_self
        exact apart (same.trans (likeness.same alike))
      have target : Path.shadowed shadow project.root output.file =
          Path.shadowed shadow project.root file :=
        Path.shadowed_congr shadow project.root (likeness.same alike)
      have reported : reports memory project chain file =
          (transformText project.options chain file text).reports := by
        rw [reports, transformed?, read]
        rfl
      have step := progress.write shadowSettled absolute spread read outputs alike
      rw [reported] at step
      simp only [outputs, writeOutputs, Memory.run_bind, run_writeOutput fresh, target]
      exact step

/-- Transforming files one after another adds all of them to what is done. -/
theorem progress_transformFiles (likeness : Path.Likeness like) (shadowSettled : shadow.Settled)
    (absolute : project.root.isAbsolute)
    (progress : Progress like memory project shadow chain done outcome current)
    (spread : Spread shadow project.root (done ++ rest))
    (keeps : ∀ file ∈ rest, KeepsFile like memory project chain file) :
    Progress like memory project shadow chain (done ++ rest)
      (current.run (transformFiles Memory.fileSystem project shadow chain outcome rest)).1
      (current.run (transformFiles Memory.fileSystem project shadow chain outcome rest)).2 := by
  induction rest generalizing done outcome current with
  | nil =>
      rw [List.append_nil]
      exact progress
  | cons file rest ih =>
      obtain ⟨keepsFile, keepsRest⟩ := List.forall_mem_cons.mp keeps
      rw [List.append_cons] at spread ⊢
      have step := progress_transformFile likeness shadowSettled absolute progress spread.of_append
        keepsFile
      exact ih step spread keepsRest

end

end ShadowCheck.Shadow
