import ShadowCheck.Proofs.Path.Names
import ShadowCheck.Proofs.Program.Agreement
import ShadowCheck.Proofs.Project.Files
import ShadowCheck.Recheck.Run

/-!
The steps of a run on a store in memory. Loading, resolving and checking leave
the store as it is, and give what its listings and its texts determine.
-/

namespace ShadowCheck.Recheck

open Project

/-! Loading. -/

theorem settled_rootOf {path : Path} (settled : path.Settled) : (Document.rootOf path).Settled := by
  unfold Document.rootOf
  cases found : path.parent? with
  | none => exact ⟨[], by decide, nofun⟩
  | some parent => exact settled.parent? found

section

variable {σ : Type} {store : FileSystem (StateM σ)} {memory : σ → Memory}

/-- Loading a document changes nothing, and the document is where it was looked for. -/
theorem perform_loadDocument (backs : Memory.Backs memory store) (state : σ) (config : Path) :
    ∃ loaded, perform state (loadDocument store config) = (loaded, state) ∧
      ∀ document, loaded = .ok document →
        document.path = (memory state).directory.resolve config := by
  unfold loadDocument
  rw [perform_bind, backs.directory]
  dsimp only
  rw [perform_bind, backs.holds]
  dsimp only
  by_cases held : (memory state).holds ((memory state).directory.resolve config) = true
  · rw [if_pos held]
    rw [perform_bind, backs.read]
    dsimp only
    cases (memory state).read? ((memory state).directory.resolve config) with
    | none => exact ⟨.error (.configUnreadable _), rfl, nofun⟩
    | some text =>
        dsimp only
        cases readText ((memory state).directory.resolve config) text with
        | error diagnostic => exact ⟨.error (.configMalformed _ diagnostic), rfl, nofun⟩
        | ok value =>
            refine ⟨.ok ⟨(memory state).directory.resolve config, value⟩, rfl, ?_⟩
            rintro document ⟨rfl⟩
            rfl
  · rw [if_neg held]
    exact ⟨.error (.configNotFound config), rfl, nofun⟩

end

theorem run_loadDocument (memory : Memory) (config : Path) :
    ∃ loaded, memory.run (loadDocument Memory.fileSystem config) = (loaded, memory) ∧
      ∀ document, loaded = .ok document → document.path = memory.directory.resolve config :=
  perform_loadDocument Memory.backs_fileSystem memory config

theorem isAbsolute_root_of_loadDocument {memory : Memory} (sound : memory.Sound) {config : Path}
    {document : Document}
    (loaded : (memory.run (loadDocument Memory.fileSystem config)).1 = .ok document) :
    document.root.isAbsolute := by
  obtain ⟨outcome, ran, found⟩ := run_loadDocument memory config
  rw [ran] at loaded
  unfold Document.root
  rw [found document loaded]
  exact (settled_rootOf (sound.settled_locate config)).isAbsolute

theorem exists_document_of_resolve {memory : Memory} {config : Path}
    {project : ShadowCheck.Project}
    (resolved : (memory.run (resolve Memory.fileSystem config)).1 = .ok project) :
    ∃ document, (memory.run (loadDocument Memory.fileSystem config)).1 = .ok document ∧
      (memory.run (resolveDocument Memory.fileSystem document)).1 = .ok project := by
  obtain ⟨outcome, ran, -⟩ := run_loadDocument memory config
  unfold resolve at resolved
  rw [Memory.run_bind, ran] at resolved
  rw [ran]
  cases outcome with
  | error failure => cases resolved
  | ok document => exact ⟨document, rfl, resolved⟩

/-! A store to run on: one file that is named, one that is listed, and one that
is named but not there. -/

def sampleMemory : Memory :=
  Memory.ofEntries ⟨"/work"⟩
    [⟨⟨"tsconfig.json"⟩, "\x7b\"files\": [\"b.ts\", \"c.ts\"], \"include\": [\"a*\"]\x7d"⟩,
      ⟨⟨"a.ts"⟩, "const a: number = b"⟩, ⟨⟨"b.ts"⟩, "let b = 'x'"⟩]

def sampleProject : ShadowCheck.Project :=
  ⟨⟨"/work/tsconfig.json"⟩, ⟨"/work"⟩, [⟨"/work/b.ts"⟩, ⟨"/work/c.ts"⟩, ⟨"/work/a.ts"⟩],
    .default⟩

theorem eq_ok_of_toOption {α : Type} {outcome : Except Failure α} {value : α}
    (found : outcome.toOption = some value) : outcome = .ok value := by
  cases outcome with
  | error failure => cases found
  | ok other => exact congrArg _ (Option.some.inj found)

theorem resolve_sampleMemory :
    (sampleMemory.run (resolve Memory.fileSystem ⟨"tsconfig.json"⟩)).1 = .ok sampleProject :=
  eq_ok_of_toOption (by decide +kernel)

/-! Checking. -/

/-- The diagnostics of a project where `read?` gives the texts. -/
def diagnosticsWith (read? : Path → Option String) (project : ShadowCheck.Project) :
    List Diagnostic :=
  Program.diagnostics (project.files.filterMap (Program.scriptOf read? project.options.target))

theorem diagnosticsWith_congr {first second : Path → Option String}
    {project : ShadowCheck.Project}
    (same : ∀ file ∈ project.files, Program.scriptOf first project.options.target file =
      Program.scriptOf second project.options.target file) :
    diagnosticsWith first project = diagnosticsWith second project := by
  unfold diagnosticsWith
  rw [List.filterMap_congr same]

section

variable {σ : Type} {store : FileSystem (StateM σ)} {state : σ}
  {list : Path → Selection → List Path} {read? : Path → Option String}

theorem perform_checkProject
    (reads : ∀ path, perform state (store.read path) = (read? path, state))
    (project : ShadowCheck.Project) :
    perform state (checkProject store project) = (diagnosticsWith read? project, state) := by
  unfold checkProject
  rw [perform_bind, Program.perform_load reads]
  rfl

theorem perform_checkDocument
    (lists : ∀ root selection, perform state (store.list root selection) =
      (list root selection, state))
    (reads : ∀ path, perform state (store.read path) = (read? path, state))
    (document : Document) :
    perform state (checkDocument store document) =
      ((projectOf document (interpretWith list document)).map (diagnosticsWith read?),
        state) := by
  unfold checkDocument
  rw [perform_bind, perform_resolveDocument lists]
  cases projectOf document (interpretWith list document) with
  | error failure => rfl
  | ok project =>
      simp only [perform_bind, perform_checkProject reads]
      rfl

end

section

variable {store : FileSystem (StateM Memory)} {memory : Memory}
  {list : Path → Selection → List Path} {read? : Path → Option String}

theorem run_checkProject
    (reads : ∀ path, memory.run (store.read path) = (read? path, memory))
    (project : ShadowCheck.Project) :
    memory.run (checkProject store project) = (diagnosticsWith read? project, memory) :=
  perform_checkProject reads project

theorem run_checkDocument
    (lists : ∀ root selection, memory.run (store.list root selection) =
      (list root selection, memory))
    (reads : ∀ path, memory.run (store.read path) = (read? path, memory))
    (document : Document) :
    memory.run (checkDocument store document) =
      ((projectOf document (interpretWith list document)).map (diagnosticsWith read?), memory) :=
  perform_checkDocument lists reads document

end

/-! Runs. -/

theorem run_executeIn (memory : Memory) (keepShadow : Bool) (document : Document)
    (project : ShadowCheck.Project) (chain : List Transformer) (shadow : Path) :
    let transformed := memory.run (Shadow.transformProject Memory.fileSystem project shadow chain)
    (memory.run (executeIn Memory.fileSystem keepShadow document project chain shadow)).1 =
      (transformed.2.run (checkDocument
        (transformed.1.substitutions.overlay Memory.fileSystem) document)).1.map
          fun diagnostics => ⟨shadow, transformed.1.substitutions, transformed.1.diagnostics,
            diagnostics⟩ := rfl

theorem run_execute {memory : Memory} {config : Path} {document : Document}
    {project : ShadowCheck.Project}
    (loaded : (memory.run (loadDocument Memory.fileSystem config)).1 = .ok document)
    (resolved : (memory.run (resolveDocument Memory.fileSystem document)).1 = .ok project)
    (keepShadow : Bool) (chain : List Transformer) :
    memory.run (execute Memory.fileSystem keepShadow config chain) =
      memory.makeTemporary.2.run (executeIn Memory.fileSystem keepShadow document project chain
        memory.makeTemporary.1) := by
  obtain ⟨outcome, ran, -⟩ := run_loadDocument memory config
  rw [ran] at loaded
  rw [run_resolveDocument_fileSystem] at resolved
  dsimp only at loaded resolved
  unfold execute
  rw [Memory.run_bind, ran, loaded]
  dsimp only
  rw [Memory.run_bind, run_resolveDocument_fileSystem, resolved]
  dsimp only
  rw [Memory.run_bind, Memory.run_makeTemporary]

end ShadowCheck.Recheck
