import ShadowCheck.Proofs.Project.Files
import ShadowCheck.Proofs.Transform.Events
import ShadowCheck.Recheck.Run
import ShadowCheck.Store.Faults
import ShadowCheck.Store.Memory
import ShadowCheck.Transform.Edit

/-!
What becomes of the diagnostics from transforming, on any store. A run that got
as far as its shadow directory gives them all in its report, unless no output was
recorded and the document names no file: then the second interpretation finds no
files, and its issue is all that the run gives.
-/

namespace ShadowCheck

theorem Substitutions.sources_eq_nil_iff (table : Substitutions) :
    table.sources = [] ↔ table.entries = [] := by
  rw [sources_eq]
  cases table.entries with
  | nil => exact iff_of_true rfl rfl
  | cons entry rest => exact iff_of_false (List.cons_ne_nil _ _) (List.cons_ne_nil _ _)

theorem Shadow.Job.sources_after_eq_nil_iff (job : Job) (events : List Event) :
    (job.after .empty events).substitutions.sources = [] ↔ recorded events = [] := by
  rw [Substitutions.sources_eq_nil_iff, entries_after, List.map_eq_nil_iff]

namespace Recheck

open Project

/-- What a run works on once nothing but an interpretation can end it. -/
structure Start where
  document : Document
  project : ShadowCheck.Project
  shadow : Path

def Start.job (begun : Start) (chain : List Transformer) : Shadow.Job :=
  ⟨begun.project, begun.shadow, chain⟩

section

variable {m : Type → Type} [Monad m] (store : FileSystem m)

/-- The part of a run before any file is transformed. -/
def start (config : Path) : m (Except Failure Start) := do
  match ← loadDocument store config with
  | .error failure => return .error failure
  | .ok document =>
      match ← resolveDocument store document with
      | .error failure => return .error failure
      | .ok project =>
          match ← store.makeTemporary with
          | .error error => return .error (.noShadow error)
          | .ok shadow => return .ok ⟨document, project, shadow⟩

theorem execute_eq_start [LawfulMonad m] (keepShadow : Bool) (config : Path)
    (chain : List Transformer) :
    execute store keepShadow config chain = (do
      match ← start store config with
      | .error failure => return .error failure
      | .ok begun =>
          executeIn store keepShadow begun.document begun.project chain begun.shadow) := by
  unfold execute start
  rw [bind_assoc]
  congr 1
  funext loaded
  cases loaded with
  | error failure => simp only [pure_bind]
  | ok document =>
      simp only [bind_assoc]
      congr 1
      funext resolved
      cases resolved with
      | error failure => simp only [pure_bind]
      | ok project =>
          simp only [bind_assoc]
          congr 1
          funext made
          cases made <;> simp only [pure_bind]

end

section

variable {σ : Type} (store : FileSystem (StateM σ)) (state : σ)

theorem fst_perform_checkDocument (document : Document) :
    let resolved := perform state (resolveDocument store document)
    (perform state (checkDocument store document)).1 =
      resolved.1.map fun project => (perform resolved.2 (checkProject store project)).1 := by
  intro resolved
  unfold checkDocument
  rw [perform_bind]
  change (perform resolved.2 (match resolved.1 with | .error failure => _ | .ok project => _)).1 = _
  cases resolved.1 <;> rfl

/-- What a run gives once it has a shadow directory: what was recorded and reported
while files were transformed, if a project can still be made of the document. -/
theorem exists_fst_perform_executeIn (keepShadow : Bool) (document : Document)
    (job : Shadow.Job) :
    let outcome := job.after .empty (perform state (job.events store)).1
    ∃ check : ShadowCheck.Project → List Diagnostic,
      (perform state
        (executeIn store keepShadow document job.project job.chain job.shadow)).1 =
        (projectOf document
          (interpretWith (fun _ _ => outcome.substitutions.sources) document)).map fun project =>
            ⟨job.shadow, outcome.substitutions, outcome.diagnostics, check project⟩ := by
  intro outcome
  have stage : (perform state
      (Shadow.transformProject store job.project job.shadow job.chain)).1 = outcome := by
    rw [job.transformProject_eq]
    rfl
  unfold executeIn
  rw [perform_bind, stage, perform_bind]
  generalize (perform state (Shadow.transformProject store job.project job.shadow job.chain)).2
    = later
  rw [fst_perform_checkDocument, fst_perform_resolveDocument]
  refine ⟨fun project => (perform (perform later (resolveDocument
    (outcome.substitutions.overlay store) document)).2 (checkProject
      (outcome.substitutions.overlay store) project)).1, ?_⟩
  change Except.map _ (Except.map _ (projectOf document
    (interpretWith (fun _ _ => outcome.substitutions.sources) document))) = _
  cases projectOf document (interpretWith (fun _ _ => outcome.substitutions.sources) document) <;>
    rfl

end

section

variable {σ : Type} {store : FileSystem (StateM σ)} {state current : σ} {config : Path}
  {begun : Start}

theorem exists_resolved_of_start
    (started : perform state (start store config) = (.ok begun, current)) :
    ∃ loaded, (perform loaded (resolveDocument store begun.document)).1 = .ok begun.project := by
  unfold start at started
  rw [perform_bind] at started
  generalize perform state (loadDocument store config) = first at started
  obtain ⟨failure | document, loaded⟩ := first
  · cases started
  · refine ⟨loaded, ?_⟩
    dsimp only at started
    rw [perform_bind] at started
    cases resolved : (perform loaded (resolveDocument store document)).1 with
    | error failure =>
        rw [resolved] at started
        cases started
    | ok project =>
        rw [resolved] at started
        dsimp only at started
        rw [perform_bind] at started
        generalize perform (perform loaded (resolveDocument store document)).2
          store.makeTemporary = made at started
        obtain ⟨error | shadow, after⟩ := made
        · cases started
        · cases started
          exact resolved

theorem fst_perform_execute_of_start
    (started : perform state (start store config) = (.ok begun, current)) (keepShadow : Bool)
    (chain : List Transformer) :
    (perform state (execute store keepShadow config chain)).1 =
      (perform current (executeIn store keepShadow begun.document begun.project chain
        begun.shadow)).1 := by
  rw [execute_eq_start, perform_bind, started]

/-- How a run ends that got as far as its shadow directory. -/
theorem exists_fst_perform_execute
    (started : perform state (start store config) = (.ok begun, current)) (keepShadow : Bool)
    (chain : List Transformer) :
    let job := begun.job chain
    let events := (perform current (job.events store)).1
    ∃ diagnostics,
      (perform state (execute store keepShadow config chain)).1 =
        if begun.document.namedFiles = [] ∧ Shadow.recorded events = [] then
          .error (.configInvalid [begun.document.noInputs.diagnostic])
        else .ok ⟨begun.shadow, (job.after .empty events).substitutions,
          events.flatMap job.diagnostics, diagnostics⟩ := by
  intro job events
  obtain ⟨loaded, resolved⟩ := exists_resolved_of_start started
  rw [fst_perform_resolveDocument] at resolved
  -- the second interpretation finds the named files and the sources of the table
  have empty := filesWith_eq_nil_iff (filesWith_ne_nil_of_projectOf resolved)
    (job.after .empty events).substitutions.sources
  rw [job.sources_after_eq_nil_iff] at empty
  obtain ⟨check, ran⟩ :=
    exists_fst_perform_executeIn store current keepShadow begun.document job
  rw [projectOf_interpretWith resolved] at ran
  change (perform current (executeIn store keepShadow begun.document begun.project chain
    begun.shadow)).1 = _ at ran
  rw [fst_perform_execute_of_start started keepShadow chain]
  by_cases lost : begun.document.namedFiles = [] ∧ Shadow.recorded events = []
  · rw [if_pos (empty.mpr lost)] at ran
    exact ⟨[], ran.trans (if_pos lost).symm⟩
  · rw [if_neg (mt empty.mp lost)] at ran
    exact ⟨_, ran.trans (if_neg lost).symm⟩

/-- Whether a run that gets as far as its shadow directory ends in a report that
has all diagnostics of its events. -/
def ReportsAll (store : FileSystem (StateM σ)) (keepShadow : Bool) (config : Path)
    (chain : List Transformer) (state : σ) : Prop :=
  ∀ begun current, perform state (start store config) = (.ok begun, current) →
    ∃ report, (perform state (execute store keepShadow config chain)).1 = .ok report ∧
      ∀ event ∈ (perform current ((begun.job chain).events store)).1,
        ∀ diagnostic ∈ (begun.job chain).diagnostics event, diagnostic ∈ report.allDiagnostics

/-- No diagnostic is lost exactly when the document names a file or an output was
recorded. -/
theorem reportsAll_iff (started : perform state (start store config) = (.ok begun, current))
    (keepShadow : Bool) (chain : List Transformer) :
    ReportsAll store keepShadow config chain state ↔
      begun.document.namedFiles ≠ [] ∨
        Shadow.recorded (perform current ((begun.job chain).events store)).1 ≠ [] := by
  obtain ⟨diagnostics, ran⟩ := exists_fst_perform_execute started keepShadow chain
  rw [← not_and_or]
  constructor
  · intro all lost
    obtain ⟨report, ok, -⟩ := all begun current started
    rw [ran, if_pos lost] at ok
    cases ok
  · intro kept other later restarted
    -- a run begins in one way only
    obtain ⟨same, rfl⟩ := Prod.mk.inj (started.symm.trans restarted)
    cases same
    rw [if_neg kept] at ran
    refine ⟨_, ran, ?_⟩
    intro event happened diagnostic found
    apply List.mem_append_left
    exact List.mem_flatMap.mpr ⟨event, happened, found⟩

end

/-! A document that names no file, on a store where some writes are refused. -/

def listedMemory : Memory :=
  Memory.ofEntries ⟨"/root"⟩ [⟨⟨"tsconfig.json"⟩, "\x7b\x7d"⟩, ⟨⟨"a.ts"⟩, "let a = 1"⟩]

def refusing (paths : List Path) : FileSystem (StateM Memory) :=
  Faults.guard ⟨[], paths, [], false, false⟩ Memory.fileSystem

theorem reportsAll_iff_refusing :
    let store := refusing [⟨"/tmp/recheck-shadow-0/a.ts"⟩]
    let chain := [Edit.transformer (.copy "x" "y")]
    ∃ begun current,
      perform listedMemory (start store ⟨"tsconfig.json"⟩) = (.ok begun, current) ∧
      ReportsAll store false ⟨"tsconfig.json"⟩ chain listedMemory := by
  intro store chain
  have kept : (match perform listedMemory (start store ⟨"tsconfig.json"⟩) with
      | (.ok begun, current) => decide
          (Shadow.recorded (perform current ((begun.job chain).events store)).1 ≠ [])
      | (.error _, _) => false) = true := by
    decide +kernel
  generalize started : perform listedMemory (start store ⟨"tsconfig.json"⟩) = first at kept
  obtain ⟨failure | begun, current⟩ := first
  · cases kept
  · refine ⟨begun, current, rfl, ?_⟩
    rw [reportsAll_iff started]
    exact .inr (of_decide_eq_true kept)

/-- Where every write is refused, the diagnostics of these writes are lost. -/
theorem not_reportsAll_refusing :
    ¬ ReportsAll (refusing [⟨"/tmp/recheck-shadow-0/a.ts"⟩]) false ⟨"tsconfig.json"⟩ []
      listedMemory := by
  let store := refusing [⟨"/tmp/recheck-shadow-0/a.ts"⟩]
  have begins : (perform listedMemory (start store ⟨"tsconfig.json"⟩)).1.toOption.isSome := by
    decide +kernel
  have fails : (perform listedMemory (execute store false ⟨"tsconfig.json"⟩ [])).1.toOption =
      none := by
    decide +kernel
  intro all
  generalize started : perform listedMemory (start store ⟨"tsconfig.json"⟩) = first at begins
  obtain ⟨failure | begun, current⟩ := first
  · cases begins
  · obtain ⟨report, ran, -⟩ := all begun current started
    rw [ran] at fails
    cases fails

end Recheck

end ShadowCheck
