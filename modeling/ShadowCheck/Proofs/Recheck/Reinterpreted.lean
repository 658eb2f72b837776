import ShadowCheck.Proofs.Project.Issues
import ShadowCheck.Proofs.Recheck.Reported

/-!
The second interpretation of a run. It has the options of the first one, and it fails only
where neither the document nor what was recorded leaves it a file.
-/

namespace ShadowCheck.Recheck

open Project

section

variable {σ : Type} {store : FileSystem (StateM σ)} {state current : σ} {config : Path}
  {begun : Start}

/-- What the document of a run is interpreted as once its outputs stand for its files. -/
def Start.again (begun : Start) (store : FileSystem (StateM σ)) (current : σ)
    (chain : List Transformer) : Interpretation :=
  let stage := perform current
    (Shadow.transformProject store begun.project begun.shadow chain)
  (perform stage.2 (interpret (stage.1.substitutions.overlay store) begun.document)).1

theorem Start.again_eq (begun : Start) (store : FileSystem (StateM σ)) (current : σ)
    (chain : List Transformer) :
    begun.again store current chain = interpretWith (fun _ _ =>
      (perform current (Shadow.transformProject store begun.project begun.shadow
        chain)).1.substitutions.sources) begun.document := by
  rw [Start.again, fst_perform_interpret]
  rfl

theorem entries_transformProject_eq_nil_iff (store : FileSystem (StateM σ)) (current : σ)
    (job : Shadow.Job) :
    (perform current (Shadow.transformProject store job.project job.shadow
      job.chain)).1.substitutions.entries = [] ↔
        Shadow.recorded (perform current (job.events store)).1 = [] := by
  rw [job.transformProject_eq, perform_map, job.entries_after, List.map_eq_nil_iff]

theorem options_again (started : perform state (start store config) = (.ok begun, current))
    (chain : List Transformer) :
    (begun.again store current chain).options = begun.project.options := by
  obtain ⟨loaded, resolved⟩ := exists_resolved_of_start started
  rw [fst_perform_resolveDocument] at resolved
  rw [Start.again_eq, options_interpretWith, options_of_projectOf resolved]

theorem issues_again_ne_nil_iff
    (started : perform state (start store config) = (.ok begun, current))
    (chain : List Transformer) :
    (begun.again store current chain).issues ≠ [] ↔
      begun.document.namedFiles = [] ∧
        (perform current (Shadow.transformProject store begun.project begun.shadow
          chain)).1.substitutions.entries = [] := by
  obtain ⟨loaded, resolved⟩ := exists_resolved_of_start started
  rw [fst_perform_resolveDocument] at resolved
  rw [Start.again_eq, issues_interpretWith_ne_nil_iff resolved,
    filesWith_eq_nil_iff (filesWith_ne_nil_of_projectOf resolved),
    Substitutions.sources_eq_nil_iff]
  rfl

/-- A run that got as far as its shadow directory fails just when its second interpretation
does. -/
theorem execute_fails_iff
    (started : perform state (start store config) = (.ok begun, current)) (keepShadow : Bool)
    (chain : List Transformer) :
    (∃ failure, (perform state (execute store keepShadow config chain)).1 = .error failure) ↔
      (begun.again store current chain).issues ≠ [] := by
  have recorded := entries_transformProject_eq_nil_iff store current (begun.job chain)
  obtain ⟨diagnostics, ran⟩ := exists_fst_perform_execute started keepShadow chain
  rw [issues_again_ne_nil_iff started, ran]
  split
  · rename_i lost
    exact iff_of_true ⟨_, rfl⟩ ⟨lost.1, recorded.mpr lost.2⟩
  · rename_i kept
    refine iff_of_false (by rintro ⟨failure, failed⟩; cases failed) fun both => ?_
    exact kept ⟨both.1, recorded.mp both.2⟩

end

/-- Interpretations of one document differ in nothing but files and the issue of having
none, which stands alone. So a run that got past its first interpretation has the same
options in the second one, and fails just when the document names no file and nothing was
recorded. -/
theorem interpretations_agree :
    (∀ (document : Document) {σ τ : Type} (store : FileSystem (StateM σ)) (state : σ)
        (other : FileSystem (StateM τ)) (later : τ),
      let first := (perform state (interpret store document)).1
      let second := (perform later (interpret other document)).1
      first.options = second.options ∧
      first.otherIssues = second.otherIssues ∧
      (first.LacksInputs ↔ first.issues = [document.noInputs]) ∧
      (first.LacksInputs ↔
        first.files = [] ∧ document.value.fields?.isSome ∧ first.otherIssues = [])) ∧
    ∀ {σ : Type} (store : FileSystem (StateM σ)) (state current : σ) (config : Path)
        (begun : Start),
      perform state (start store config) = (.ok begun, current) →
      ∀ (keepShadow : Bool) (chain : List Transformer),
        let stage := perform current
          (Shadow.transformProject store begun.project begun.shadow chain)
        let again := (perform stage.2
          (interpret (stage.1.substitutions.overlay store) begun.document)).1
        again.options = begun.project.options ∧
        (again.issues ≠ [] ↔
          begun.document.namedFiles = [] ∧ stage.1.substitutions.entries = []) ∧
        ((∃ failure, (perform state (execute store keepShadow config chain)).1 =
          .error failure) ↔ again.issues ≠ []) := by
  constructor
  · intro document σ τ store state other later first second
    have one : first = _ := fst_perform_interpret store state document
    have two : second = _ := fst_perform_interpret other later document
    rw [one, two]
    refine ⟨?_, ?_, (issues_eq_noInputs_iff _ _).symm,
      lacksInputs_interpretWith_iff_of_others _ _⟩
    · rw [options_interpretWith, options_interpretWith]
    · rw [otherIssues_interpretWith, otherIssues_interpretWith]
  · intro σ store state current config begun started keepShadow chain
    exact ⟨options_again started chain, issues_again_ne_nil_iff started chain,
      execute_fails_iff started keepShadow chain⟩

/-- A document that names no file, on a store that refuses the only write. -/
theorem interpretations_agree_refusing :
    let store := refusing [⟨"/tmp/recheck-shadow-0/a.ts"⟩]
    ∃ begun current,
      perform listedMemory (start store ⟨"tsconfig.json"⟩) = (.ok begun, current) ∧
      (begun.again store current []).options = begun.project.options ∧
      ∃ failure,
        (perform listedMemory (execute store false ⟨"tsconfig.json"⟩ [])).1 = .error failure := by
  intro store
  have lost : (match perform listedMemory (start store ⟨"tsconfig.json"⟩) with
      | (.ok begun, current) => decide (begun.document.namedFiles = [] ∧
          (perform current (Shadow.transformProject store begun.project begun.shadow
            [])).1.substitutions.entries = [])
      | (.error _, _) => false) = true := by
    decide +kernel
  generalize started : perform listedMemory (start store ⟨"tsconfig.json"⟩) = first at lost
  obtain ⟨failure | begun, current⟩ := first
  · cases lost
  · obtain ⟨options, fails, ends⟩ :=
      interpretations_agree.2 store listedMemory current _ begun started false []
    exact ⟨begun, current, rfl, options, ends.mpr (fails.mpr (of_decide_eq_true lost))⟩

end ShadowCheck.Recheck
