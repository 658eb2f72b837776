import ShadowCheck.Proofs.Project.Files

/-!
What an interpretation has from its document alone: its options, and all of its issues but
that of a project without files. That one stands alone, where nothing else is wrong with an
object that leaves no file.
-/

namespace ShadowCheck

namespace Project

/-! The issue of a project without files. -/

def Issue.isNoInputs (issue : Issue) : Bool :=
  issue.code == 18003

/-- Whether issues are about something else than the lack of files. -/
def Elsewhere (issues : List Issue) : Prop :=
  ∀ issue ∈ issues, issue.isNoInputs = false

theorem elsewhere_nil : Elsewhere [] := nofun

theorem elsewhere_singleton {issue : Issue} (other : issue.isNoInputs = false) :
    Elsewhere [issue] :=
  List.forall_mem_singleton.mpr other

theorem Elsewhere.append {first second : List Issue} (one : Elsewhere first)
    (two : Elsewhere second) : Elsewhere (first ++ second) :=
  List.forall_mem_append.mpr ⟨one, two⟩

theorem elsewhere_readOption (options : Options) (name : String) (value : Json.Value) :
    Elsewhere (readOption options name value).2 := by
  unfold readOption
  split
  · unfold readTarget
    split
    · exact elsewhere_singleton rfl
    · split
      · exact elsewhere_singleton rfl
      · exact elsewhere_nil
  split
  · unfold readAllowJs
    split
    · exact elsewhere_singleton rfl
    · exact elsewhere_nil
  · exact elsewhere_singleton rfl

theorem elsewhere_readOptions (options : Options) (fields : List (String × Json.Value)) :
    Elsewhere (readOptions options fields).2 := by
  induction fields generalizing options with
  | nil => exact elsewhere_nil
  | cons field rest ih =>
      obtain ⟨name, value⟩ := field
      exact (elsewhere_readOption options name value).append (ih _)

theorem elsewhere_readCompilerOptions (value? : Option Json.Value) :
    Elsewhere (readCompilerOptions value?).2 := by
  unfold readCompilerOptions
  split
  · exact elsewhere_nil
  · exact elsewhere_readOptions _ _
  · exact elsewhere_singleton rfl

theorem elsewhere_readStrings (option : String) (single : Bool) (value? : Option Json.Value) :
    Elsewhere (readStrings option single value?).2 := by
  unfold readStrings
  split
  · exact elsewhere_nil
  · split
    · exact elsewhere_nil
    · exact elsewhere_singleton rfl
  · split
    · exact elsewhere_nil
    · exact elsewhere_singleton rfl
  · exact elsewhere_singleton rfl

theorem elsewhere_ofFields (fields : List (String × Json.Value)) :
    Elsewhere (Settings.ofFields fields).2 :=
  (((elsewhere_readCompilerOptions _).append (elsewhere_readStrings _ _ _)).append
    (elsewhere_readStrings _ _ _)).append (elsewhere_readStrings _ _ _)

/-! What an interpretation has from its document. -/

/-- The issues of a document wherever its files are listed. -/
def Document.issues (document : Document) : List Issue :=
  match document.value.fields? with
  | none => [.notAnObject document.path]
  | some fields => (Settings.ofFields fields).2

theorem Document.elsewhere_issues (document : Document) : Elsewhere document.issues := by
  unfold Document.issues
  split
  · exact elsewhere_singleton rfl
  · exact elsewhere_ofFields _

theorem Document.isSome_fields? {document : Document} (quiet : document.issues = []) :
    document.value.fields?.isSome := by
  unfold Document.issues at quiet
  split at quiet
  · cases quiet
  · rename_i fields found
    rw [found]
    rfl

namespace Interpretation

def otherIssues (found : Interpretation) : List Issue :=
  found.issues.filter fun issue => !issue.isNoInputs

/-- Whether an interpretation says that it has no files. -/
def LacksInputs (found : Interpretation) : Prop :=
  ∃ issue ∈ found.issues, issue.isNoInputs

end Interpretation

variable (list : Path → Selection → List Path) (document : Document)

theorem options_interpretWith :
    (interpretWith list document).options = document.settings.options := by
  unfold interpretWith Document.settings
  cases document.value.fields? <;> rfl

theorem issues_interpretWith :
    (interpretWith list document).issues = document.issues ++
      if (interpretWith list document).files = [] ∧ document.issues = [] then
        [document.noInputs]
      else [] := by
  unfold interpretWith Document.issues Document.noInputs Document.settings
  cases fields : document.value.fields? with
  | none => simp
  | some found => simp [emptinessIssues]

theorem otherIssues_interpretWith :
    (interpretWith list document).otherIssues = document.issues := by
  have kept : document.issues.filter (fun issue => !issue.isNoInputs) = document.issues := by
    rw [List.filter_eq_self]
    intro issue found
    rw [document.elsewhere_issues issue found]
    rfl
  have dropped : [document.noInputs].filter (fun issue => !issue.isNoInputs) = [] := rfl
  rw [Interpretation.otherIssues, issues_interpretWith, List.filter_append, kept]
  split
  · rw [dropped, List.append_nil]
  · exact List.append_nil _

theorem lacksInputs_interpretWith_iff :
    (interpretWith list document).LacksInputs ↔
      (interpretWith list document).files = [] ∧ document.issues = [] := by
  unfold Interpretation.LacksInputs
  rw [issues_interpretWith]
  constructor
  · rintro ⟨issue, found, noInputs⟩
    rcases List.mem_append.mp found with own | added
    · rw [document.elsewhere_issues issue own] at noInputs
      cases noInputs
    · split at added
      · assumption
      · cases added
  · intro empty
    rw [if_pos empty]
    exact ⟨_, List.mem_append_right _ List.mem_cons_self, rfl⟩

/-- The issue of a project without files stands alone. -/
theorem issues_eq_noInputs_iff :
    (interpretWith list document).issues = [document.noInputs] ↔
      (interpretWith list document).LacksInputs := by
  constructor
  · intro alone
    exact ⟨document.noInputs, alone ▸ List.mem_cons_self, rfl⟩
  · intro lacks
    have empty := (lacksInputs_interpretWith_iff list document).mp lacks
    rw [issues_interpretWith, if_pos empty, empty.2, List.nil_append]

theorem lacksInputs_interpretWith_iff_of_others :
    (interpretWith list document).LacksInputs ↔
      (interpretWith list document).files = [] ∧ document.value.fields?.isSome ∧
        (interpretWith list document).otherIssues = [] := by
  rw [lacksInputs_interpretWith_iff, otherIssues_interpretWith]
  constructor
  · rintro ⟨empty, quiet⟩
    exact ⟨empty, Document.isSome_fields? quiet, quiet⟩
  · rintro ⟨empty, -, quiet⟩
    exact ⟨empty, quiet⟩

section

variable {list : Path → Selection → List Path} {document : Document}
  {project : ShadowCheck.Project}

theorem issues_of_projectOf
    (resolved : Recheck.projectOf document (interpretWith list document) = .ok project) :
    document.issues = [] := by
  unfold Recheck.projectOf at resolved
  split at resolved
  · rename_i quiet
    rw [List.isEmpty_iff, issues_interpretWith, List.append_eq_nil_iff] at quiet
    exact quiet.1
  · cases resolved

theorem options_of_projectOf
    (resolved : Recheck.projectOf document (interpretWith list document) = .ok project) :
    project.options = document.settings.options := by
  have described := projectOf_interpretWith resolved list
  rw [resolved, if_neg (filesWith_ne_nil_of_projectOf resolved)] at described
  rw [Except.ok.inj described]

/-- A document that described a project has issues elsewhere just when no file is left. -/
theorem issues_interpretWith_ne_nil_iff
    (resolved : Recheck.projectOf document (interpretWith list document) = .ok project)
    (other : Path → Selection → List Path) :
    (interpretWith other document).issues ≠ [] ↔
      filesWith other document.root document.settings = [] := by
  have quiet := issues_of_projectOf resolved
  rw [issues_interpretWith, files_interpretWith other (Document.isSome_fields? quiet), quiet,
    List.nil_append]
  split
  · rename_i empty
    exact iff_of_true (List.cons_ne_nil _ _) empty.1
  · rename_i files
    exact iff_of_false (not_not_intro rfl) fun empty => files ⟨empty, rfl⟩

end

end Project

end ShadowCheck
