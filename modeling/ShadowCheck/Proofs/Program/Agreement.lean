import Mathlib.Data.List.Forall2
import ShadowCheck.Program.Load
import ShadowCheck.Proofs.Store.Backed

/-!
Programs that agree up to the spelling of their files. They have the same scope,
so they give the same diagnostics, located in the spellings of each.
-/

namespace ShadowCheck

variable {like : Path → Path → Prop}

inductive Location.Agrees (like : Path → Path → Prop) : Location → Location → Prop
  | project : Agrees like .project .project
  | file {left right : Path} (alike : like left right) : Agrees like (.file left) (.file right)
  | spot {left right : Path} (alike : like left right) (position : Position) :
      Agrees like (.spot left position) (.spot right position)

structure Diagnostic.Agrees (like : Path → Path → Prop) (left right : Diagnostic) : Prop where
  location : left.location.Agrees like right.location
  severity : left.severity = right.severity
  code : left.code = right.code
  message : left.message = right.message

/-- Two diagnostics that are equal when paths are compared by their components. -/
def Diagnostic.Same (left right : Diagnostic) : Prop :=
  Diagnostic.Agrees Path.Same left right

def Location.mapFile (change : Path → Path) : Location → Location
  | .project => .project
  | .file path => .file (change path)
  | .spot path position => .spot (change path) position

/-- A diagnostic with another file in the place of its own. -/
def Diagnostic.mapFile (change : Path → Path) (diagnostic : Diagnostic) : Diagnostic :=
  { diagnostic with location := diagnostic.location.mapFile change }

theorem Location.Agrees.eq_mapFile {change : Path → Path} {left right : Location}
    (agrees : left.Agrees (fun path file => path = change file) right) :
    left = right.mapFile change := by
  cases agrees with
  | project => rfl
  | file alike => rw [alike, mapFile]
  | spot alike position => rw [alike, mapFile]

theorem Diagnostic.Agrees.eq_mapFile {change : Path → Path} {left right : Diagnostic}
    (agrees : left.Agrees (fun path file => path = change file) right) :
    left = right.mapFile change := by
  rw [Diagnostic.mk.injEq]
  exact ⟨agrees.location.eq_mapFile, agrees.severity, agrees.code, agrees.message⟩

theorem eq_map_of_forall₂_agrees {change : Path → Path} {left right : List Diagnostic}
    (agree : List.Forall₂ (Diagnostic.Agrees fun path file => path = change file) left right) :
    left = right.map (Diagnostic.mapFile change) := by
  induction agree with
  | nil => rfl
  | cons head tail ih => rw [List.map_cons, head.eq_mapFile, ih]

theorem Diagnostic.mapFile_id (diagnostic : Diagnostic) : diagnostic.mapFile id = diagnostic := by
  obtain ⟨location, severity, code, message⟩ := diagnostic
  cases location <;> rfl

theorem eq_of_forall₂_agrees {left right : List Diagnostic}
    (agree : List.Forall₂ (Diagnostic.Agrees Eq) left right) : left = right := by
  have same : left = right.map (Diagnostic.mapFile id) := eq_map_of_forall₂_agrees agree
  rw [same, List.map_congr_left fun diagnostic _ => diagnostic.mapFile_id, List.map_id']

structure Script.Agrees (like : Path → Path → Prop) (left right : Script) : Prop where
  file : like left.file right.file
  declarations : left.declarations = right.declarations
  findings : left.findings = right.findings

namespace Program

theorem scope_congr {left right : List Script}
    (agree : List.Forall₂ (Script.Agrees like) left right) : scope left = scope right := by
  induction agree with
  | nil => rfl
  | cons head tail ih =>
      simp only [scope, List.flatMap_cons] at ih ⊢
      rw [head.declarations, ih]

theorem forall₂_map_diagnostic {α : Type} {report : Path → Finding α → Diagnostic}
    (located : ∀ left right finding, like left right →
      (report left finding).Agrees like (report right finding))
    {left right : Path} (alike : like left right) (findings : List (Finding α)) :
    List.Forall₂ (Diagnostic.Agrees like) (findings.map (report left))
      (findings.map (report right)) := by
  induction findings with
  | nil => exact .nil
  | cons finding rest ih => exact .cons (located left right finding alike) ih

theorem agrees_typeIssue {left right : Path} (finding : Finding TypeIssue)
    (alike : like left right) :
    (TypeIssue.diagnostic left finding).Agrees like (TypeIssue.diagnostic right finding) :=
  ⟨.spot alike finding.position, rfl, rfl, rfl⟩

theorem agrees_syntaxIssue {left right : Path} (finding : Finding Script.SyntaxIssue)
    (alike : like left right) :
    (Script.SyntaxIssue.diagnostic left finding).Agrees like
      (Script.SyntaxIssue.diagnostic right finding) :=
  ⟨.spot alike finding.position, rfl, rfl, rfl⟩

/-- Programs that agree give diagnostics that agree, in the same order. -/
theorem agrees_diagnostics {left right : List Script}
    (agree : List.Forall₂ (Script.Agrees like) left right) :
    List.Forall₂ (Diagnostic.Agrees like) (diagnostics left) (diagnostics right) := by
  have scopes := scope_congr agree
  refine List.rel_append ?_ ?_
  · unfold semanticDiagnostics
    rw [scopes]
    apply List.rel_flatMap agree
    intro first second alike
    have same : scriptIssues (scope right) first = scriptIssues (scope right) second := by
      rw [scriptIssues, alike.declarations, scriptIssues]
    dsimp only
    rw [same]
    exact forall₂_map_diagnostic (fun _ _ finding => agrees_typeIssue finding) alike.file _
  · apply List.rel_flatMap agree
    intro first second alike
    dsimp only
    rw [Script.diagnostics, Script.diagnostics, alike.findings]
    exact forall₂_map_diagnostic (fun _ _ finding => agrees_syntaxIssue finding) alike.file _

/-! Programs as they are read. -/

def scriptOf (read? : Path → Option String) (edition : Edition) (file : Path) : Option Script :=
  (read? file).map (Script.parse file edition)

theorem perform_load {σ : Type} {store : FileSystem (StateM σ)} {state : σ}
    {read? : Path → Option String}
    (reads : ∀ path, perform state (store.read path) = (read? path, state)) (edition : Edition)
    (files : List Path) :
    perform state (load store edition files) =
      (files.filterMap (scriptOf read? edition), state) := by
  induction files with
  | nil => rfl
  | cons file rest ih =>
      rw [load, perform_bind, reads]
      cases found : read? file with
      | none =>
          have left : scriptOf read? edition file = none := by rw [scriptOf, found]; rfl
          rw [List.filterMap_cons_none left]
          exact ih
      | some text =>
          have parsed : scriptOf read? edition file = some (Script.parse file edition text) := by
            rw [scriptOf, found]
            rfl
          rw [List.filterMap_cons_some parsed]
          simp only [perform_bind, ih]
          rfl

/-- Files that are alike and read as the same texts make programs that agree. -/
theorem agrees_scripts {first second : Path → Option String} (edition : Edition)
    {left right : List Path}
    (alike : List.Forall₂ (fun path file => like path file ∧ first path = second file) left right) :
    List.Forall₂ (Script.Agrees like) (left.filterMap (scriptOf first edition))
      (right.filterMap (scriptOf second edition)) := by
  refine List.rel_filterMap ?_ alike
  intro path file head
  rw [scriptOf, scriptOf, head.2]
  cases second file with
  | none => exact .none
  | some text => exact .some ⟨head.1, rfl, rfl⟩

end Program

end ShadowCheck
