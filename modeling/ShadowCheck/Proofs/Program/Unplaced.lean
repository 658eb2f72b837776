import Mathlib.Data.List.Perm.Basic
import ShadowCheck.Program.Check
import ShadowCheck.Proofs.Script.Placement

/-!
Type checking without regard to positions. What is wrong with a program does not
depend on where its parts stand, so scripts that are written out and read again
have the same type errors, in the same files.
-/

namespace ShadowCheck

open Script

/-- A diagnostic without its position. -/
def Diagnostic.verdict (diagnostic : Diagnostic) : Option Path × Nat × String :=
  (diagnostic.location.file?, diagnostic.code, diagnostic.message)

namespace Script

namespace Declaration

@[simp] theorem text_name_unplaced (declaration : Declaration) :
    declaration.unplaced.name.text = declaration.name.text := rfl

@[simp] theorem initializer?_unplaced (declaration : Declaration) :
    declaration.unplaced.initializer? =
      declaration.initializer?.map (Value.moved .start) := rfl

@[simp] theorem annotated?_unplaced (declaration : Declaration) :
    declaration.unplaced.annotated? = declaration.annotated? := by
  unfold annotated? unplaced
  cases declaration.type? <;> rfl

end Declaration

end Script

namespace Program

/-! Names in a scope. -/

section

variable (scope : List Declaration) (name : String)

theorem firstOf?_map_unplaced :
    firstOf? (scope.map Declaration.unplaced) name =
      (firstOf? scope name).map Declaration.unplaced :=
  List.find?_map

theorem withoutName_map_unplaced :
    withoutName (scope.map Declaration.unplaced) name =
      (withoutName scope name).map Declaration.unplaced :=
  List.filter_map

theorem isRedeclared_map_unplaced :
    isRedeclared (scope.map Declaration.unplaced) name = isRedeclared scope name := by
  have found : declarationsOf (scope.map Declaration.unplaced) name =
      (declarationsOf scope name).map Declaration.unplaced := List.filter_map
  simp only [isRedeclared, found, List.length_map, List.any_map]
  rfl

end

theorem typeOf_of_none {scope : List Declaration} {name : String}
    (found : firstOf? scope name = none) : typeOf scope name = .any := by
  rw [typeOf]
  split
  · rfl
  · rename_i here
    rw [here] at found
    cases found

theorem typeOf_of_some {scope : List Declaration} {name : String} {declaration : Declaration}
    (found : firstOf? scope name = some declaration) :
    typeOf scope name =
      match declaration.annotated?, declaration.initializer? with
      | some type, _ => type
      | none, none => .any
      | none, some (.reference next) => typeOf (withoutName scope name) next.text
      | none, some value => value.primitive?.getD .any := by
  rw [typeOf]
  split
  · rename_i here
    rw [here] at found
    cases found
  · rename_i other here
    rw [here] at found
    cases found
    rfl

theorem typeOf_map_unplaced (scope : List Declaration) (name : String) :
    typeOf (scope.map Declaration.unplaced) name = typeOf scope name := by
  have first := firstOf?_map_unplaced scope name
  fun_induction typeOf scope name with
  | case1 scope name found =>
      rw [found] at first
      exact typeOf_of_none first
  | case2 scope name declaration found type annotated =>
      rw [found] at first
      rw [typeOf_of_some first, declaration.annotated?_unplaced, annotated]
  | case3 scope name declaration found initializer annotated =>
      rw [found] at first
      rw [typeOf_of_some first, declaration.annotated?_unplaced,
        declaration.initializer?_unplaced, annotated, initializer]
      rfl
  | case4 scope name declaration found next initializer annotated ih =>
      rw [found] at first
      rw [typeOf_of_some first, declaration.annotated?_unplaced,
        declaration.initializer?_unplaced, annotated, initializer, withoutName_map_unplaced]
      exact ih (firstOf?_map_unplaced _ _)
  | case5 scope name declaration found value literal initializer annotated =>
      rw [found] at first
      rw [typeOf_of_some first, declaration.annotated?_unplaced,
        declaration.initializer?_unplaced, annotated, initializer]
      cases value with
      | reference next => exact absurd rfl (literal next)
      | _ => rfl

/-! Issues of a declaration. -/

section

variable (scope : List Declaration) (declaration : Declaration)

theorem map_issue_redeclarations :
    (redeclarations (scope.map Declaration.unplaced) declaration.unplaced).map Finding.issue =
      (redeclarations scope declaration).map Finding.issue := by
  rw [redeclarations, redeclarations, declaration.text_name_unplaced, isRedeclared_map_unplaced]
  split <;> rfl

theorem map_issue_unknownType :
    (unknownType declaration.unplaced).map Finding.issue =
      (unknownType declaration).map Finding.issue := by
  unfold unknownType Declaration.unplaced
  cases declaration.type? with
  | none => rfl
  | some name =>
      dsimp only [Option.map_some]
      split <;> rfl

theorem map_issue_mismatch (actual : Primitive) :
    (mismatch declaration.unplaced actual).map Finding.issue =
      (mismatch declaration actual).map Finding.issue := by
  rw [mismatch, mismatch, declaration.annotated?_unplaced]
  cases declaration.annotated? with
  | none => rfl
  | some declared =>
      dsimp only
      split <;> rfl

theorem map_issue_valueIssues :
    (valueIssues (scope.map Declaration.unplaced) declaration.unplaced).map Finding.issue =
      (valueIssues scope declaration).map Finding.issue := by
  have known : ∀ name, (firstOf? (scope.map Declaration.unplaced) name).isNone =
      (firstOf? scope name).isNone := by
    intro name
    rw [firstOf?_map_unplaced, Option.isNone_map]
  rw [valueIssues, valueIssues, declaration.initializer?_unplaced]
  cases declaration.initializer? with
  | none => rfl
  | some value =>
      cases value with
      | reference next =>
          simp only [Option.map_some, Value.moved, known, declaration.text_name_unplaced,
            withoutName_map_unplaced, typeOf_map_unplaced]
          split
          · rfl
          · exact map_issue_mismatch declaration _
      | _ => exact map_issue_mismatch declaration _

/-- What is wrong with a declaration does not depend on positions. -/
theorem map_issue_declarationIssues :
    (declarationIssues (scope.map Declaration.unplaced) declaration.unplaced).map Finding.issue =
      (declarationIssues scope declaration).map Finding.issue := by
  simp only [declarationIssues, List.map_append, map_issue_redeclarations, map_issue_unknownType,
    map_issue_valueIssues]

end

/-! Verdicts on a program. -/

def TypeIssue.verdict (file : Path) (issue : TypeIssue) : Option Path × Nat × String :=
  (some file, issue.code, issue.message)

/-- The verdicts on the declarations of a file, in the order of the declarations. -/
def verdicts (scope : List Declaration) (file : Path) (declarations : List Declaration) :
    List (Option Path × Nat × String) :=
  declarations.flatMap fun declaration =>
    ((declarationIssues scope declaration).map Finding.issue).map (TypeIssue.verdict file)

theorem verdicts_map_unplaced (scope : List Declaration) (file : Path)
    (declarations : List Declaration) :
    verdicts (scope.map Declaration.unplaced) file (declarations.map Declaration.unplaced) =
      verdicts scope file declarations := by
  rw [verdicts, List.flatMap_map]
  apply List.flatMap_congr
  intro declaration _
  rw [map_issue_declarationIssues]

theorem verdicts_congr {scope other : List Declaration} (file : Path)
    {first second : List Declaration}
    (scopes : scope.map Declaration.unplaced = other.map Declaration.unplaced)
    (same : first.map Declaration.unplaced = second.map Declaration.unplaced) :
    verdicts scope file first = verdicts other file second := by
  rw [← verdicts_map_unplaced scope, ← verdicts_map_unplaced other, scopes, same]

/-- Sorting by position is all that sets the diagnostics apart from the verdicts. -/
theorem perm_verdicts (scripts : List Script) :
    ((semanticDiagnostics scripts).map Diagnostic.verdict).Perm
      (scripts.flatMap fun script => verdicts (scope scripts) script.file script.declarations) := by
  rw [semanticDiagnostics, List.map_flatMap]
  apply List.Perm.flatMap_left
  intro script _
  have unsorted := Finding.sort_perm
    (script.declarations.flatMap (declarationIssues (scope scripts)))
  rw [List.map_map, verdicts]
  apply (unsorted.map _).trans
  rw [List.map_flatMap]
  simp only [List.map_map]
  rfl

/-- Scripts with the same declarations up to positions have the same verdicts. -/
theorem perm_verdicts_of_unplaced (scripts : List Script) {change : Script → Script}
    (file : ∀ script ∈ scripts, (change script).file = script.file)
    (declarations : ∀ script ∈ scripts,
      (change script).declarations.map Declaration.unplaced =
        script.declarations.map Declaration.unplaced) :
    ((semanticDiagnostics (scripts.map change)).map Diagnostic.verdict).Perm
      ((semanticDiagnostics scripts).map Diagnostic.verdict) := by
  have scopes : (scope (scripts.map change)).map Declaration.unplaced =
      (scope scripts).map Declaration.unplaced := by
    rw [scope, scope, List.map_flatMap, List.map_flatMap, List.flatMap_map]
    exact List.flatMap_congr declarations
  apply (perm_verdicts (scripts.map change)).trans
  apply List.Perm.trans _ (perm_verdicts scripts).symm
  apply List.Perm.of_eq
  rw [List.flatMap_map]
  apply List.flatMap_congr
  intro script found
  rw [file script found]
  exact verdicts_congr script.file scopes (declarations script found)

theorem map_unplaced_parse_print {script : Script}
    (legible : ∀ declaration ∈ script.declarations, declaration.Legible) (file : Path)
    (edition : Edition) :
    (parse file edition script.print).declarations.map Declaration.unplaced =
      script.declarations.map Declaration.unplaced := by
  rw [print, parse_print legible]
  exact Page.map_unplaced_placeAll .blank script.declarations

/-- Scripts that are written out and read again have the same type errors, each as
often as before. -/
theorem perm_verdicts_parse_print (scripts : List Script)
    (legible : ∀ script ∈ scripts, ∀ declaration ∈ script.declarations, declaration.Legible)
    (edition : Edition) :
    let reparsed := scripts.map fun script => parse script.file edition script.print
    ((semanticDiagnostics reparsed).map Diagnostic.verdict).Perm
      ((semanticDiagnostics scripts).map Diagnostic.verdict) := by
  intro reparsed
  apply perm_verdicts_of_unplaced
  · exact fun script _ => rfl
  · exact fun script found => map_unplaced_parse_print (legible script found) script.file edition

/-- Two scripts that share their names; their parts stand in no order. -/
def entangled : List Script :=
  [⟨⟨"/a.ts"⟩, .latest,
      [⟨.constWord, ⟨9, 9⟩, ⟨"a", ⟨0, 0⟩⟩, some ⟨"T", ⟨2, 70⟩⟩,
        some (.reference ⟨"b", ⟨1, 1⟩⟩)⟩], []⟩,
    ⟨⟨"/b.ts"⟩, .latest,
      [⟨.letWord, ⟨7, 1⟩, ⟨"b", ⟨1, 1⟩⟩, some ⟨"number", ⟨1, 1⟩⟩,
          some (.quoted ⟨3, 0⟩ "it's\n" '\'')⟩,
        ⟨.varWord, ⟨0, 0⟩, ⟨"a", ⟨4, 4⟩⟩, none, none⟩], []⟩]

theorem perm_verdicts_parse_print_entangled :
    (∀ script ∈ entangled, ∀ declaration ∈ script.declarations, declaration.Legible) ∧
      (semanticDiagnostics
        (entangled.map fun script => parse script.file .es3 script.print)).length = 4 := by
  have legible : ∀ script ∈ entangled, ∀ declaration ∈ script.declarations,
      declaration.Legible := by
    refine List.forall_mem_cons.mpr ⟨?_, List.forall_mem_singleton.mpr ?_⟩
    · refine List.forall_mem_singleton.mpr ⟨by decide +kernel, ?_, ?_⟩
      · rintro name ⟨rfl⟩
        decide +kernel
      · rintro value ⟨rfl⟩
        change IsName "b"
        decide +kernel
    · refine List.forall_mem_cons.mpr ⟨⟨by decide +kernel, ?_, ?_⟩,
        List.forall_mem_singleton.mpr ⟨by decide +kernel, nofun, nofun⟩⟩
      · rintro name ⟨rfl⟩
        decide +kernel
      · rintro value ⟨rfl⟩
        rfl
  refine ⟨legible, ?_⟩
  have same := (perm_verdicts_parse_print entangled legible .es3).trans (perm_verdicts entangled)
  have count := same.length_eq
  rw [List.length_map] at count
  rw [count]
  decide +kernel

end Program

end ShadowCheck
