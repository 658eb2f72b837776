import ShadowCheck.Proofs.Script.Standing

/-!
Printing and reading again. Printed declarations read as the same declarations,
and those of a text stay where they stood; the only errors in what was printed
are constants without a value.
-/

namespace ShadowCheck.Script

def Declaration.lacksValue (declaration : Declaration) : Bool :=
  declaration.keyword == .constWord && declaration.initializer?.isNone

def missingValue (file : Path) (declaration : Declaration) : Diagnostic :=
  ⟨.spot file declaration.name.position, .error, 1155,
    "'const' declarations must be initialized."⟩

theorem Declaration.findings_eq (declaration : Declaration) :
    declaration.findings =
      if declaration.lacksValue then [⟨declaration.name.position, .constUninitialized⟩] else [] := by
  simp [findings, lacksValue]

theorem map_diagnostic_findings (file : Path) (declarations : List Declaration) :
    (declarations.flatMap Declaration.findings).map (SyntaxIssue.diagnostic file) =
      (declarations.filter Declaration.lacksValue).map (missingValue file) := by
  induction declarations with
  | nil => rfl
  | cons declaration rest ih =>
      rw [List.flatMap_cons, List.map_append, ih, Declaration.findings_eq, List.filter_cons]
      split <;> rfl

theorem Declaration.lacksValue_unplaced (declaration : Declaration) :
    declaration.unplaced.lacksValue = declaration.lacksValue := by
  simp [lacksValue, unplaced]

theorem filter_lacksValue_unplaced (declarations : List Declaration) :
    (declarations.filter Declaration.lacksValue).map Declaration.unplaced =
      (declarations.map Declaration.unplaced).filter Declaration.lacksValue := by
  rw [List.filter_map]
  have same : Declaration.lacksValue ∘ Declaration.unplaced = Declaration.lacksValue :=
    funext Declaration.lacksValue_unplaced
  rw [same]

/-- Printing and reading again keeps declarations at any positions, and finds
the constants without a value among them and nothing else. -/
theorem parse_print_unplaced (script : Script)
    (legible : ∀ declaration ∈ script.declarations, declaration.Legible) (file : Path)
    (edition : Edition) :
    let read := parse file edition script.print
    read.declarations.map Declaration.unplaced =
        script.declarations.map Declaration.unplaced ∧
      (read.declarations.filter Declaration.lacksValue).map Declaration.unplaced =
        (script.declarations.filter Declaration.lacksValue).map Declaration.unplaced ∧
      read.diagnostics =
        (read.declarations.filter Declaration.lacksValue).map (missingValue file) := by
  intro read
  have printed : read = _ := parse_print legible file edition
  have same : read.declarations.map Declaration.unplaced =
      script.declarations.map Declaration.unplaced := by
    rw [printed]
    exact Page.map_unplaced_placeAll .blank script.declarations
  refine ⟨same, ?_, ?_⟩
  · rw [filter_lacksValue_unplaced, same, ← filter_lacksValue_unplaced]
  · rw [printed]
    exact map_diagnostic_findings file _

/-- Two declarations whose parts stand one before another, outside every text. -/
def backwards : Script where
  file := ⟨"/a.ts"⟩
  edition := .latest
  declarations :=
    [⟨.constWord, ⟨9, 9⟩, ⟨"a", ⟨0, 0⟩⟩, some ⟨"number", ⟨2, 70⟩⟩, none⟩,
      ⟨.letWord, ⟨1, 1⟩, ⟨"b", ⟨1, 1⟩⟩, none, some (.quoted ⟨3, 0⟩ "it's\n" '\'')⟩]
  findings := []

theorem legible_backwards :
    ∀ declaration ∈ backwards.declarations, declaration.Legible := by
  refine List.forall_mem_cons.mpr ⟨⟨by decide +kernel, ?_, nofun⟩,
    List.forall_mem_singleton.mpr ⟨by decide +kernel, nofun, ?_⟩⟩
  · rintro name ⟨rfl⟩
    decide +kernel
  · rintro value ⟨rfl⟩
    rfl

theorem parse_print_unplaced_backwards :
    (∀ declaration ∈ backwards.declarations, declaration.Legible) ∧
      (parse ⟨"/b.ts"⟩ .es3 backwards.print).diagnostics.length = 1 := by
  refine ⟨legible_backwards, ?_⟩
  obtain ⟨-, same, found⟩ := parse_print_unplaced backwards legible_backwards ⟨"/b.ts"⟩ .es3
  have count := congrArg List.length same
  rw [List.length_map, List.length_map] at count
  rw [found, List.length_map, count]
  rfl

/-- Printing what was read from a text and reading it again gives the same
declarations at the same positions. -/
theorem parse_print_parse_in_place (source file : Path) (first edition : Edition) (text : String)
    (plain : PlainStrings text.toList) :
    let script := parse source first text
    let read := parse file edition script.print
    read.declarations = script.declarations ∧
      read.diagnostics =
        (script.declarations.filter Declaration.lacksValue).map (missingValue file) := by
  intro script read
  have printed : read = _ := parse_print_parse source file first edition plain
  rw [printed]
  exact ⟨rfl, map_diagnostic_findings file script.declarations⟩

/-- A text with an open string, a comment, a declaration without its name, a
string over two lines, and a character that begins nothing. -/
def damaged : String :=
  "const a // b\n  var = 'x\n\tlet c :T= \"y\\\nz\"; # 1;\nvar d = 1_0"

theorem parse_print_parse_in_place_damaged :
    PlainStrings damaged.toList ∧
      (parse ⟨"/b.ts"⟩ .es3 (parse ⟨"/a.ts"⟩ .latest damaged).print).declarations =
        (parse ⟨"/a.ts"⟩ .latest damaged).declarations := by
  have plain : PlainStrings damaged.toList := by decide +kernel
  exact ⟨plain, (parse_print_parse_in_place ⟨"/a.ts"⟩ ⟨"/b.ts"⟩ .latest .es3 damaged plain).1⟩

end ShadowCheck.Script
