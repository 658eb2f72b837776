import ShadowCheck.Proofs.Program.Reordered

/-!
A script that has nothing to do with the others. Where no other script declares a name of
it or has one for a value, no chain of references that starts in the others gets to it. So
the scope without its names is as good as the whole scope to all of them, and it adds a
block of its own to the diagnostics and changes nothing else.
-/

namespace ShadowCheck.Program

open Script

/-- Whether the declarations of a scope neither declare nor refer to any of the names. -/
structure Ignores (scope : List Declaration) (hidden : List String) : Prop where
  undeclared : ∀ declaration ∈ scope, declaration.name.text ∉ hidden
  unreferenced : ∀ declaration ∈ scope, ∀ name,
    declaration.initializer? = some (.reference name) → name.text ∉ hidden

theorem Ignores.withoutName {scope : List Declaration} {hidden : List String}
    (ignores : Ignores scope hidden) (name : String) :
    Ignores (withoutName scope name) hidden where
  undeclared declaration found := ignores.undeclared declaration (List.mem_of_mem_filter found)
  unreferenced declaration found :=
    ignores.unreferenced declaration (List.mem_of_mem_filter found)

theorem Ignores.withoutNames_eq {scope : List Declaration} {hidden : List String}
    (ignores : Ignores scope hidden) : withoutNames scope hidden = scope := by
  rw [withoutNames, List.filter_eq_self]
  exact fun declaration found => decide_eq_true (ignores.undeclared declaration found)

theorem withoutNames_append (left right : List Declaration) (hidden : List String) :
    withoutNames (left ++ right) hidden = withoutNames left hidden ++ withoutNames right hidden :=
  List.filter_append left right

theorem withoutNames_names (scope : List Declaration) : withoutNames scope (names scope) = [] := by
  rw [withoutNames, List.filter_eq_nil_iff]
  intro declaration found missing
  exact of_decide_eq_true missing (List.mem_map_of_mem found)

theorem withoutName_withoutNames (scope : List Declaration) (hidden : List String)
    (name : String) :
    withoutName (withoutNames scope hidden) name = withoutNames (withoutName scope name) hidden :=
  List.filter_comm _ _ _

theorem isRedeclared_withoutNames {scope : List Declaration} {hidden : List String}
    {name : String} (fresh : name ∉ hidden) :
    isRedeclared (withoutNames scope hidden) name = isRedeclared scope name := by
  have found : declarationsOf (withoutNames scope hidden) name = declarationsOf scope name := by
    rw [declarationsOf, withoutNames, List.filter_filter, declarationsOf]
    congr 1
    funext declaration
    by_cases named : declaration.name.text = name <;> simp [named, fresh]
  rw [isRedeclared, isRedeclared, found]

/-- The invariant of a chain: it has only come to names that are not hidden, and so to the
first declarations of the same names in both scopes. -/
theorem typeOf_withoutNames {scope : List Declaration} {hidden : List String} {name : String}
    (ignores : Ignores (withoutNames scope hidden) hidden) (fresh : name ∉ hidden) :
    typeOf (withoutNames scope hidden) name = typeOf scope name := by
  refine typeOf_congr (fun narrow wide name =>
    narrow = withoutNames wide hidden ∧ Ignores narrow hidden ∧ name ∉ hidden) ?_ ?_
    ⟨rfl, ignores, fresh⟩
  · rintro _ wide name ⟨rfl, -, fresh⟩
    exact (firstOf?_withoutNames fresh).symm
  · rintro _ wide name declaration next ⟨rfl, ignores, -⟩ found leads
    have inside := List.mem_of_find?_eq_some found
    exact ⟨withoutName_withoutNames wide hidden name, ignores.withoutName name,
      ignores.unreferenced declaration inside next leads.initialized⟩

section

variable {scope : List Declaration} {hidden : List String} {declaration : Declaration}

theorem valueIssues_withoutNames (ignores : Ignores (withoutNames scope hidden) hidden)
    (inside : declaration ∈ withoutNames scope hidden) :
    valueIssues (withoutNames scope hidden) declaration = valueIssues scope declaration := by
  unfold valueIssues
  cases initialized : declaration.initializer? with
  | none => rfl
  | some value =>
      cases value with
      | reference name =>
          have fresh := ignores.unreferenced declaration inside name initialized
          have shorter := ignores.withoutName declaration.name.text
          rw [withoutName_withoutNames] at shorter
          dsimp only
          rw [firstOf?_withoutNames fresh, withoutName_withoutNames,
            typeOf_withoutNames shorter fresh]
      | _ => rfl

theorem declarationIssues_withoutNames (ignores : Ignores (withoutNames scope hidden) hidden)
    (inside : declaration ∈ withoutNames scope hidden) :
    declarationIssues (withoutNames scope hidden) declaration =
      declarationIssues scope declaration := by
  have fresh := ignores.undeclared declaration inside
  rw [declarationIssues, declarationIssues, redeclarations, redeclarations,
    isRedeclared_withoutNames fresh, valueIssues_withoutNames ignores inside]

theorem block_withoutNames (ignores : Ignores (withoutNames scope hidden) hidden)
    {script : Script} (inside : ∀ declaration ∈ script.declarations,
      declaration ∈ withoutNames scope hidden) :
    block (withoutNames scope hidden) script = block scope script := by
  have issues : script.declarations.flatMap (declarationIssues (withoutNames scope hidden)) =
      script.declarations.flatMap (declarationIssues scope) := by
    apply List.flatMap_congr
    intro declaration found
    exact declarationIssues_withoutNames ignores (inside declaration found)
  rw [block, block, scriptIssues, scriptIssues, issues]

end

/-! Scripts that are inserted. -/

theorem scope_append (left right : List Script) :
    scope (left ++ right) = scope left ++ scope right :=
  List.flatMap_append

theorem withoutNames_scope_insert {front back : List Script} {script : Script}
    (ignores : Ignores (scope (front ++ back)) (names script.declarations)) :
    withoutNames (scope (front ++ script :: back)) (names script.declarations) =
      scope (front ++ back) := by
  have around : withoutNames (scope (front ++ back)) (names script.declarations) =
      scope (front ++ back) := ignores.withoutNames_eq
  have first : scope (script :: back) = script.declarations ++ scope back := rfl
  rw [scope_append, first, withoutNames_append, withoutNames_append, withoutNames_names,
    List.nil_append, ← withoutNames_append, ← scope_append, around]

theorem block_insert {front back : List Script} {script : Script}
    (ignores : Ignores (scope (front ++ back)) (names script.declarations))
    {other : Script} (found : other ∈ front ++ back) :
    block (scope (front ++ script :: back)) other = block (scope (front ++ back)) other := by
  have narrow := withoutNames_scope_insert ignores
  have inside : ∀ declaration ∈ other.declarations, declaration ∈ scope (front ++ back) :=
    fun declaration declared => List.mem_flatMap.mpr ⟨other, found, declared⟩
  rw [← narrow] at ignores inside
  rw [← block_withoutNames ignores inside, narrow]

/-- The blocks of the other scripts stay as they are without the new one. -/
theorem blocks_insert {front back : List Script} {script : Script}
    (ignores : Ignores (scope (front ++ back)) (names script.declarations)) :
    semanticDiagnostics (front ++ script :: back) =
      front.flatMap (block (scope (front ++ back))) ++
        block (scope (front ++ script :: back)) script ++
          back.flatMap (block (scope (front ++ back))) := by
  have kept (part : List Script) (within : part ⊆ front ++ back) :
      part.flatMap (block (scope (front ++ script :: back))) =
        part.flatMap (block (scope (front ++ back))) :=
    List.flatMap_congr fun other found => block_insert ignores (within found)
  rw [semanticDiagnostics_eq_blocks, List.flatMap_append, List.flatMap_cons,
    kept front (List.subset_append_left front back),
    kept back (List.subset_append_right front back), List.append_assoc]

/-- What an unrelated script does to the diagnostics, wherever it stands and whatever is wrong
with it: its own are put between those of the scripts before it and after it. -/
theorem semanticDiagnostics_insert {front back : List Script} {script : Script}
    (fresh : ∀ other ∈ front ++ back, other.file ≠ script.file)
    (ignores : Ignores (scope (front ++ back)) (names script.declarations)) :
    (∀ other ∈ front ++ back, ofFile other.file (semanticDiagnostics (front ++ script :: back)) =
      ofFile other.file (semanticDiagnostics (front ++ back))) ∧
    ∃ before own after, semanticDiagnostics (front ++ back) = before ++ after ∧
      semanticDiagnostics (front ++ script :: back) = before ++ own ++ after ∧
      ofFile script.file own = own ∧ ofFile script.file (before ++ after) = [] := by
  have wide := blocks_insert ignores
  have narrow : semanticDiagnostics (front ++ back) =
      front.flatMap (block (scope (front ++ back))) ++
        back.flatMap (block (scope (front ++ back))) :=
    List.flatMap_append
  refine ⟨?_, _, _, _, narrow, wide, ?_, ?_⟩
  · intro other found
    have elsewhere : ofFile other.file (block (scope (front ++ script :: back)) script) = [] := by
      rw [ofFile_block, if_neg (fresh other found).symm]
    simp only [wide, narrow, ofFile, List.filter_append] at elsewhere ⊢
    rw [elsewhere, List.append_nil]
  · rw [ofFile_block, if_pos rfl]
  · have none : ((front ++ back).filter fun other => other.file = script.file) = [] := by
      rw [List.filter_eq_nil_iff]
      exact fun other found same => fresh other found (of_decide_eq_true same)
    rw [← List.flatMap_append, ofFile_flatMap_block, none, List.flatMap_nil]

/-- A clash of types, found through a name of the last file. -/
def settled : List Script :=
  [⟨⟨"/a.ts"⟩, .latest,
      [⟨.letWord, ⟨1, 1⟩, ⟨"a", ⟨1, 5⟩⟩, some ⟨"number", ⟨1, 8⟩⟩,
        some (.reference ⟨"b", ⟨1, 17⟩⟩)⟩], []⟩,
    ⟨⟨"/b.ts"⟩, .latest,
      [⟨.varWord, ⟨1, 1⟩, ⟨"b", ⟨1, 5⟩⟩, none, some (.quoted ⟨1, 9⟩ "x" '\'')⟩], []⟩]

/-- Names declared twice that lead to each other, and a reference to a name of another file. -/
def intruding : Script :=
  ⟨⟨"/m.ts"⟩, .latest,
    [⟨.letWord, ⟨1, 1⟩, ⟨"p", ⟨1, 5⟩⟩, some ⟨"T", ⟨1, 8⟩⟩, some (.reference ⟨"q", ⟨1, 12⟩⟩)⟩,
      ⟨.letWord, ⟨2, 1⟩, ⟨"q", ⟨2, 5⟩⟩, none, some (.reference ⟨"p", ⟨2, 9⟩⟩)⟩,
      ⟨.varWord, ⟨3, 1⟩, ⟨"p", ⟨3, 5⟩⟩, some ⟨"boolean", ⟨3, 8⟩⟩,
        some (.reference ⟨"b", ⟨3, 18⟩⟩)⟩], []⟩

theorem semanticDiagnostics_insert_intruding :
    (∀ other ∈ settled, other.file ≠ intruding.file) ∧
      Ignores (scope settled) (names intruding.declarations) ∧
      (semanticDiagnostics settled).map (·.code) = [2322] ∧
      (intruding.declarations.flatMap (declarationIssues
        (scope (settled.take 1 ++ intruding :: settled.drop 1)))).map (·.issue.code) =
          [2451, 2304, 2451, 2322] ∧
      ofFile ⟨"/a.ts"⟩ (semanticDiagnostics (settled.take 1 ++ intruding :: settled.drop 1)) =
        ofFile ⟨"/a.ts"⟩ (semanticDiagnostics settled) := by
  have fresh : ∀ other ∈ settled, other.file ≠ intruding.file := by decide
  have ignores : Ignores (scope settled) (names intruding.declarations) := by
    constructor
    · decide
    · simp [scope, settled, names, intruding]
  refine ⟨fresh, ignores, by decide +kernel, by decide +kernel, ?_⟩
  have kept := (@semanticDiagnostics_insert (settled.take 1) (settled.drop 1) intruding fresh
    ignores).1
  exact kept _ List.mem_cons_self

end ShadowCheck.Program
