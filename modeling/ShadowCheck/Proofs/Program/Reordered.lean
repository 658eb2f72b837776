import Mathlib.Data.List.Find
import Mathlib.Data.List.Nodup
import ShadowCheck.Proofs.Program.Rules

/-!
The scripts of a program in another order. Whether a name clashes or is unknown does not
depend on the order of the scripts, and where no name is declared twice no type does; so the
diagnostics of each file stay as they are, and the blocks of the files are reordered.
-/

namespace ShadowCheck

open Script

namespace Finding

variable {α : Type}

/-- Sorting keeps the order of all the findings that a test selects. -/
theorem filter_sort (test : α → Bool) (findings : List (Finding α)) :
    (sort findings).filter (test ·.issue) = sort (findings.filter (test ·.issue)) := by
  apply arranged_iff.mp
  refine ⟨(sorted_sort findings).filter _, ?_⟩
  intro position
  have commute (list : List (Finding α)) : atPosition (list.filter (test ·.issue)) position =
      (atPosition list position).filter (test ·.issue) :=
    List.filter_comm _ _ _
  rw [commute, commute, atPosition_sort]

end Finding

namespace Program

def TypeIssue.isNaming (issue : TypeIssue) : Bool :=
  issue.code ∈ [2451, 2304]

def names (scope : List Declaration) : List String :=
  scope.map (·.name.text)

/-! Scopes in another order. -/

section

variable {scope other : List Declaration}

theorem isRedeclared_of_perm (order : scope.Perm other) (name : String) :
    isRedeclared scope name = isRedeclared other name := by
  have found : (declarationsOf scope name).Perm (declarationsOf other name) := order.filter _
  rw [isRedeclared, isRedeclared, found.length_eq, found.any_eq]

theorem isNone_firstOf?_of_perm (order : scope.Perm other) (name : String) :
    (firstOf? scope name).isNone = (firstOf? other name).isNone := by
  rw [Bool.eq_iff_iff, isNone_firstOf?_iff, isNone_firstOf?_iff]
  simp only [order.mem_iff]

theorem filter_mismatch (declaration : Declaration) (actual : Primitive) :
    (mismatch declaration actual).filter (·.issue.isNaming) = [] := by
  unfold mismatch
  split
  · rfl
  · split <;> rfl

theorem filter_valueIssues_of_perm (order : scope.Perm other) (declaration : Declaration) :
    (valueIssues scope declaration).filter (·.issue.isNaming) =
      (valueIssues other declaration).filter (·.issue.isNaming) := by
  unfold valueIssues
  cases declaration.initializer? with
  | none => rfl
  | some value =>
      cases value with
      | reference name =>
          dsimp only
          rw [isNone_firstOf?_of_perm order]
          split
          · rfl
          · rw [filter_mismatch, filter_mismatch]
      | _ => rfl

theorem filter_declarationIssues_of_perm (order : scope.Perm other)
    (declaration : Declaration) :
    (declarationIssues scope declaration).filter (·.issue.isNaming) =
      (declarationIssues other declaration).filter (·.issue.isNaming) := by
  have clashes : redeclarations scope declaration = redeclarations other declaration := by
    rw [redeclarations, redeclarations, isRedeclared_of_perm order]
  simp only [declarationIssues, clashes, List.filter_append, filter_valueIssues_of_perm order]

theorem firstOf?_of_perm (order : scope.Perm other) (unique : (names scope).Nodup)
    (name : String) : firstOf? scope name = firstOf? other name := by
  apply List.find?_eq_find?_of_perm order
  intro left leftFound right rightFound
  apply List.inj_on_of_nodup_map unique leftFound.1 rightFound.1
  exact (of_decide_eq_true leftFound.2).trans (of_decide_eq_true rightFound.2).symm

theorem withoutName_of_perm (order : scope.Perm other) (name : String) :
    (withoutName scope name).Perm (withoutName other name) :=
  order.filter _

theorem nodup_names_withoutName (unique : (names scope).Nodup) (name : String) :
    (names (withoutName scope name)).Nodup :=
  unique.sublist (List.filter_sublist.map _)

/-- Where no name is declared twice, the first declaration of a name is the only one, so the
chain of a reference is the same in every order. -/
theorem typeOf_of_perm (order : scope.Perm other) (unique : (names scope).Nodup)
    (name : String) : typeOf scope name = typeOf other name :=
  typeOf_congr (fun scope other _ => scope.Perm other ∧ (names scope).Nodup)
    (fun alike => (firstOf?_of_perm alike.1 alike.2 _).symm)
    (fun alike _ _ => ⟨withoutName_of_perm alike.1 _, nodup_names_withoutName alike.2 _⟩)
    ⟨order, unique⟩

theorem declarationIssues_of_perm (order : scope.Perm other) (unique : (names scope).Nodup)
    (declaration : Declaration) :
    declarationIssues scope declaration = declarationIssues other declaration := by
  have types (name : String) : typeOf (withoutName scope declaration.name.text) name =
      typeOf (withoutName other declaration.name.text) name :=
    typeOf_of_perm (withoutName_of_perm order _) (nodup_names_withoutName unique _) name
  have values : valueIssues scope declaration = valueIssues other declaration := by
    simp only [valueIssues, isNone_firstOf?_of_perm order, types]
  rw [declarationIssues, declarationIssues, redeclarations, redeclarations,
    isRedeclared_of_perm order, values]

end

/-! Blocks of diagnostics. -/

/-- The diagnostics of a file, in their order. -/
def ofFile (file : Path) (diagnostics : List Diagnostic) : List Diagnostic :=
  diagnostics.filter fun diagnostic => diagnostic.location.file? = some file

def block (scope : List Declaration) (script : Script) : List Diagnostic :=
  (scriptIssues scope script).map (TypeIssue.diagnostic script.file)

theorem semanticDiagnostics_eq_blocks (scripts : List Script) :
    semanticDiagnostics scripts = scripts.flatMap (block (scope scripts)) := rfl

theorem ofFile_block (scope : List Declaration) (script : Script) (file : Path) :
    ofFile file (block scope script) = if script.file = file then block scope script else [] := by
  have located : ∀ diagnostic ∈ block scope script,
      diagnostic.location.file? = some script.file := by
    rw [block, List.forall_mem_map]
    exact fun _ _ => rfl
  split
  · rename_i same
    rw [ofFile, List.filter_eq_self]
    intro diagnostic found
    rw [located diagnostic found, same]
    exact decide_eq_true rfl
  · rename_i different
    rw [ofFile, List.filter_eq_nil_iff]
    intro diagnostic found
    rw [located diagnostic found]
    simpa using different

theorem ofFile_flatMap_block (scope : List Declaration) (scripts : List Script) (file : Path) :
    ofFile file (scripts.flatMap (block scope)) =
      (scripts.filter fun script => script.file = file).flatMap (block scope) := by
  induction scripts with
  | nil => rfl
  | cons script rest ih =>
      rw [List.flatMap_cons, ofFile, List.filter_append]
      change ofFile file (block scope script) ++ ofFile file (rest.flatMap (block scope)) = _
      rw [ofFile_block, ih, List.filter_cons]
      by_cases same : script.file = file <;> simp [same]

theorem filter_file_eq_singleton {scripts : List Script}
    (distinct : (scripts.map (·.file)).Nodup) {script : Script} (found : script ∈ scripts) :
    (scripts.filter fun other => other.file = script.file) = [script] := by
  induction scripts with
  | nil => cases found
  | cons first rest ih =>
      rw [List.map_cons, List.nodup_cons] at distinct
      obtain ⟨fresh, others⟩ := distinct
      rcases List.mem_cons.mp found with rfl | later
      · have none : (rest.filter fun other => other.file = script.file) = [] := by
          rw [List.filter_eq_nil_iff]
          intro other inside same
          exact fresh (List.mem_map.mpr ⟨other, inside, of_decide_eq_true same⟩)
        rw [List.filter_cons, if_pos (decide_eq_true rfl), none]
      · have different : first.file ≠ script.file := by
          intro same
          exact fresh (List.mem_map.mpr ⟨script, later, same.symm⟩)
        rw [List.filter_cons_of_neg (by simpa using different), ih others later]

/-- There is at most one script of a file, so it is found alike in every order. -/
theorem filter_file_of_perm {scripts others : List Script} (order : scripts.Perm others)
    (distinct : (scripts.map (·.file)).Nodup) (file : Path) :
    (scripts.filter fun script => script.file = file) =
      others.filter fun script => script.file = file := by
  have alike := order.filter fun script => script.file = file
  by_cases found : ∃ script ∈ scripts, script.file = file
  · obtain ⟨script, inside, rfl⟩ := found
    have single := filter_file_eq_singleton distinct inside
    rw [single] at alike ⊢
    exact alike.singleton_eq
  · have none : (scripts.filter fun script => script.file = file) = [] := by
      rw [List.filter_eq_nil_iff]
      intro script inside same
      exact found ⟨script, inside, of_decide_eq_true same⟩
    rw [none] at alike ⊢
    exact alike.nil_eq

theorem filter_block_of_perm {scope other : List Declaration} (order : scope.Perm other)
    (script : Script) :
    (block scope script).filter (·.code ∈ [2451, 2304]) =
      (block other script).filter (·.code ∈ [2451, 2304]) := by
  have naming (scope : List Declaration) : (block scope script).filter (·.code ∈ [2451, 2304]) =
      (Finding.sort (script.declarations.flatMap fun declaration =>
        (declarationIssues scope declaration).filter (·.issue.isNaming))).map
          (TypeIssue.diagnostic script.file) := by
    rw [block, scriptIssues, List.filter_map, ← List.filter_flatMap, ← Finding.filter_sort]
    rfl
  simp only [naming, filter_declarationIssues_of_perm order]

theorem flatMap_ofFile {scripts : List Script} (distinct : (scripts.map (·.file)).Nodup) :
    (scripts.map (·.file)).flatMap (fun file => ofFile file (semanticDiagnostics scripts)) =
      semanticDiagnostics scripts := by
  rw [List.flatMap_map, semanticDiagnostics_eq_blocks]
  apply List.flatMap_congr
  intro script found
  rw [ofFile_flatMap_block, filter_file_eq_singleton distinct found, List.flatMap_singleton]

theorem perm_scope {scripts others : List Script} (order : scripts.Perm others) :
    (scope scripts).Perm (scope others) :=
  order.flatMap_right _

/-- The order of the scripts is seen only in the types of names that are declared again: what
is wrong with names stays as it is in each file, and without such names all diagnostics do. -/
theorem ofFile_semanticDiagnostics_of_perm {scripts others : List Script}
    (order : scripts.Perm others) (distinct : (scripts.map (·.file)).Nodup) :
    (∀ file, (ofFile file (semanticDiagnostics scripts)).filter (·.code ∈ [2451, 2304]) =
      (ofFile file (semanticDiagnostics others)).filter (·.code ∈ [2451, 2304])) ∧
    ((names (scope scripts)).Nodup →
      (∀ file, ofFile file (semanticDiagnostics scripts) =
        ofFile file (semanticDiagnostics others)) ∧
      semanticDiagnostics scripts = (scripts.map (·.file)).flatMap
        (fun file => ofFile file (semanticDiagnostics scripts)) ∧
      semanticDiagnostics others = (others.map (·.file)).flatMap
        (fun file => ofFile file (semanticDiagnostics scripts))) := by
  have scopes := perm_scope order
  have distinctToo : (others.map (·.file)).Nodup := (order.map _).nodup_iff.mp distinct
  constructor
  · intro file
    simp only [semanticDiagnostics_eq_blocks, ofFile_flatMap_block, List.filter_flatMap,
      filter_file_of_perm order distinct, filter_block_of_perm scopes]
  · intro unique
    have issues : declarationIssues (scope scripts) = declarationIssues (scope others) :=
      funext (declarationIssues_of_perm scopes unique)
    have same : block (scope scripts) = block (scope others) := by
      funext script
      rw [block, block, scriptIssues, scriptIssues, issues]
    have kept (file : Path) : ofFile file (semanticDiagnostics scripts) =
        ofFile file (semanticDiagnostics others) := by
      simp only [semanticDiagnostics_eq_blocks, ofFile_flatMap_block,
        filter_file_of_perm order distinct, same]
    refine ⟨kept, (flatMap_ofFile distinct).symm, ?_⟩
    simp only [kept]
    exact (flatMap_ofFile distinctToo).symm

/-- A name that is found in a later file, one that is found nowhere, and a clash of types. -/
def scattered : List Script :=
  [⟨⟨"/a.ts"⟩, .latest,
      [⟨.letWord, ⟨1, 1⟩, ⟨"a", ⟨1, 5⟩⟩, some ⟨"number", ⟨1, 8⟩⟩,
        some (.reference ⟨"b", ⟨1, 17⟩⟩)⟩], []⟩,
    ⟨⟨"/b.ts"⟩, .latest,
      [⟨.varWord, ⟨1, 1⟩, ⟨"b", ⟨1, 5⟩⟩, some ⟨"T", ⟨1, 8⟩⟩,
        some (.quoted ⟨1, 12⟩ "x" '\'')⟩], []⟩]

theorem ofFile_semanticDiagnostics_of_perm_scattered :
    scattered.Perm scattered.reverse ∧ (scattered.map (·.file)).Nodup ∧
      (names (scope scattered)).Nodup ∧
      (semanticDiagnostics scattered).map (·.code) = [2322, 2304] ∧
      semanticDiagnostics scattered.reverse =
        ofFile ⟨"/b.ts"⟩ (semanticDiagnostics scattered) ++
          ofFile ⟨"/a.ts"⟩ (semanticDiagnostics scattered) := by
  have order : scattered.Perm scattered.reverse := (List.reverse_perm scattered).symm
  have distinct : (scattered.map (·.file)).Nodup := by decide
  have unique : (names (scope scattered)).Nodup := by decide
  have codes : (semanticDiagnostics scattered).map (·.code) = [2322, 2304] := by decide +kernel
  refine ⟨order, distinct, unique, codes, ?_⟩
  obtain ⟨-, -, blocks⟩ := (ofFile_semanticDiagnostics_of_perm order distinct).2 unique
  rw [blocks]
  exact congrArg _ (List.append_nil _)

end Program

end ShadowCheck
