import ShadowCheck.Proofs.Diagnostic.Order
import ShadowCheck.Proofs.Program.Resolution

/-!
The rules of type checking, each as what breaks it. The checker reports what breaks a
rule, once for each declaration and rule, and nothing else.
-/

namespace ShadowCheck

open Script

namespace Program

/-- A name that is declared more than once, and not by `var` alone. -/
structure Clashes (scope : List Declaration) (name : String) : Prop where
  twice : 2 ≤ scope.countP fun declaration => declaration.name.text = name
  blockScoped : ∃ declaration ∈ scope, declaration.name.text = name ∧
    (declaration.keyword = .constWord ∨ declaration.keyword = .letWord)

/-- The type of a value, where `own` is the name that it is declared to be the value of. -/
inductive HasType (scope : List Declaration) (own : String) : Value → Primitive → Prop
  | quoted (position : Position) (value : String) (quote : Char) :
      HasType scope own (.quoted position value quote) .string
  | number (position : Position) (text : String) :
      HasType scope own (.number position text) .number
  | boolean (position : Position) (value : Bool) :
      HasType scope own (.boolean position value) .boolean
  | reference {name : Name} {type : Primitive}
      (declared : ∃ declaration ∈ scope, declaration.name.text = name.text)
      (resolves : Resolves scope own name.text type) : HasType scope own (.reference name) type

inductive Rule
  | redeclared
  | unknownType
  | unknownValue
  | mismatch

def Rule.all : List Rule := [redeclared, unknownType, unknownValue, mismatch]

inductive Breaks (scope : List Declaration) (declaration : Declaration) :
    Rule → Finding TypeIssue → Prop
  | redeclared (clashes : Clashes scope declaration.name.text) :
      Breaks scope declaration .redeclared
        ⟨declaration.name.position, .redeclared declaration.name.text⟩
  | unknownType {name : Name} (annotated : declaration.type? = some name)
      (unknown : ∀ type : Primitive, name.text ≠ type.text) :
      Breaks scope declaration .unknownType ⟨name.position, .unknownName name.text⟩
  | unknownValue {name : Name} (initialized : declaration.initializer? = some (.reference name))
      (undeclared : ∀ other ∈ scope, other.name.text ≠ name.text) :
      Breaks scope declaration .unknownValue ⟨name.position, .unknownName name.text⟩
  | mismatch {value : Value} {actual declared : Primitive}
      (annotates : declaration.Annotates declared)
      (initialized : declaration.initializer? = some value)
      (hasType : HasType scope declaration.name.text value actual) (declares : declared ≠ .any)
      (known : actual ≠ .any) (differs : actual ≠ declared) :
      Breaks scope declaration .mismatch ⟨declaration.name.position, .mismatch actual declared⟩

def checks (declarations : List Declaration) : List (Declaration × Rule) :=
  declarations.flatMap fun declaration => Rule.all.map fun rule => (declaration, rule)

inductive Lists (scope : List Declaration) :
    List (Declaration × Rule) → List (Finding TypeIssue) → Prop
  | nil : Lists scope [] []
  | broken {declaration : Declaration} {rule : Rule} {finding : Finding TypeIssue}
      {rest : List (Declaration × Rule)} {listed : List (Finding TypeIssue)}
      (breaks : Breaks scope declaration rule finding) (others : Lists scope rest listed) :
      Lists scope ((declaration, rule) :: rest) (finding :: listed)
  | kept {declaration : Declaration} {rule : Rule}
      {rest : List (Declaration × Rule)} {listed : List (Finding TypeIssue)}
      (keeps : ∀ finding, ¬ Breaks scope declaration rule finding)
      (others : Lists scope rest listed) : Lists scope ((declaration, rule) :: rest) listed

/-- The diagnostics that the rules prescribe: script by script, those of a script put in
order of position. -/
inductive Prescribed (scope : List Declaration) : List Script → List Diagnostic → Prop
  | nil : Prescribed scope [] []
  | cons {script : Script} {listed arranged : List (Finding TypeIssue)}
      {scripts : List Script} {diagnostics : List Diagnostic}
      (lists : Lists scope (checks script.declarations) listed)
      (arranges : Finding.Arranged listed arranged)
      (others : Prescribed scope scripts diagnostics) :
      Prescribed scope (script :: scripts)
        (arranged.map (TypeIssue.diagnostic script.file) ++ diagnostics)

/-! What the checker looks up. -/

theorem isRedeclared_iff {scope : List Declaration} {name : String} :
    isRedeclared scope name = true ↔ Clashes scope name := by
  have blockScoped : ∀ keyword : Keyword,
      keyword.isBlockScoped = true ↔ keyword = .constWord ∨ keyword = .letWord := by
    intro keyword
    cases keyword <;> simp [Keyword.isBlockScoped]
  simp only [isRedeclared, declarationsOf, ← List.countP_eq_length_filter, Bool.and_eq_true,
    decide_eq_true_eq, List.any_filter, List.any_eq_true, blockScoped]
  exact ⟨fun both => ⟨both.1, both.2⟩, fun clashes => ⟨clashes.twice, clashes.blockScoped⟩⟩

/-- The type of a value, unless it is the name of nothing. -/
def valueType? (scope : List Declaration) (own : String) : Value → Option Primitive
  | .reference name =>
      if (firstOf? scope name.text).isNone then none
      else some (typeOf (withoutName scope own) name.text)
  | value => value.primitive?

theorem isNone_firstOf?_iff {scope : List Declaration} {name : String} :
    (firstOf? scope name).isNone = true ↔
      ∀ declaration ∈ scope, declaration.name.text ≠ name := by
  rw [Option.isNone_iff_eq_none, firstOf?_eq_none_iff]

theorem valueType?_eq_some_iff {scope : List Declaration} {own : String} {value : Value}
    {type : Primitive} : valueType? scope own value = some type ↔ HasType scope own value type := by
  cases value with
  | quoted position value quote =>
      exact ⟨by rintro ⟨rfl⟩; exact .quoted position value quote, by rintro ⟨⟩; rfl⟩
  | number position text =>
      exact ⟨by rintro ⟨rfl⟩; exact .number position text, by rintro ⟨⟩; rfl⟩
  | boolean position value =>
      exact ⟨by rintro ⟨rfl⟩; exact .boolean position value, by rintro ⟨⟩; rfl⟩
  | reference name =>
      rw [valueType?]
      split
      · rename_i missing
        have undeclared := isNone_firstOf?_iff.mp missing
        constructor
        · nofun
        · intro hasType
          cases hasType with
          | reference declared resolves =>
              obtain ⟨declaration, inside, named⟩ := declared
              exact absurd named (undeclared declaration inside)
      · rename_i present
        rw [isNone_firstOf?_iff] at present
        rw [Option.some_inj, typeOf_eq_iff]
        constructor
        · exact .reference (by simpa using present)
        · intro hasType
          cases hasType with
          | reference declared resolves => exact resolves

theorem Primitive.ofText?_eq_none_iff {text : String} :
    Primitive.ofText? text = none ↔ ∀ type : Primitive, text ≠ type.text := by
  simp only [Option.eq_none_iff_forall_ne_some, ne_eq, Primitive.ofText?_eq_some_iff]

/-! What the checker reports. -/

def broken? (scope : List Declaration) (declaration : Declaration) :
    Rule → Option (Finding TypeIssue)
  | .redeclared =>
      if isRedeclared scope declaration.name.text then
        some ⟨declaration.name.position, .redeclared declaration.name.text⟩
      else none
  | .unknownType =>
      declaration.type?.bind fun name =>
        if (Primitive.ofText? name.text).isNone then
          some ⟨name.position, .unknownName name.text⟩
        else none
  | .unknownValue =>
      match declaration.initializer? with
      | some (.reference name) =>
          if (firstOf? scope name.text).isNone then some ⟨name.position, .unknownName name.text⟩
          else none
      | _ => none
  | .mismatch =>
      declaration.annotated?.bind fun declared =>
        declaration.initializer?.bind fun value =>
          (valueType? scope declaration.name.text value).bind fun actual =>
            if declared.accepts actual then none
            else some ⟨declaration.name.position, .mismatch actual declared⟩

theorem accepts_eq_false_iff {declared actual : Primitive} :
    declared.accepts actual = false ↔ declared ≠ .any ∧ actual ≠ .any ∧ actual ≠ declared := by
  cases declared <;> cases actual <;> decide

theorem broken?_eq_some_iff {scope : List Declaration} {declaration : Declaration} {rule : Rule}
    {finding : Finding TypeIssue} :
    broken? scope declaration rule = some finding ↔ Breaks scope declaration rule finding := by
  cases rule with
  | redeclared =>
      rw [broken?, Option.ite_none_right_eq_some, isRedeclared_iff]
      constructor
      · rintro ⟨clashes, ⟨rfl⟩⟩
        exact .redeclared clashes
      · intro breaks
        cases breaks with
        | redeclared clashes => exact ⟨clashes, rfl⟩
  | unknownType =>
      simp only [broken?, Option.bind_eq_some_iff, Option.ite_none_right_eq_some,
        Option.isNone_iff_eq_none, Primitive.ofText?_eq_none_iff]
      constructor
      · rintro ⟨name, annotated, unknown, ⟨rfl⟩⟩
        exact .unknownType annotated unknown
      · intro breaks
        cases breaks with
        | unknownType annotated unknown => exact ⟨_, annotated, unknown, rfl⟩
  | unknownValue =>
      rw [broken?]
      constructor
      · split
        · rename_i name initialized
          rw [Option.ite_none_right_eq_some, isNone_firstOf?_iff]
          rintro ⟨undeclared, ⟨rfl⟩⟩
          exact .unknownValue initialized undeclared
        · nofun
      · intro breaks
        cases breaks with
        | unknownValue initialized undeclared =>
            simp only [initialized]
            rw [if_pos (isNone_firstOf?_iff.mpr undeclared)]
  | mismatch =>
      simp only [broken?, Option.bind_eq_some_iff, Declaration.annotated?_eq_some_iff,
        valueType?_eq_some_iff, Option.ite_none_left_eq_some, Bool.not_eq_true,
        accepts_eq_false_iff]
      constructor
      · rintro ⟨declared, annotates, value, initialized, actual, hasType,
          ⟨declares, known, differs⟩, ⟨rfl⟩⟩
        exact .mismatch annotates initialized hasType declares known differs
      · intro breaks
        cases breaks with
        | mismatch annotates initialized hasType declares known differs =>
            exact ⟨_, annotates, _, initialized, _, hasType, ⟨declares, known, differs⟩, rfl⟩

theorem broken?_eq_none_iff {scope : List Declaration} {declaration : Declaration} {rule : Rule} :
    broken? scope declaration rule = none ↔ ∀ finding, ¬ Breaks scope declaration rule finding := by
  simp only [Option.eq_none_iff_forall_ne_some, ne_eq, broken?_eq_some_iff]

theorem redeclarations_eq (scope : List Declaration) (declaration : Declaration) :
    redeclarations scope declaration = (broken? scope declaration .redeclared).toList := by
  rw [redeclarations, broken?]
  split <;> rfl

theorem unknownType_eq (scope : List Declaration) (declaration : Declaration) :
    unknownType declaration = (broken? scope declaration .unknownType).toList := by
  rw [unknownType, broken?]
  cases declaration.type? with
  | none => rfl
  | some name =>
      dsimp only [Option.bind_some]
      cases Primitive.ofText? name.text <;> rfl

theorem mismatch_eq (scope : List Declaration) (declaration : Declaration) {value : Value}
    (initialized : declaration.initializer? = some value) {actual : Primitive}
    (typed : valueType? scope declaration.name.text value = some actual) :
    mismatch declaration actual = (broken? scope declaration .mismatch).toList := by
  rw [mismatch, broken?, initialized]
  cases declaration.annotated? with
  | none => rfl
  | some declared =>
      simp only [Option.bind_some, typed]
      split <;> rfl

theorem valueIssues_eq (scope : List Declaration) (declaration : Declaration) :
    valueIssues scope declaration =
      (broken? scope declaration .unknownValue).toList ++
        (broken? scope declaration .mismatch).toList := by
  cases initialized : declaration.initializer? with
  | none =>
      rw [valueIssues, broken?, broken?, initialized]
      cases declaration.annotated? <;> rfl
  | some value =>
      cases value with
      | reference name =>
          simp only [valueIssues, initialized]
          split
          · rename_i missing
            have untyped : valueType? scope declaration.name.text (.reference name) = none :=
              if_pos missing
            have fitting : broken? scope declaration .mismatch = none := by
              rw [broken?, initialized]
              cases declaration.annotated? with
              | none => rfl
              | some declared => simp only [Option.bind_some, untyped, Option.bind_none]
            rw [fitting, broken?, initialized]
            simp only [missing, if_true]
            rfl
          · rename_i present
            rw [mismatch_eq scope declaration initialized (if_neg present)]
            simp only [broken?, initialized, present]
            rfl
      | _ =>
          rw [← mismatch_eq scope declaration initialized rfl, valueIssues, broken?, initialized]
          rfl

theorem declarationIssues_eq (scope : List Declaration) (declaration : Declaration) :
    declarationIssues scope declaration = Rule.all.filterMap (broken? scope declaration) := by
  rw [declarationIssues, redeclarations_eq, unknownType_eq scope, valueIssues_eq,
    List.filterMap_eq_flatMap_toList]
  simp only [Rule.all, List.flatMap_cons, List.flatMap_nil, List.append_nil, List.append_assoc]

theorem lists_iff {scope : List Declaration} {held : List (Declaration × Rule)}
    {listed : List (Finding TypeIssue)} :
    Lists scope held listed ↔
      listed = held.filterMap fun check => broken? scope check.1 check.2 := by
  constructor
  · intro lists
    induction lists with
    | nil => rfl
    | broken breaks others ih =>
        simp only [List.filterMap_cons, broken?_eq_some_iff.mpr breaks, ih]
    | kept keeps others ih =>
        simp only [List.filterMap_cons, broken?_eq_none_iff.mpr keeps, ih]
  · rintro rfl
    induction held with
    | nil => exact .nil
    | cons check rest ih =>
        cases found : broken? scope check.1 check.2 with
        | none =>
            simp only [List.filterMap_cons, found]
            exact .kept (broken?_eq_none_iff.mp found) ih
        | some finding =>
            simp only [List.filterMap_cons, found]
            exact .broken (broken?_eq_some_iff.mp found) ih

theorem flatMap_declarationIssues (scope declarations : List Declaration) :
    declarations.flatMap (declarationIssues scope) =
      (checks declarations).filterMap fun check => broken? scope check.1 check.2 := by
  rw [checks, List.filterMap_flatMap]
  apply List.flatMap_congr
  intro declaration _
  rw [declarationIssues_eq, List.filterMap_map]
  rfl

theorem prescribed_iff {scope : List Declaration} {scripts : List Script}
    {diagnostics : List Diagnostic} :
    Prescribed scope scripts diagnostics ↔
      diagnostics = scripts.flatMap fun script =>
        (scriptIssues scope script).map (TypeIssue.diagnostic script.file) := by
  constructor
  · intro prescribed
    induction prescribed with
    | nil => rfl
    | cons lists arranges others ih =>
        rw [List.flatMap_cons, ← ih, scriptIssues, flatMap_declarationIssues,
          ← lists_iff.mp lists, ← Finding.arranged_iff.mp arranges]
  · rintro rfl
    induction scripts with
    | nil => exact .nil
    | cons script rest ih =>
        have lists := lists_iff.mpr (flatMap_declarationIssues scope script.declarations)
        exact .cons lists (Finding.arranged_iff.mpr rfl) ih

/-- The checker reports what the rules prescribe, and the references that they follow
resolve to one type each, also where they lead in circles. -/
theorem semanticDiagnostics_eq_iff (scripts : List Script) :
    (∀ diagnostics, semanticDiagnostics scripts = diagnostics ↔
      Prescribed (scope scripts) scripts diagnostics) ∧
    ∀ own name, ∃ type, ∀ other, Resolves (scope scripts) own name other ↔ other = type := by
  constructor
  · intro diagnostics
    rw [prescribed_iff, semanticDiagnostics, eq_comm]
  · intro own name
    refine ⟨typeOf (withoutName (scope scripts) own) name, ?_⟩
    intro other
    rw [← typeOf_eq_iff, eq_comm]

end Program

end ShadowCheck
