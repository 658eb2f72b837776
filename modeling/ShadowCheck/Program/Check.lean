import ShadowCheck.Program.Primitive

/-!
Type checking of a program: a list of scripts that share one scope. A reference
has the type of the first declaration of its name, followed from name to name
until an annotation or a literal settles it; a name that leads nowhere, or back
to itself, is of every type.
-/

namespace ShadowCheck.Program

open ShadowCheck.Script

inductive TypeIssue
  | redeclared (name : String)
  | unknownName (name : String)
  | mismatch (actual declared : Primitive)
deriving DecidableEq, Repr

namespace TypeIssue

def code : TypeIssue → Nat
  | redeclared _ => 2451
  | unknownName _ => 2304
  | mismatch .. => 2322

def message : TypeIssue → String
  | redeclared name => "Cannot redeclare block-scoped variable '" ++ name ++ "'."
  | unknownName name => "Cannot find name '" ++ name ++ "'."
  | mismatch actual declared =>
      "Type '" ++ actual.text ++ "' is not assignable to type '" ++ declared.text ++ "'."

def diagnostic (file : Path) (finding : Finding TypeIssue) : Diagnostic :=
  ⟨.spot file finding.position, .error, finding.issue.code, finding.issue.message⟩

end TypeIssue

def declarationsOf (scope : List Declaration) (name : String) : List Declaration :=
  scope.filter fun declaration => declaration.name.text = name

def withoutName (scope : List Declaration) (name : String) : List Declaration :=
  scope.filter fun declaration => declaration.name.text ≠ name

def firstOf? (scope : List Declaration) (name : String) : Option Declaration :=
  scope.find? fun declaration => declaration.name.text = name

theorem length_withoutName_lt {scope : List Declaration} {name : String}
    {declaration : Declaration} (found : firstOf? scope name = some declaration) :
    (withoutName scope name).length < scope.length := by
  apply List.length_filter_lt_length_iff_exists.mpr
  exact ⟨declaration, List.mem_of_find?_eq_some found, by simpa using List.find?_some found⟩

/-- The type of a name. Each name that was passed on the way is out of scope, so
a chain that comes back to one of them is of every type. -/
def typeOf (scope : List Declaration) (name : String) : Primitive :=
  match _found : firstOf? scope name with
  | none => .any
  | some declaration =>
      match declaration.annotated?, declaration.initializer? with
      | some type, _ => type
      | none, none => .any
      | none, some (.reference next) => typeOf (withoutName scope name) next.text
      | none, some value => value.primitive?.getD .any
termination_by scope.length
decreasing_by exact length_withoutName_lt _found

/-- A name declared more than once clashes when one of its declarations is block scoped. -/
def isRedeclared (scope : List Declaration) (name : String) : Bool :=
  let found := declarationsOf scope name
  1 < found.length && found.any (·.keyword.isBlockScoped)

def redeclarations (scope : List Declaration) (declaration : Declaration) :
    List (Finding TypeIssue) :=
  if isRedeclared scope declaration.name.text then
    [⟨declaration.name.position, .redeclared declaration.name.text⟩]
  else []

def unknownType (declaration : Declaration) : List (Finding TypeIssue) :=
  match declaration.type? with
  | none => []
  | some name =>
      match Primitive.ofText? name.text with
      | some _ => []
      | none => [⟨name.position, .unknownName name.text⟩]

def mismatch (declaration : Declaration) (actual : Primitive) : List (Finding TypeIssue) :=
  match declaration.annotated? with
  | none => []
  | some declared =>
      if declared.accepts actual then []
      else [⟨declaration.name.position, .mismatch actual declared⟩]

/-- The value of a declaration: a reference must be declared somewhere, and the
type of the value must suit the annotation. -/
def valueIssues (scope : List Declaration) (declaration : Declaration) :
    List (Finding TypeIssue) :=
  match declaration.initializer? with
  | none => []
  | some (.reference name) =>
      if (firstOf? scope name.text).isNone then [⟨name.position, .unknownName name.text⟩]
      else mismatch declaration (typeOf (withoutName scope declaration.name.text) name.text)
  | some value => mismatch declaration (value.primitive?.getD .any)

def declarationIssues (scope : List Declaration) (declaration : Declaration) :
    List (Finding TypeIssue) :=
  redeclarations scope declaration ++ unknownType declaration ++
    valueIssues scope declaration

def scriptIssues (scope : List Declaration) (script : Script) : List (Finding TypeIssue) :=
  Finding.sort (script.declarations.flatMap (declarationIssues scope))

def scope (scripts : List Script) : List Declaration :=
  scripts.flatMap (·.declarations)

def semanticDiagnostics (scripts : List Script) : List Diagnostic :=
  scripts.flatMap fun script =>
    (scriptIssues (scope scripts) script).map (TypeIssue.diagnostic script.file)

def syntacticDiagnostics (scripts : List Script) : List Diagnostic :=
  scripts.flatMap (·.diagnostics)

/-- Type errors first, then syntax errors. -/
def diagnostics (scripts : List Script) : List Diagnostic :=
  semanticDiagnostics scripts ++ syntacticDiagnostics scripts

end ShadowCheck.Program
