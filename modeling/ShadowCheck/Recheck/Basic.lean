import ShadowCheck.Diagnostic.Display
import ShadowCheck.Store.Basic
import ShadowCheck.Store.Substitutions

/-! What a run can give: a report, or the one failure that ended it. -/

namespace ShadowCheck.Recheck

inductive Failure
  | configNotFound (path : Path)
  | configUnreadable (path : Path)
  | configMalformed (path : Path) (diagnostic : Diagnostic)
  | configInvalid (diagnostics : List Diagnostic)
  | noShadow (error : FileError)
deriving DecidableEq, Repr

namespace Failure

def diagnostics : Failure → List Diagnostic
  | configMalformed _ diagnostic => [diagnostic]
  | configInvalid diagnostics => diagnostics
  | _ => []

def message : Failure → String
  | configNotFound path => "Configuration file " ++ path.text ++ " does not exist."
  | configUnreadable path => "Cannot read file '" ++ path.text ++ "'."
  | configMalformed _ diagnostic => diagnostic.message
  | configInvalid diagnostics =>
      "configuration has " ++ toString diagnostics.length ++ " error(s): " ++
        (diagnostics.head?.map (·.message)).getD ""
  | noShadow error => "could not create shadow directory: " ++ error.message

/-- A failure as text: its diagnostics if it has any, else its message. -/
def render (failure : Failure) (display : Display) : String :=
  match failure.diagnostics with
  | [] => failure.message
  | diagnostics => String.join (diagnostics.map display.line)

end Failure

/-- What a run found, before and after the transformed files took their places. -/
structure Report where
  shadow : Path
  substitutions : Substitutions
  transformDiagnostics : List Diagnostic
  diagnostics : List Diagnostic
deriving DecidableEq, Repr

namespace Report

def allDiagnostics (report : Report) : List Diagnostic :=
  report.transformDiagnostics ++ report.diagnostics

def isClean (report : Report) : Bool :=
  report.transformDiagnostics.isEmpty && report.diagnostics.isEmpty

def errorCount (report : Report) : Nat :=
  report.allDiagnostics.countP (·.isError)

end Report

end ShadowCheck.Recheck
