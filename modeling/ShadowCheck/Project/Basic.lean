import ShadowCheck.Diagnostic.Basic
import ShadowCheck.Edition
import ShadowCheck.Json.Quoted
import ShadowCheck.Json.Reader
import ShadowCheck.Project.Comment

/-! Projects: the file that describes one, its options, and what can be wrong with it. -/

namespace ShadowCheck.Project

/-- A project file as a value. Its folder is the root of the project. -/
structure Document where
  path : Path
  value : Json.Value

namespace Document

def rootOf (path : Path) : Path :=
  path.parent?.getD ⟨"/"⟩

def root (document : Document) : Path :=
  rootOf document.path

end Document

structure Options where
  target : Edition
  allowJs : Bool
deriving DecidableEq, Repr

namespace Options

def default : Options := ⟨.default, false⟩

def extensions (options : Options) : List String :=
  if options.allowJs then [".ts", ".js"] else [".ts"]

end Options

inductive Issue
  | notAnObject (document : Path)
  | wrongType (option type : String)
  | unknownOption (name : String)
  | unknownTarget
  | noInputs (document : Path) (includes excludes : List String)
deriving DecidableEq, Repr

namespace Issue

def code : Issue → Nat
  | notAnObject _ => 5092
  | wrongType .. => 5024
  | unknownOption _ => 5023
  | unknownTarget => 6046
  | noInputs .. => 18003

def message : Issue → String
  | notAnObject document =>
      "The root value of a '" ++ document.text ++ "' file must be an object."
  | wrongType option type =>
      "Compiler option '" ++ option ++ "' requires a value of type " ++ type ++ "."
  | unknownOption name => "Unknown compiler option '" ++ name ++ "'."
  | unknownTarget =>
      "Argument for '--target' option must be: " ++
        ", ".intercalate (Edition.all.map fun edition => "'" ++ edition.text ++ "'") ++ "."
  | noInputs document includes excludes =>
      "No inputs were found in config file '" ++ document.text ++
        "'. Specified 'include' paths were '" ++ Json.quoteList includes ++
        "' and 'exclude' paths were '" ++ Json.quoteList excludes ++ "'."

def diagnostic (issue : Issue) : Diagnostic :=
  ⟨.project, .error, issue.code, issue.message⟩

end Issue

def malformedDiagnostic (path : Path) (malformed : Json.Malformed) : Diagnostic :=
  ⟨.spot path ⟨max malformed.line 1, max malformed.column 1⟩, .error, 5014, malformed.message⟩

/-- Reads the text of a project file; comments count as blanks. -/
def readText (path : Path) (text : String) : Except Diagnostic Json.Value :=
  match Json.read (Comment.blank text) with
  | .ok value => .ok value
  | .error malformed => .error (malformedDiagnostic path malformed)

end ShadowCheck.Project
