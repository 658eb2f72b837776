import ShadowCheck.Project.Interpret
import ShadowCheck.Script.Parse
import ShadowCheck.Script.Print
import ShadowCheck.Store.Substitutions
import ShadowCheck.Transform.Chain

/-!
Writing the transformed scripts of a project below a shadow directory. Every
output that was written is recorded as a substitution for its name; an output
whose name is recorded already is reported and not written.
-/

namespace ShadowCheck

/-- A project ready to be worked on. -/
structure Project where
  path : Path
  root : Path
  files : List Path
  options : Project.Options
deriving DecidableEq, Repr

namespace Shadow

inductive WriteIssue
  | overwritten (target : Path)
  | failed (target : Path) (error : FileError)
deriving DecidableEq, Repr

namespace WriteIssue

def code : WriteIssue → Nat
  | overwritten _ => 5056
  | failed .. => 5033

def message : WriteIssue → String
  | overwritten target =>
      "Cannot write file '" ++ target.text ++
        "' because it would be overwritten by multiple input files."
  | failed target error =>
      "Could not write file '" ++ target.text ++ "': " ++ error.message ++ "."

def diagnostic (issue : WriteIssue) : Diagnostic :=
  ⟨.project, .error, issue.code, issue.message⟩

end WriteIssue

structure Outcome where
  substitutions : Substitutions
  diagnostics : List Diagnostic
deriving DecidableEq, Repr

namespace Outcome

def empty : Outcome := ⟨.empty, []⟩

def report (outcome : Outcome) (diagnostics : List Diagnostic) : Outcome :=
  { outcome with diagnostics := outcome.diagnostics ++ diagnostics }

def record (outcome : Outcome) (source target : Path) : Outcome :=
  { outcome with substitutions := outcome.substitutions.push ⟨source, target⟩ }

end Outcome

variable {m : Type → Type} [Monad m]

def writeOutput (store : FileSystem m) (shadow root : Path) (outcome : Outcome)
    (script : Script) : m Outcome :=
  let target := Path.shadowed shadow root script.file
  if outcome.substitutions.contains script.file then
    pure (outcome.report [(WriteIssue.overwritten target).diagnostic])
  else do
    match ← store.write target script.print with
    | .ok () => return outcome.record script.file target
    | .error error => return outcome.report [(WriteIssue.failed target error).diagnostic]

def writeOutputs (store : FileSystem m) (shadow root : Path) :
    Outcome → List Script → m Outcome
  | outcome, [] => pure outcome
  | outcome, script :: rest => do
      let outcome ← writeOutput store shadow root outcome script
      writeOutputs store shadow root outcome rest

/-- Transforms the text of one file: its own syntax errors, then what the chain reports. -/
def transformText (options : Project.Options) (chain : List Transformer) (file : Path)
    (text : String) : Transformed :=
  let script := Script.parse file .latest text
  let transformed := Transformer.runChain options chain script
  { transformed with reports := script.diagnostics ++ transformed.reports }

/-- Transforms one file and writes its outputs; a file that cannot be read is left out. -/
def transformFile (store : FileSystem m) (project : Project) (shadow : Path)
    (chain : List Transformer) (outcome : Outcome) (file : Path) : m Outcome := do
  match ← store.read file with
  | none => return outcome
  | some text =>
      let transformed := transformText project.options chain file text
      writeOutputs store shadow project.root (outcome.report transformed.reports)
        transformed.outputs

def transformFiles (store : FileSystem m) (project : Project) (shadow : Path)
    (chain : List Transformer) : Outcome → List Path → m Outcome
  | outcome, [] => pure outcome
  | outcome, file :: rest => do
      let outcome ← transformFile store project shadow chain outcome file
      transformFiles store project shadow chain outcome rest

def transformProject (store : FileSystem m) (project : Project) (shadow : Path)
    (chain : List Transformer) : m Outcome :=
  transformFiles store project shadow chain .empty project.files

end Shadow

end ShadowCheck
