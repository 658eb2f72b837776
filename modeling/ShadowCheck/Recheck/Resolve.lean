import ShadowCheck.Recheck.Basic
import ShadowCheck.Transform.Shadow

/-!
From the path of a project file to a project. The file is read once; the document
it holds can be interpreted on any store.
-/

namespace ShadowCheck.Recheck

open Project

variable {m : Type → Type} [Monad m]

def loadDocument (store : FileSystem m) (config : Path) : m (Except Failure Document) := do
  let path := (← store.directory).resolve config
  if ← store.holds path then
    match ← store.read path with
    | none => return .error (.configUnreadable path)
    | some text =>
        match readText path text with
        | .ok value => return .ok ⟨path, value⟩
        | .error diagnostic => return .error (.configMalformed path diagnostic)
  else return .error (.configNotFound config)

/-- A project is an interpretation without issues. -/
def projectOf (document : Document) (interpretation : Interpretation) :
    Except Failure Project :=
  if interpretation.issues.isEmpty then
    .ok ⟨document.path, document.root, interpretation.files, interpretation.options⟩
  else .error (.configInvalid (interpretation.issues.map Issue.diagnostic))

def resolveDocument (store : FileSystem m) (document : Document) :
    m (Except Failure Project) := do
  return projectOf document (← interpret store document)

def resolve (store : FileSystem m) (config : Path) : m (Except Failure Project) := do
  match ← loadDocument store config with
  | .error failure => return .error failure
  | .ok document => resolveDocument store document

end ShadowCheck.Recheck
