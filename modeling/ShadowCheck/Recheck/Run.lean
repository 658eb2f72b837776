import ShadowCheck.Program.Load
import ShadowCheck.Recheck.Resolve
import ShadowCheck.Store.Overlay

/-!
A run. The files of a project are transformed into a fresh shadow directory; then
the same project file is interpreted on the store where the transformed files
have taken the places of the old ones, and that project is type checked.
-/

namespace ShadowCheck.Recheck

open Project

variable {m : Type → Type} [Monad m]

def checkProject (store : FileSystem m) (project : Project) : m (List Diagnostic) := do
  return Program.diagnostics (← Program.load store project.options.target project.files)

def checkDocument (store : FileSystem m) (document : Document) :
    m (Except Failure (List Diagnostic)) := do
  match ← resolveDocument store document with
  | .error failure => return .error failure
  | .ok project => return .ok (← checkProject store project)

/-- Removes the shadow directory, unless it is to be kept; a failure is no concern. -/
def release (store : FileSystem m) (keepShadow : Bool) (shadow : Path) : m Unit :=
  if keepShadow then pure () else discard (store.removeTemporary shadow)

def executeIn (store : FileSystem m) (keepShadow : Bool) (document : Document)
    (project : Project) (chain : List Transformer) (shadow : Path) :
    m (Except Failure Report) := do
  let outcome ← Shadow.transformProject store project shadow chain
  let checked ← checkDocument (outcome.substitutions.overlay store) document
  release store keepShadow shadow
  return checked.map fun diagnostics =>
    ⟨shadow, outcome.substitutions, outcome.diagnostics, diagnostics⟩

def execute (store : FileSystem m) (keepShadow : Bool) (config : Path)
    (chain : List Transformer) : m (Except Failure Report) := do
  match ← loadDocument store config with
  | .error failure => return .error failure
  | .ok document =>
      match ← resolveDocument store document with
      | .error failure => return .error failure
      | .ok project =>
          match ← store.makeTemporary with
          | .error error => return .error (.noShadow error)
          | .ok shadow => executeIn store keepShadow document project chain shadow

def recheck (store : FileSystem m) (keepShadow : Bool) (config : Path)
    (chain : List Transformer) : m (List String) := do
  let display : Display := ⟨← store.directory, Display.platformNewLine⟩
  match ← execute store keepShadow config chain with
  | .ok report => return report.allDiagnostics.map display.line
  | .error failure => return [failure.render display]

end ShadowCheck.Recheck
