import ShadowCheck.Project.Settings
import ShadowCheck.Store.Basic

/-!
A project as seen on one store: the named files, then the listed files that are
not named already.
-/

namespace ShadowCheck.Project

structure Interpretation where
  files : List Path
  options : Options
  issues : List Issue
deriving DecidableEq, Repr

def addListed (files : List Path) (listed : List Path) : List Path :=
  listed.foldl
    (fun files path => if files.any (·.Same path) then files else files ++ [path]) files

/-- The files of a project; listing happens only when patterns are asked for. -/
def projectFiles [Monad m] (store : FileSystem m) (root : Path) (settings : Settings) :
    m (List Path) :=
  match settings.patterns? with
  | none => pure (settings.namedFiles root)
  | some patterns => do
      let listed ← store.list root (settings.selection patterns)
      return addListed (settings.namedFiles root) listed

/-- A project without files is an issue of its own, if there is no other. -/
def emptinessIssues (document : Document) (settings : Settings) (files : List Path)
    (issues : List Issue) : List Issue :=
  if files.isEmpty && issues.isEmpty then
    [.noInputs document.path (settings.patterns?.getD []) settings.excludes]
  else []

def interpret [Monad m] (store : FileSystem m) (document : Document) : m Interpretation :=
  match document.value.fields? with
  | none => pure ⟨[], .default, [.notAnObject document.path]⟩
  | some fields => do
      let (settings, issues) := Settings.ofFields fields
      let files ← projectFiles store document.root settings
      return ⟨files, settings.options,
        issues ++ emptinessIssues document settings files issues⟩

end ShadowCheck.Project
