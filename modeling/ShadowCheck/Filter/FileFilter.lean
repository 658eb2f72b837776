import ShadowCheck.Filter.Rule
import ShadowCheck.Path.Normal

/-! Which files of a directory belong in a listing. -/

namespace ShadowCheck

/-- What a listing is asked for. Empty lists of extensions and includes ask for every file. -/
structure Selection where
  extensions : List String
  excludes : List String
  includes : List String
  depth : Option Nat
deriving DecidableEq, Repr

structure FileFilter where
  root : Path
  extensions : List String
  excludes : Option Filter.RuleList
  includes : Option Filter.RuleList
  depth : Option Nat

namespace FileFilter

def make (root : Path) (selection : Selection) (caseSensitive : Bool) : FileFilter :=
  { root
    extensions := selection.extensions
    excludes := Filter.RuleList.ofLines? root (!caseSensitive) selection.excludes
    includes := Filter.RuleList.ofLines? root (!caseSensitive) selection.includes
    depth := selection.depth }

@[simp] theorem root_make (root : Path) (selection : Selection) (caseSensitive : Bool) :
    (make root selection caseSensitive).root = root := rfl

def allowsExtension (filter : FileFilter) (path : Path) : Bool :=
  filter.extensions.isEmpty ||
    filter.extensions.any fun ending => ending.toList.isSuffixOf path.text.toList

def allowsPlace (filter : FileFilter) (path : Path) : Bool :=
  match Path.dropFront? filter.root.components path.components with
  | none => false
  | some below => !below.isEmpty && filter.depth.all fun depth => below.length ≤ depth + 1

/-- Whether a file is in the listing; there is no answer where the rules have none. -/
def admits? (filter : FileFilter) (path : Path) : Option Bool :=
  if !filter.allowsPlace path || !filter.allowsExtension path then some false
  else
    match filter.excludes.elim (some false) (·.ignores? path) with
    | none => none
    | some true => some false
    | some false => filter.includes.elim (some true) (·.ignores? path)

def admits (filter : FileFilter) (path : Path) : Bool :=
  filter.admits? path == some true

end FileFilter

end ShadowCheck
