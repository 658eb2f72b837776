import ShadowCheck.Store.Basic
import ShadowCheck.Store.Substitutions

/-!
A store seen through substitutions: a substituted path reads as its target, and
listings show the substituted paths only, whatever they are asked for.
-/

namespace ShadowCheck

namespace Substitutions

def overlay [Monad m] (table : Substitutions) (base : FileSystem m) : FileSystem m where
  directory := base.directory
  caseSensitive := pure true
  holds path := if table.contains path then pure true else base.holds path
  read path := base.read ((table.lookup? path).getD path)
  list _ _ := pure table.sources
  write := base.write
  makeTemporary := base.makeTemporary
  removeTemporary := base.removeTemporary

end Substitutions

end ShadowCheck
