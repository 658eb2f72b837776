import ShadowCheck.Store.Basic

/-!
A store with faults: some paths cannot be read or written, and temporary
directories may be refused. Paths are compared as they are passed.
-/

namespace ShadowCheck

structure Faults where
  unreadable : List Path
  readOnly : List Path
  broken : List Path
  noTemporary : Bool
  noRemoval : Bool
deriving DecidableEq, Repr

namespace Faults

private def names (paths : List Path) (path : Path) : Bool :=
  paths.any fun other => other.Same path

def guard [Monad m] (faults : Faults) (base : FileSystem m) : FileSystem m where
  directory := base.directory
  caseSensitive := base.caseSensitive
  holds := base.holds
  read path := if names faults.unreadable path then pure none else base.read path
  list := base.list
  write path text :=
    if names faults.readOnly path then pure (.error (.permissionDenied path))
    else if names faults.broken path then
      pure (.error (.ofDevice path .other "device broke"))
    else base.write path text
  makeTemporary :=
    if faults.noTemporary then pure (.error (.other "no space left")) else base.makeTemporary
  removeTemporary path :=
    if faults.noRemoval then pure (.error (.notFound path)) else base.removeTemporary path

end Faults

end ShadowCheck
