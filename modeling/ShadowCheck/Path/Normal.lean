import ShadowCheck.Path.Basic

/-!
The normal form of a path: no `.`, and `..` only at the front of a relative
path. Resolution against a base, the path below a root, and the place of an
output below a shadow directory are all read off normal forms.
-/

namespace ShadowCheck

/-- Follows one component from a place given as a stack, its last component first. -/
def Component.follow : List Component → Component → List Component
  | stack, .current => stack
  | .name _ :: below, .parent => below
  | .root :: below, .parent => .root :: below
  | stack, component => component :: stack

namespace Path

def normalComponents (path : Path) : List Component :=
  (path.components.foldl Component.follow []).reverse

def normalize (path : Path) : Path :=
  ofComponents path.normalComponents

def resolve (base path : Path) : Path :=
  if path.isAbsolute then path.normalize else (base.join path).normalize

def dropFront? : List Component → List Component → Option (List Component)
  | [], rest => some rest
  | _ :: _, [] => none
  | wanted :: front, component :: rest =>
      if wanted = component then dropFront? front rest else none

def relativeTo? (root path : Path) : Option Path :=
  (dropFront? root.normalComponents path.normalComponents).map ofComponents

/-- Directory below the shadow directory for outputs from outside the root. -/
def externalDirectory : Path := ⟨"__external__"⟩

/-- Where an output is written: below `shadow` as it lies below `root`, or by its
names below the external directory when it is not below `root`. -/
def shadowed (shadow root output : Path) : Path :=
  match relativeTo? root output with
  | some below => shadow.join below
  | none =>
      (output.normalComponents.filter Component.isName).foldl
        (fun folder component => folder.join ⟨component.bytes⟩)
        (shadow.join externalDirectory)

end Path

end ShadowCheck
