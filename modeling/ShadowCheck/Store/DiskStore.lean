import ShadowCheck.Store.Basic
import ShadowCheck.Store.Disk

/-! A disk as a store of texts. Listings find regular files and do not go through links. -/

namespace ShadowCheck

namespace Disk

def failure (path : Path) (error : DiskError) : FileError :=
  .ofDevice path (if error = .notFound then .notFound else .other) error.text

/-- Writes a text, making the directories above it. -/
def write (disk : Disk) (path : Path) (text : String) : Except FileError Unit × Disk :=
  let parent := path.parent?
  match parent.elim (.ok (), disk) disk.makeDirectories with
  | (.error error, disk) => (.error (failure (parent.getD path) error), disk)
  | (.ok (), disk) =>
      match disk.writeFile path text.toUTF8.toList with
      | .error error => (.error (failure path error), disk)
      | .ok disk => (.ok (), disk)

def list (disk : Disk) (root : Path) (selection : Selection) : List Path :=
  let filter := FileFilter.make root selection true
  match disk.lookup (.inspect true) root with
  | .ok (.found place _) =>
      let paths := (disk.filesBelow place).map fun names =>
        names.foldl (fun path name => path.join ⟨name⟩) root
      (paths.filter filter.admits).mergeSort Path.le
  | _ => []

def makeTemporary (disk : Disk) : Except FileError Path × Disk :=
  let path := disk.temporaryRoot.join ⟨"recheck-" ++ toString disk.nextTemporary⟩
  match disk.makeDirectory path with
  | .error error => (.error (failure path error), disk)
  | .ok disk => (.ok path, { disk with
      temporaries := disk.temporaries ++ [path]
      nextTemporary := disk.nextTemporary + 1 })

def removeTemporary (disk : Disk) (path : Path) : Except FileError Unit × Disk :=
  if disk.temporaries.any (·.Same path) then
    let kept := disk.temporaries.filter fun other => ¬ other.Same path
    match disk.lookup (.inspect false) path with
    | .ok (.found place _) => (.ok (), { disk.removeAll place with temporaries := kept })
    | .ok (.absent _) => (.error (.notFound path), { disk with temporaries := kept })
    | .error error => (.error (failure path error), { disk with temporaries := kept })
  else (.error (.notFound path), disk)

def fileSystem : FileSystem (StateM Disk) where
  directory := return (← get).directory
  caseSensitive := return true
  holds path := return (← get).isFile path
  read path := return (← get).read? path
  list root selection := return (← get).list root selection
  write path text := modifyGet (·.write path text)
  makeTemporary := modifyGet (·.makeTemporary)
  removeTemporary path := modifyGet (·.removeTemporary path)

end Disk

end ShadowCheck
