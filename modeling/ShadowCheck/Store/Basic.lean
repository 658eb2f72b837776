import ShadowCheck.Filter.FileFilter

/-! What a program can do with files, and the ways in which that can fail. -/

namespace ShadowCheck

inductive FileError
  | notFound (path : Path)
  | permissionDenied (path : Path)
  | device (text : String)
  | other (text : String)
deriving DecidableEq, Repr

namespace FileError

def message : FileError → String
  | notFound path => "File not found: " ++ path.text
  | permissionDenied path => "Permission denied: " ++ path.text
  | device text => "I/O error: " ++ text
  | other text => text

end FileError

inductive DeviceFault
  | notFound
  | permissionDenied
  | alreadyExists
  | invalidData
  | other
deriving DecidableEq, Repr

/-- The error for a device failure at a path. A missing file and a lack of
permission name the path, any other failure keeps its own text. -/
def FileError.ofDevice (path : Path) (fault : DeviceFault) (text : String) : FileError :=
  match fault with
  | .notFound => notFound path
  | .permissionDenied => permissionDenied path
  | _ => device text

/-- A store of files. Relative paths are meant from the current directory. A
listing is ordered, and a temporary directory is never handed out twice. -/
structure FileSystem (m : Type → Type) where
  directory : m Path
  caseSensitive : m Bool
  holds : Path → m Bool
  read : Path → m (Option String)
  list : Path → Selection → m (List Path)
  write : Path → String → m (Except FileError Unit)
  makeTemporary : m (Except FileError Path)
  removeTemporary : Path → m (Except FileError Unit)

end ShadowCheck
