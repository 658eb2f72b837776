import ShadowCheck.CommandLine

/-!
The program on the disk of the machine. Its calls are given the text that a path is shown as,
so it reaches the files whose paths are texts.
-/

namespace ShadowCheck

namespace MachineDisk

def errorText (code : UInt32) (details : String) : String :=
  details ++ " (os error " ++ toString code ++ ")"

def failure (path : Path) : IO.Error → FileError
  | .noFileOrDirectory .. => .notFound path
  | .permissionDenied .. => .permissionDenied path
  | .alreadyExists _ code details => .ofDevice path .alreadyExists (errorText code details)
  | .inappropriateType _ code details => .ofDevice path .other (errorText code details)
  | .invalidArgument _ code details => .ofDevice path .other (errorText code details)
  | .resourceExhausted _ code details => .ofDevice path .other (errorText code details)
  | .otherError code details => .ofDevice path .other (errorText code details)
  | error => .ofDevice path .other (toString error)

def isRegular (path : Path) : IO Bool :=
  try
    return (← (← IO.FS.realPath path.text).metadata).type == .file
  catch _ => return false

def readText (path : Path) : IO (Option String) :=
  try
    return some (← IO.FS.readFile path.text)
  catch _ => return none

/-- The regular files below a directory; links are not followed. -/
partial def filesBelow (directory : Path) : IO (List Path) := do
  try
    let entries ← (← IO.FS.realPath directory.text).readDir
    let found ← entries.toList.mapM fun entry => do
      let path := directory.join ⟨entry.fileName⟩
      match (← entry.path.symlinkMetadata).type with
      | .file => return [path]
      | .dir => filesBelow path
      | _ => return []
    return found.flatten
  catch _ => return []

def list (root : Path) (selection : Selection) : IO (List Path) := do
  let filter := FileFilter.make root selection true
  return ((← filesBelow root).filter filter.admits).mergeSort Path.le

def attempt (path : Path) (action : IO α) : IO (Except FileError α) :=
  try
    return .ok (← action)
  catch error => return .error (failure path error)

def write (path : Path) (text : String) : IO (Except FileError Unit) := do
  let parent := path.parent?.getD path
  match ← attempt parent (IO.FS.createDirAll parent.text) with
  | .error error => return .error error
  | .ok () => attempt path (IO.FS.writeFile path.text text)

def fileSystem : FileSystem IO where
  directory := return ⟨(← IO.currentDir).toString⟩
  caseSensitive := return true
  holds := isRegular
  read := readText
  list := list
  write := write
  makeTemporary := attempt ⟨""⟩ do return ⟨(← IO.FS.createTempDir).toString⟩
  removeTemporary path := attempt path (IO.FS.removeDirAll path.text)

end MachineDisk

end ShadowCheck

open ShadowCheck in
def main (arguments : List String) : IO UInt32 := do
  let answer ← CommandLine.answer MachineDisk.fileSystem (CommandLine.parse arguments)
  IO.print answer.output
  (← IO.getStderr).putStr answer.errors
  return answer.code.toUInt32
