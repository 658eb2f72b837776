import ShadowCheck.Path.Basic

/-!
A disk: directories, files of bytes and symbolic links, each at its place, the
list of names that leads to it from the root. Looking up a path follows links
the way a file system does.
-/

namespace ShadowCheck

abbrev Place := List Bytes

inductive Node
  | directory
  | file (bytes : Bytes)
  | link (target : Path)
deriving DecidableEq, Repr

inductive DiskError
  | notFound
  | alreadyExists
  | notDirectory
  | isDirectory
  | nameTooLong
  | tooManyLinks
  | nullInName
  | noRoot
deriving DecidableEq, Repr

def DiskError.text : DiskError → String
  | notFound => "No such file or directory (os error 2)"
  | alreadyExists => "File exists (os error 17)"
  | notDirectory => "Not a directory (os error 20)"
  | isDirectory => "Is a directory (os error 21)"
  | nameTooLong => "File name too long (os error 36)"
  | tooManyLinks => "Too many levels of symbolic links (os error 40)"
  | nullInName => "file name contained an unexpected NUL byte"
  | noRoot => "failed to create whole tree"

structure Disk where
  directory : Path
  temporaryRoot : Path
  nodes : List (Place × Node)
  temporaries : List Path
  nextTemporary : Nat

namespace Disk

def nodeAt? (disk : Disk) (place : Place) : Option Node :=
  if place.isEmpty then some .directory else disk.nodes.lookup place

def isDirectoryAt (disk : Disk) (place : Place) : Bool :=
  disk.nodeAt? place == some .directory

/-- What a path leads to: a node, or a place in a directory where there is none. -/
inductive Lookup
  | found (place : Place) (node : Node)
  | absent (place : Place)

/-- What a path is looked up for. To inspect goes through a link at the end if
`followLast` is set; to write a file always does. -/
inductive Purpose
  | inspect (followLast : Bool)
  | writeFile
deriving DecidableEq, Repr

def Purpose.followsLast : Purpose → Bool
  | inspect followLast => followLast
  | writeFile => true

def longestName : Nat := 255

def longestPath : Nat := 4095

def mostLinks : Nat := 40

/-- The step that a segment asks for; unlike in a component list, every `.` is a
step, which only a directory allows. -/
def stepOfSegment? (segment : Bytes) : Option Component :=
  if segment = [dot] then some .current else Component.ofSegment? segment

def stepsOf (path : Path) : List Component :=
  let steps := (Path.segments path.bytes).filterMap stepOfSegment?
  if path.isAbsolute then .root :: steps else steps

def endsInSlash (path : Path) : Bool :=
  path.bytes.getLast? == some slash

/-- Takes steps from a place. `ended` tells that the steps end in a slash: what is
there must be a directory, and no file can be made. `links` bounds how many links
may be gone through. -/
def follow (disk : Disk) (purpose : Purpose) (ended : Bool) (links : Nat) (place : Place) :
    List Component → Except DiskError Lookup
  | [] =>
      match disk.nodeAt? place with
      | none => .error .notFound
      | some node =>
          if ended && node != .directory then .error .notDirectory
          else .ok (.found place node)
  | .root :: rest => follow disk purpose ended links [] rest
  | .current :: rest =>
      if disk.isDirectoryAt place then follow disk purpose ended links place rest
      else .error .notDirectory
  | .parent :: rest =>
      if disk.isDirectoryAt place then follow disk purpose ended links place.dropLast rest
      else .error .notDirectory
  | .name name :: rest =>
      if !disk.isDirectoryAt place then .error .notDirectory
      else if rest.isEmpty && ended && purpose = .writeFile then .error .isDirectory
      else if longestName < name.length then .error .nameTooLong
      else
        let inner := place ++ [name]
        match disk.nodeAt? inner with
        | none => if rest.isEmpty then .ok (.absent inner) else .error .notFound
        | some (.link target) =>
            if rest.isEmpty && !ended && !purpose.followsLast then
              .ok (.found inner (.link target))
            else
              match links with
              | 0 => .error .tooManyLinks
              | links + 1 =>
                  let ended := ended || (rest.isEmpty && endsInSlash target)
                  follow disk purpose ended links place (stepsOf target ++ rest)
        | some _ => follow disk purpose ended links inner rest
termination_by steps => (links, steps.length)

def lookup (disk : Disk) (purpose : Purpose) (path : Path) : Except DiskError Lookup :=
  if path.bytes.contains 0 then .error .nullInName
  else if path.bytes = [] then .error .notFound
  else if longestPath < path.bytes.length then .error .nameTooLong
  else disk.follow purpose (endsInSlash path) mostLinks [] (stepsOf (disk.directory.join path))

def isFile (disk : Disk) (path : Path) : Bool :=
  match disk.lookup (.inspect true) path with
  | .ok (.found _ (.file _)) => true
  | _ => false

def isDirectory (disk : Disk) (path : Path) : Bool :=
  match disk.lookup (.inspect true) path with
  | .ok (.found _ .directory) => true
  | _ => false

def read? (disk : Disk) (path : Path) : Option String :=
  match disk.lookup (.inspect true) path with
  | .ok (.found _ (.file bytes)) => String.fromUTF8? ⟨bytes.toArray⟩
  | _ => none

def put (disk : Disk) (place : Place) (node : Node) : Disk :=
  { disk with nodes := (place, node) :: disk.nodes.filter (·.1 != place) }

def makeDirectory (disk : Disk) (path : Path) : Except DiskError Disk :=
  match disk.lookup (.inspect false) path with
  | .ok (.absent place) => .ok (disk.put place .directory)
  | .ok (.found ..) => .error .alreadyExists
  | .error error => .error error

/-- The outcome of making a directory; a failure is none when the directory is there. -/
def settle (disk : Disk) (path : Path) : Except DiskError Disk → Except DiskError Unit × Disk
  | .ok made => (.ok (), made)
  | .error error => (if disk.isDirectory path then .ok () else .error error, disk)

/-- Makes a directory, and those above it as far as they are missing. What was made
before a failure stays. -/
def makeDirectories (disk : Disk) (path : Path) : Except DiskError Unit × Disk :=
  climb (path.components.length + 1) path
where
  climb : Nat → Path → Except DiskError Unit × Disk
    | 0, _ => (.error .noRoot, disk)
    | count + 1, path =>
        if path.bytes = [] then (.ok (), disk)
        else
          match disk.makeDirectory path with
          | .error .notFound =>
              match path.parent? with
              | none => (.error .noRoot, disk)
              | some parent =>
                  match climb count parent with
                  | (.error error, made) => (.error error, made)
                  | (.ok (), made) => made.settle path (made.makeDirectory path)
          | made => disk.settle path made

def writeFile (disk : Disk) (path : Path) (bytes : Bytes) : Except DiskError Disk :=
  match disk.lookup .writeFile path with
  | .ok (.found _ .directory) => .error .isDirectory
  | .ok (.found place _) => .ok (disk.put place (.file bytes))
  | .ok (.absent place) => .ok (disk.put place (.file bytes))
  | .error error => .error error

/-- Makes a directory the current one, under the path that goes through no links. -/
def enter (disk : Disk) (path : Path) : Except DiskError Disk :=
  match disk.lookup (.inspect true) path with
  | .ok (.found place .directory) =>
      .ok { disk with directory := Path.ofComponents (.root :: place.map .name) }
  | .ok (.found ..) => .error .notDirectory
  | .ok (.absent _) => .error .notFound
  | .error error => .error error

def filesBelow (disk : Disk) (place : Place) : List Place :=
  disk.nodes.filterMap fun entry =>
    match entry.2 with
    | .file _ => if place.isPrefixOf entry.1 then some (entry.1.drop place.length) else none
    | _ => none

def removeAll (disk : Disk) (place : Place) : Disk :=
  { disk with nodes := disk.nodes.filter fun entry => !place.isPrefixOf entry.1 }

def empty (directory temporaryRoot : Path) : Disk :=
  let bare : Disk := ⟨directory, temporaryRoot, [], [], 0⟩
  [directory, temporaryRoot].foldl (fun disk path => (disk.makeDirectories path).2) bare

end Disk

end ShadowCheck
