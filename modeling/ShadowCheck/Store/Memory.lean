import ShadowCheck.Store.Basic

/-!
A store in memory: texts under normal paths. Every path that was written is kept
on record, whether or not its text is still there.
-/

namespace ShadowCheck

structure Entry where
  path : Path
  text : String
deriving DecidableEq, Repr

structure Memory where
  directory : Path
  entries : List Entry
  writes : List Path
  temporaries : List Path
  nextTemporary : Nat
deriving DecidableEq, Repr

namespace Memory

/-- A store that holds the given entries, their paths seen from `directory`. -/
def ofEntries (directory : Path) (entries : List Entry) : Memory :=
  { directory
    entries := entries.map fun entry => { entry with path := directory.resolve entry.path }
    writes := []
    temporaries := []
    nextTemporary := 0 }

def locate (memory : Memory) (path : Path) : Path :=
  memory.directory.resolve path

def find? (memory : Memory) (path : Path) : Option Entry :=
  memory.entries.find? fun entry => entry.path.Same (memory.locate path)

def read? (memory : Memory) (path : Path) : Option String :=
  (memory.find? path).map (·.text)

def holds (memory : Memory) (path : Path) : Bool :=
  memory.entries.any fun entry => entry.path.Same (memory.locate path)

/-- The paths below `root` that a selection asks for, in order and each once. -/
def list (memory : Memory) (root : Path) (selection : Selection) : List Path :=
  let filter := FileFilter.make (memory.locate root) selection true
  Path.distinct (((memory.entries.map (·.path)).filter filter.admits).mergeSort Path.le)

/-- Replaces the text of the first entry at a path, or adds an entry at the end. -/
def writeEntry (path : Path) (text : String) : List Entry → List Entry
  | [] => [⟨path, text⟩]
  | entry :: rest =>
      if entry.path.Same path then { entry with text } :: rest
      else entry :: writeEntry path text rest

theorem text_writeEntry (path : Path) (text : String) (entries : List Entry) (wanted : Path) :
    ((writeEntry path text entries).find? fun entry => entry.path.Same wanted).map (·.text) =
      if path.Same wanted then some text
      else (entries.find? fun entry => entry.path.Same wanted).map (·.text) := by
  induction entries with
  | nil => by_cases h : path.Same wanted <;> simp [writeEntry, h]
  | cons entry rest ih =>
      by_cases same : entry.path.Same path
      · by_cases h : path.Same wanted
        · simp [writeEntry, same, h, same.trans h]
        · have off : ¬ entry.path.Same wanted := fun other => h (same.symm.trans other)
          simp [writeEntry, same, h, off]
      · by_cases here : entry.path.Same wanted
        · have off : ¬ path.Same wanted := fun other => same (here.trans other.symm)
          simp [writeEntry, same, here, off]
        · simpa [writeEntry, same, here] using ih

def write (memory : Memory) (path : Path) (text : String) : Memory :=
  let path := memory.locate path
  { memory with
    writes := memory.writes ++ [path]
    entries := writeEntry path text memory.entries }

theorem read?_write (memory : Memory) (path : Path) (text : String) (wanted : Path) :
    (memory.write path text).read? wanted =
      if (memory.locate path).Same (memory.locate wanted) then some text
      else memory.read? wanted :=
  text_writeEntry (memory.locate path) text memory.entries (memory.locate wanted)

def temporaryName (index : Nat) : String :=
  "recheck-shadow-" ++ toString index

@[irreducible]
def temporaryPath (index : Nat) : Path :=
  Path.join ⟨"/tmp"⟩ ⟨temporaryName index⟩

def makeTemporary (memory : Memory) : Path × Memory :=
  let path := temporaryPath memory.nextTemporary
  (path, { memory with
    temporaries := memory.temporaries ++ [path]
    nextTemporary := memory.nextTemporary + 1 })

def removeTemporary (memory : Memory) (path : Path) : Memory :=
  let path := memory.locate path
  { memory with
    temporaries := memory.temporaries.filter fun other => ¬ other.Same path
    entries := memory.entries.filter fun entry => !entry.path.startsWith path }

def fileSystem : FileSystem (StateM Memory) where
  directory := return (← get).directory
  caseSensitive := return true
  holds path := return (← get).holds path
  read path := return (← get).read? path
  list root selection := return (← get).list root selection
  write path text := do
    modify (·.write path text)
    return .ok ()
  makeTemporary := do
    let (path, memory) := (← get).makeTemporary
    set memory
    return .ok path
  removeTemporary path := do
    modify (·.removeTemporary path)
    return .ok ()

end Memory

end ShadowCheck
