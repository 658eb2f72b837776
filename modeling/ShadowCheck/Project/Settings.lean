import ShadowCheck.Project.Basic
import ShadowCheck.Filter.FileFilter

/-!
What a project file asks for, read off its value alone. Settings of a wrong type
are reported and then count as absent.
-/

namespace ShadowCheck.Project

abbrev Checked (α : Type) := α × List Issue

structure Settings where
  options : Options
  files : Option (List String)
  includes : Option (List String)
  excludes : List String
deriving DecidableEq, Repr

def readTarget (options : Options) (value : Json.Value) : Checked Options :=
  match value.string? with
  | none => (options, [.wrongType "target" "string"])
  | some text =>
      match Edition.ofText? text with
      | none => (options, [.unknownTarget])
      | some target => ({ options with target }, [])

def readAllowJs (options : Options) (value : Json.Value) : Checked Options :=
  match value.boolean? with
  | none => (options, [.wrongType "allowJs" "boolean"])
  | some allowJs => ({ options with allowJs }, [])

def readOption (options : Options) (name : String) (value : Json.Value) : Checked Options :=
  if name = "target" then readTarget options value
  else if name = "allowJs" then readAllowJs options value
  else (options, [.unknownOption name])

def readOptions (options : Options) : List (String × Json.Value) → Checked Options
  | [] => (options, [])
  | (name, value) :: rest =>
      let first := readOption options name value
      let others := readOptions first.1 rest
      (others.1, first.2 ++ others.2)

def readCompilerOptions : Option Json.Value → Checked Options
  | none => (.default, [])
  | some (.object fields) => readOptions .default fields
  | some _ => (.default, [.wrongType "compilerOptions" "object"])

/-- A list of strings; where `single` is set, one string stands for a list of it. -/
def readStrings (option : String) (single : Bool) :
    Option Json.Value → Checked (Option (List String))
  | none => (none, [])
  | some (.string text) =>
      if single then (some [text], []) else (none, [.wrongType option "Array"])
  | some (.array items) =>
      match items.mapM Json.Value.string? with
      | some strings => (some strings, [])
      | none => (none, [.wrongType option "Array"])
  | some _ => (none, [.wrongType option "Array"])

namespace Settings

def defaultExcludes : List String := ["node_modules"]

def defaultIncludes : List String := ["**/*"]

def ofFields (fields : List (String × Json.Value)) : Checked Settings :=
  let options := readCompilerOptions (fields.lookup "compilerOptions")
  let files := readStrings "files" false (fields.lookup "files")
  let includes := readStrings "include" true (fields.lookup "include")
  let excludes := readStrings "exclude" false (fields.lookup "exclude")
  (⟨options.1, files.1, includes.1, excludes.1.getD defaultExcludes⟩,
    options.2 ++ files.2 ++ includes.2 ++ excludes.2)

/-- The patterns that files are listed by; none when the project only names files. -/
def patterns? (settings : Settings) : Option (List String) :=
  match settings.files, settings.includes with
  | _, some includes => some includes
  | none, none => some defaultIncludes
  | some _, none => none

def namedFiles (settings : Settings) (root : Path) : List Path :=
  (settings.files.getD []).map fun file : String => root.resolve ⟨file⟩

def selection (settings : Settings) (patterns : List String) : Selection :=
  { extensions := settings.options.extensions
    excludes := settings.excludes
    includes := patterns
    depth := none }

end Settings

end ShadowCheck.Project
