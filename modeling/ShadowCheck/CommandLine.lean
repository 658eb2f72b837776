import ShadowCheck.Recheck.Run

/-!
The command line: one project file, a flag for more output, help and version.
Diagnostics go to the error output; a run itself never fails.
-/

namespace ShadowCheck.CommandLine

inductive Refusal
  | missingArgument
  | unexpectedArgument
  | invalidValue
  | unexpectedValue
deriving DecidableEq, Repr

def Refusal.message : Refusal → String
  | missingArgument => "error: one or more required arguments were not provided\n"
  | unexpectedArgument => "error: unexpected argument found\n"
  | invalidValue => "error: one of the values isn't valid for an argument\n"
  | unexpectedValue => "error: unexpected value for an argument found\n"

inductive Flag
  | verbose
  | help
  | version
deriving DecidableEq, Repr

namespace Flag

def ofLong? (name : List Char) : Option Flag :=
  match String.ofList name with
  | "verbose" => some verbose
  | "help" => some help
  | "version" => some version
  | _ => none

def ofShort? (c : Char) : Option Flag :=
  if c = 'v' then some verbose
  else if c = 'h' then some help
  else if c = 'V' then some version
  else none

end Flag

inductive Command
  | check (config : Path)
  | help
  | version
  | refuse (refusal : Refusal)
deriving DecidableEq, Repr

/-- What a flag leads to at once; a project file without a name is refused first. -/
def flagCommand? (config : Option String) (flag : Flag) : Option Command :=
  if config = some "" then some (.refuse .invalidValue)
  else
    match flag with
    | .verbose => none
    | .help => some .help
    | .version => some .version

def clusterCommand? (config : Option String) : List Char → Option Command
  | [] => none
  | c :: rest =>
      match Flag.ofShort? c with
      | none => some (.refuse .unexpectedArgument)
      | some flag => (flagCommand? config flag).or (clusterCommand? config rest)

def longCommand? (config : Option String) (text : List Char) : Option Command :=
  match Flag.ofLong? (text.takeWhile (· != '=')) with
  | none => some (.refuse .unexpectedArgument)
  | some flag =>
      if text.contains '=' then some (.refuse .unexpectedValue)
      else flagCommand? config flag

/-- Reads arguments in order; `plain` tells that no flags follow. -/
def parseFrom (config : Option String) (plain : Bool) : List String → Command
  | [] =>
      match config with
      | none => .refuse .missingArgument
      | some text => if text = "" then .refuse .invalidValue else .check ⟨text⟩
  | argument :: rest =>
      let asFile :=
        if config.isSome then .refuse .unexpectedArgument
        else parseFrom (some argument) plain rest
      if plain then asFile
      else
        match argument.toList with
        | ['-', '-'] => parseFrom config true rest
        | '-' :: '-' :: text => (longCommand? config text).getD (parseFrom config plain rest)
        | '-' :: c :: text =>
            (clusterCommand? config (c :: text)).getD (parseFrom config plain rest)
        | _ => asFile

def parse (arguments : List String) : Command :=
  parseFrom none false arguments

def helpLines : List String :=
  ["Re-type-check a project after running whole-file AST transformers over it",
    "",
    "Usage: ",
    "",
    "Arguments:",
    "  <CONFIG>  Path to the project configuration (tsconfig.json)",
    "",
    "Options:",
    "  -v, --verbose...  Verbosity level (-v, -vv)",
    "  -h, --help        Print help",
    "  -V, --version     Print version"]

def helpText : String :=
  String.join (helpLines.map (· ++ "\n"))

def versionText : String := "recheck 0.1.0\n"

/-- What the program writes, and the code it ends with. -/
structure Answer where
  code : Nat
  output : String
  errors : String
deriving DecidableEq, Repr

def answer [Monad m] (store : FileSystem m) : Command → m Answer
  | .help => pure ⟨0, helpText, ""⟩
  | .version => pure ⟨0, versionText, ""⟩
  | .refuse refusal => pure ⟨2, "", refusal.message⟩
  | .check config => do
      let lines ← Recheck.recheck store false config []
      return ⟨0, "", String.join lines⟩

end ShadowCheck.CommandLine
