import ShadowCheck.Diagnostic.Basic
import ShadowCheck.Path.Normal

/-!
Diagnostics as lines of text, `file(line,column): error TS1234: message`. A file
below the current directory goes by its path from there, any other by its own path,
and either is written as it is shown.
-/

namespace ShadowCheck

structure Display where
  directory : Path
  newLine : String

namespace Display

def platformNewLine : String := "\n"

/-- The path that a file goes by. -/
def pathFor (display : Display) (file : Path) : Path :=
  match Path.relativeTo? display.directory file with
  | some below => if below.bytes = [] then file else below
  | none => file

def fileName (display : Display) (file : Path) : String :=
  (display.pathFor file).text

def location (display : Display) : Location → String
  | .project => ""
  | .file path => display.fileName path ++ ": "
  | .spot path position =>
      display.fileName path ++ "(" ++ toString position.line ++ "," ++
        toString position.column ++ "): "

def line (display : Display) (diagnostic : Diagnostic) : String :=
  display.location diagnostic.location ++ diagnostic.severity.text ++ " TS" ++
    toString diagnostic.code ++ ": " ++ diagnostic.message ++ display.newLine

end Display

end ShadowCheck
