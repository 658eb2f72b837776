import ShadowCheck.Script.Basic

/-!
Writing declarations as text. A token is written at its position when the page
has not passed that position yet; otherwise it follows what is there in the
spaced layout, one declaration a line. Every declaration ends in a semicolon.
-/

namespace ShadowCheck.Script

structure Page where
  text : String
  cursor : Position
deriving DecidableEq, Repr

namespace Page

def blank : Page := ⟨"", .start⟩

/-- Adds text that stays on the line. -/
def write (page : Page) (text : String) : Page :=
  ⟨page.text ++ text, ⟨page.cursor.line, page.cursor.column + text.length⟩⟩

def pad (page : Page) (count : Nat) : Page :=
  ⟨page.text ++ String.ofList (List.replicate count ' '),
    ⟨page.cursor.line, page.cursor.column + count⟩⟩

def newLine (page : Page) : Page :=
  ⟨page.text ++ "\n", ⟨page.cursor.line + 1, 1⟩⟩

def newLines (page : Page) : Nat → Page
  | 0 => page
  | count + 1 => page.newLine.newLines count

/-- Moves forward to a position, as far as it lies ahead. -/
def moveTo (page : Page) (target : Position) : Page :=
  let lined := page.newLines (target.line - page.cursor.line)
  lined.pad (target.column - lined.cursor.column)

end Page

/-- What separates a token from the one before it: the bare mark, the shortest
text that keeps the two apart, and the spaced text. -/
structure Separator where
  mark : String
  shortest : String
  spaced : String
deriving DecidableEq, Repr

namespace Separator

def blank : Separator := ⟨"", " ", " "⟩

def colon : Separator := ⟨":", ":", ": "⟩

def equals : Separator := ⟨"=", "=", " = "⟩

end Separator

namespace Page

/-- Columns between the cursor and a target on the same line. -/
def room (page : Page) (target : Position) : Nat :=
  if target.line = page.cursor.line then target.column - page.cursor.column else 0

/-- Writes a separator so that the next token starts at `target` if it can. -/
def separate (page : Page) (separator : Separator) (target : Position) : Page :=
  if page.cursor.line < target.line then (page.write separator.mark).moveTo target
  else
    let room := page.room target
    if separator.spaced.length ≤ room then
      (page.pad (room - separator.spaced.length)).write separator.spaced
    else if separator.shortest.length ≤ room then
      (page.write separator.shortest).pad (room - separator.shortest.length)
    else page.write separator.spaced

/-- A declaration starts at its position, or on a line of its own when the page is past it. -/
def startDeclaration (page : Page) (target : Position) : Page :=
  if page.cursor.le target then page.moveTo target
  else if page.text = "" then page
  else page.newLine

end Page

def escapeChar (quote c : Char) : List Char :=
  if c = '\\' then ['\\', '\\']
  else if c = '\n' then ['\\', 'n']
  else if c = '\r' then ['\\', 'r']
  else if c = '\x00' then ['\\', '0']
  else if c = quote then ['\\', c]
  else [c]

def escape (quote : Char) (value : List Char) : List Char :=
  value.flatMap (escapeChar quote)

def Value.text : Value → String
  | quoted _ value quote => String.ofList (quote :: escape quote value.toList ++ [quote])
  | number _ text => text
  | boolean _ value => if value then "true" else "false"
  | reference name => name.text

namespace Page

def writeType (page : Page) : Option Name → Page
  | none => page
  | some name => (page.separate .colon name.position).write name.text

def writeInitializer (page : Page) : Option Value → Page
  | none => page
  | some value => (page.separate .equals value.position).write value.text

def writeDeclaration (page : Page) (declaration : Declaration) : Page :=
  let start := (page.startDeclaration declaration.position).write declaration.keyword.text
  let named := (start.separate .blank declaration.name.position).write declaration.name.text
  let annotated := named.writeType declaration.type?
  (annotated.writeInitializer declaration.initializer?).write ";"

end Page

/-- The text of declarations; it ends in a line feed unless it is empty. -/
def printDeclarations (declarations : List Declaration) : String :=
  let page := declarations.foldl Page.writeDeclaration .blank
  if page.text = "" then "" else page.text ++ "\n"

def print (script : Script) : String :=
  printDeclarations script.declarations

end ShadowCheck.Script
