import ShadowCheck.Path.Basic

/-! Places in a text, and issues reported about a file, a place in it, or a whole project. -/

namespace ShadowCheck

/-- Line and column, both counted from one in a text. A text may be of any length, so they
have no upper bound. -/
structure Position where
  line : Nat
  column : Nat
deriving DecidableEq, Repr, Inhabited

namespace Position

def start : Position := ⟨1, 1⟩

/-- The position after a character; only a line feed begins a line. -/
def advance (position : Position) (c : Char) : Position :=
  if c = '\n' then ⟨position.line + 1, 1⟩ else ⟨position.line, position.column + 1⟩

def after (position : Position) (text : List Char) : Position :=
  text.foldl advance position

def le (left right : Position) : Bool :=
  left.line < right.line || (left.line == right.line && left.column ≤ right.column)

@[simp] theorem after_nil (position : Position) : position.after [] = position := rfl

@[simp] theorem after_cons (position : Position) (c : Char) (text : List Char) :
    position.after (c :: text) = (position.advance c).after text := rfl

theorem after_append (position : Position) (front text : List Char) :
    position.after (front ++ text) = (position.after front).after text :=
  List.foldl_append

end Position

/-- Something found at a position of a text whose file is known from elsewhere. -/
structure Finding (α : Type) where
  position : Position
  issue : α
deriving DecidableEq, Repr

namespace Finding

/-- Sorts by position and keeps the order of findings at one position. -/
def sort (findings : List (Finding α)) : List (Finding α) :=
  findings.mergeSort fun left right => left.position.le right.position

end Finding

inductive Severity
  | error
  | warning
  | message
deriving DecidableEq, Repr

def Severity.text : Severity → String
  | error => "error"
  | warning => "warning"
  | message => "message"

inductive Location
  | project
  | file (path : Path)
  | spot (path : Path) (position : Position)
deriving DecidableEq, Repr

namespace Location

def file? : Location → Option Path
  | project => none
  | file path => some path
  | spot path _ => some path

def position? : Location → Option Position
  | spot _ position => some position
  | _ => none

end Location

structure Diagnostic where
  location : Location
  severity : Severity
  code : Nat
  message : String
deriving DecidableEq, Repr

namespace Diagnostic

def isError (diagnostic : Diagnostic) : Bool :=
  diagnostic.severity == .error

end Diagnostic

end ShadowCheck
