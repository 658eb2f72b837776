import ShadowCheck.Diagnostic.Basic
import ShadowCheck.Edition

/-!
Scripts: lists of variable declarations. Every name, value and keyword carries
the position that it was read at.
-/

namespace ShadowCheck

namespace Script

inductive Keyword
  | constWord
  | letWord
  | varWord
deriving DecidableEq, Repr

namespace Keyword

def text : Keyword → String
  | constWord => "const"
  | letWord => "let"
  | varWord => "var"

def isBlockScoped : Keyword → Bool
  | varWord => false
  | _ => true

end Keyword

structure Name where
  text : String
  position : Position
deriving DecidableEq, Repr

/-- An initial value. A quoted value is held without escapes, a number as it is spelled. -/
inductive Value
  | quoted (position : Position) (value : String) (quote : Char)
  | number (position : Position) (text : String)
  | boolean (position : Position) (value : Bool)
  | reference (name : Name)
deriving DecidableEq, Repr

def Value.position : Value → Position
  | quoted position _ _ => position
  | number position _ => position
  | boolean position _ => position
  | reference name => name.position

structure Declaration where
  keyword : Keyword
  position : Position
  name : Name
  type? : Option Name
  initializer? : Option Value
deriving DecidableEq, Repr

inductive SyntaxIssue
  | invalidCharacter
  | unterminatedString
  | nameExpected
  | semicolonExpected
  | valueExpected
  | declarationExpected
  | constUninitialized
deriving DecidableEq, Repr

namespace SyntaxIssue

def code : SyntaxIssue → Nat
  | invalidCharacter => 1127
  | unterminatedString => 1002
  | nameExpected => 1003
  | semicolonExpected => 1005
  | valueExpected => 1109
  | declarationExpected => 1128
  | constUninitialized => 1155

def message : SyntaxIssue → String
  | invalidCharacter => "Invalid character."
  | unterminatedString => "Unterminated string literal."
  | nameExpected => "Identifier expected."
  | semicolonExpected => "';' expected."
  | valueExpected => "Expression expected."
  | declarationExpected => "Declaration or statement expected."
  | constUninitialized => "'const' declarations must be initialized."

end SyntaxIssue

end Script

open Script in
structure Script where
  file : Path
  edition : Edition
  declarations : List Declaration
  findings : List (Finding SyntaxIssue)
deriving DecidableEq, Repr

namespace Script

def SyntaxIssue.diagnostic (file : Path) (finding : Finding SyntaxIssue) : Diagnostic :=
  ⟨.spot file finding.position, .error, finding.issue.code, finding.issue.message⟩

def diagnostics (script : Script) : List Diagnostic :=
  script.findings.map (SyntaxIssue.diagnostic script.file)

end Script

end ShadowCheck
