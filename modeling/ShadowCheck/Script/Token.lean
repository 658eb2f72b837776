import ShadowCheck.Script.Basic
import ShadowCheck.Script.Piece

/-!
Tokens: the pieces of a script that carry meaning, with their positions. Blanks,
comments and invalid characters stand between tokens; a token knows whether a
line feed stands between it and the token before.
-/

namespace ShadowCheck.Script

inductive Lexeme
  | keyword (keyword : Keyword)
  | boolean (value : Bool)
  | name (text : String)
  | quoted (value : String) (quote : Char)
  | number (text : String)
  | mark (kind : Mark)
deriving DecidableEq, Repr

namespace Lexeme

def unescapeChar (c : Char) : Char :=
  if c = 'n' then '\n'
  else if c = 't' then '\t'
  else if c = 'r' then '\r'
  else if c = '0' then '\x00'
  else c

/-- The value of a string as written between its quotes; a backslash with
nothing after it stands for nothing. -/
def unescape : List Char → List Char
  | [] => []
  | '\\' :: [] => []
  | '\\' :: c :: rest => unescapeChar c :: unescape rest
  | c :: rest => c :: unescape rest

def ofWord (text : List Char) : Lexeme :=
  match String.ofList text with
  | "const" => keyword .constWord
  | "let" => keyword .letWord
  | "var" => keyword .varWord
  | "true" => boolean true
  | "false" => boolean false
  | text => name text

def ofPiece? : Piece → Option Lexeme
  | .mark kind => some (mark kind)
  | .quoted quote body _ => some (quoted (String.ofList (unescape body)) quote)
  | .number text => some (number (String.ofList text))
  | .word text => some (ofWord text)
  | _ => none

end Lexeme

structure Token where
  lexeme : Lexeme
  position : Position
  afterNewline : Bool
deriving DecidableEq, Repr

structure Scan where
  tokens : List Token
  stop : Position
  stopAfterNewline : Bool
  findings : List (Finding SyntaxIssue)
deriving DecidableEq, Repr

namespace Piece

def isLineFeed : Piece → Bool
  | blank c => c == '\n'
  | _ => false

/-- An invalid character is reported where it stands, an open string where it stops. -/
def findings (position : Position) : Piece → List (Finding SyntaxIssue)
  | invalid _ => [⟨position, .invalidCharacter⟩]
  | quoted quote body false =>
      [⟨position.after (quoted quote body false).source, .unterminatedString⟩]
  | _ => []

end Piece

namespace Scan

def ofPieces (position : Position) (newline : Bool) : List Piece → Scan
  | [] => ⟨[], position, newline, []⟩
  | piece :: rest =>
      match Lexeme.ofPiece? piece with
      | some lexeme =>
          let scan := ofPieces (position.after piece.source) false rest
          { scan with
            tokens := ⟨lexeme, position, newline⟩ :: scan.tokens
            findings := piece.findings position ++ scan.findings }
      | none =>
          let scan := ofPieces (position.after piece.source) (newline || piece.isLineFeed) rest
          { scan with findings := piece.findings position ++ scan.findings }

def ofText (text : String) : Scan :=
  ofPieces .start false (Piece.split text.toList)

end Scan

end ShadowCheck.Script
