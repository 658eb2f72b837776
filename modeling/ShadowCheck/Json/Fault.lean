/-! What can be wrong with JSON text, and where: the line and the bytes read on it. -/

namespace ShadowCheck.Json

inductive Cause
  | endInValue
  | endInString
  | endInList
  | endInObject
  | colonExpected
  | listCommaOrEndExpected
  | objectCommaOrEndExpected
  | wordExpected
  | valueExpected
  | invalidEscape
  | invalidNumber
  | numberOutOfRange
  | controlCharacter
  | keyMustBeString
  | loneSurrogate
  | unfinishedSurrogate
  | trailingComma
  | trailingCharacters
  | tooDeep
deriving DecidableEq, Repr

def Cause.text : Cause → String
  | endInValue => "EOF while parsing a value"
  | endInString => "EOF while parsing a string"
  | endInList => "EOF while parsing a list"
  | endInObject => "EOF while parsing an object"
  | colonExpected => "expected `:`"
  | listCommaOrEndExpected => "expected `,` or `]`"
  | objectCommaOrEndExpected => "expected `,` or `\x7d`"
  | wordExpected => "expected ident"
  | valueExpected => "expected value"
  | invalidEscape => "invalid escape"
  | invalidNumber => "invalid number"
  | numberOutOfRange => "number out of range"
  | controlCharacter => "control character (\\u0000-\\u001F) found while parsing a string"
  | keyMustBeString => "key must be a string"
  | loneSurrogate => "lone leading surrogate in hex escape"
  | unfinishedSurrogate => "unexpected end of hex escape"
  | trailingComma => "trailing comma"
  | trailingCharacters => "trailing characters"
  | tooDeep => "recursion limit exceeded"

/-- A fault found when `left` bytes of the text were still unread. -/
structure Fault where
  cause : Cause
  left : Nat
deriving DecidableEq, Repr

structure Malformed where
  cause : Cause
  line : Nat
  column : Nat
deriving DecidableEq, Repr

namespace Malformed

def message (malformed : Malformed) : String :=
  malformed.cause.text ++ " at line " ++ toString malformed.line ++ " column " ++
    toString malformed.column

/-- Counts line feeds among the bytes read, and the bytes after the last of them. -/
def ofFault (text : String) (fault : Fault) : Malformed :=
  let bytes := text.toList.flatMap String.utf8EncodeChar
  let read := bytes.take (bytes.length - fault.left)
  { cause := fault.cause
    line := read.count 0x0A + 1
    column := (read.reverse.takeWhile (· != 0x0A)).length }

end Malformed

end ShadowCheck.Json
