import ShadowCheck.Json.Number

/-!
Reading JSON text. A reader gives what it read and the text behind it, or the
first fault. Lists and objects may be nested 127 deep.
-/

namespace ShadowCheck.Json

def isSpace (c : Char) : Bool :=
  c = ' ' || c = '\t' || c = '\n' || c = '\r'

def skipSpace (text : List Char) : List Char :=
  text.dropWhile isSpace

def readWord (value : Value) : List Char → List Char → Except Fault (Value × List Char)
  | [], rest => .ok (value, rest)
  | _ :: _, [] => .error (faultAt .endInValue [])
  | wanted :: word, c :: rest =>
      if c = wanted then readWord value word rest
      else .error (faultIn .wordExpected (c :: rest))

namespace Quoted

def hexValue? (c : Char) : Option Nat :=
  if c.isDigit then some (c.toNat - 0x30)
  else if 'a' ≤ c && c ≤ 'f' then some (c.toNat - 0x57)
  else if 'A' ≤ c && c ≤ 'F' then some (c.toNat - 0x37)
  else none

/-- Reads four hexadecimal digits; a fault stands four bytes on, or at the end. -/
def readCode (text : List Char) : Except Fault (Nat × List Char) :=
  if bytesLeft text < 4 then .error ⟨.endInString, 0⟩
  else
    match text with
    | a :: b :: c :: d :: rest =>
        match hexValue? a, hexValue? b, hexValue? c, hexValue? d with
        | some a, some b, some c, some d => .ok (((a * 16 + b) * 16 + c) * 16 + d, rest)
        | _, _, _, _ => .error ⟨.invalidEscape, bytesLeft text - 4⟩
    | _ => .error ⟨.invalidEscape, bytesLeft text - 4⟩

def expect (c : Char) (text : List Char) : Except Fault (List Char) :=
  match text with
  | [] => .error ⟨.endInString, 0⟩
  | d :: rest => if d = c then .ok rest else .error (faultIn .unfinishedSurrogate text)

def isLowSurrogate (code : Nat) : Bool :=
  0xDC00 ≤ code && code ≤ 0xDFFF

def isHighSurrogate (code : Nat) : Bool :=
  0xD800 ≤ code && code ≤ 0xDBFF

/-- Reads a character given by its code, or by the codes of two surrogates. -/
def readCoded (text : List Char) : Except Fault (Char × List Char) := do
  let (high, rest) ← readCode text
  if isLowSurrogate high then .error (faultAt .loneSurrogate rest)
  else if !isHighSurrogate high then .ok (Char.ofNat high, rest)
  else do
    let rest ← expect '\\' rest
    let rest ← expect 'u' rest
    let (low, rest) ← readCode rest
    if isLowSurrogate low then
      .ok (Char.ofNat (0x10000 + (high - 0xD800) * 0x400 + (low - 0xDC00)), rest)
    else .error (faultAt .loneSurrogate rest)

def readEscape (text : List Char) : Except Fault (Char × List Char) :=
  match text with
  | [] => .error ⟨.endInString, 0⟩
  | '"' :: rest => .ok ('"', rest)
  | '\\' :: rest => .ok ('\\', rest)
  | '/' :: rest => .ok ('/', rest)
  | 'b' :: rest => .ok ('\x08', rest)
  | 'f' :: rest => .ok ('\x0c', rest)
  | 'n' :: rest => .ok ('\n', rest)
  | 'r' :: rest => .ok ('\r', rest)
  | 't' :: rest => .ok ('\t', rest)
  | 'u' :: rest => readCoded rest
  | rest => .error (faultIn .invalidEscape rest)

/-- Reads to the closing quote. The count bounds the characters still to come. -/
def readChars : Nat → List Char → Except Fault (List Char × List Char)
  | 0, _ => .error ⟨.endInString, 0⟩
  | _ + 1, [] => .error ⟨.endInString, 0⟩
  | count + 1, c :: rest =>
      if c = '"' then .ok ([], rest)
      else if c = '\\' then do
        let (found, rest) ← readEscape rest
        let (others, rest) ← readChars count rest
        return (found :: others, rest)
      else if c.toNat < 0x20 then .error (faultIn .controlCharacter (c :: rest))
      else do
        let (others, rest) ← readChars count rest
        return (c :: others, rest)

def read (text : List Char) : Except Fault (String × List Char) := do
  let (chars, rest) ← readChars (text.length + 1) text
  return (String.ofList chars, rest)

end Quoted

mutual

/-- Reads a value; `depth` tells how many more brackets may open. -/
def readValue : Nat → Nat → List Char → Except Fault (Value × List Char)
  | 0, _, _ => .error ⟨.endInValue, 0⟩
  | fuel + 1, depth, text =>
      match skipSpace text with
      | [] => .error ⟨.endInValue, 0⟩
      | 'n' :: rest => readWord .null ['u', 'l', 'l'] rest
      | 't' :: rest => readWord (.boolean true) ['r', 'u', 'e'] rest
      | 'f' :: rest => readWord (.boolean false) ['a', 'l', 's', 'e'] rest
      | '-' :: rest => Number.read true rest
      | '"' :: rest => do
          let (text, rest) ← Quoted.read rest
          return (.string text, rest)
      | '[' :: rest =>
          if depth = 0 then .error (faultAt .tooDeep rest)
          else do
            let (items, rest) ← readItems fuel (depth - 1) true rest
            return (.array items, rest)
      | '{' :: rest =>
          if depth = 0 then .error (faultAt .tooDeep rest)
          else do
            let (fields, rest) ← readFields fuel (depth - 1) [] true rest
            return (.object fields, rest)
      | c :: rest =>
          if c.isDigit then Number.read false (c :: rest)
          else .error (faultIn .valueExpected (c :: rest))

def readItems : Nat → Nat → Bool → List Char → Except Fault (List Value × List Char)
  | 0, _, _, _ => .error ⟨.endInList, 0⟩
  | fuel + 1, depth, first, text =>
      match skipSpace text with
      | [] => .error ⟨.endInList, 0⟩
      | ']' :: rest => .ok ([], rest)
      | c :: rest =>
          if first then readItem fuel depth (c :: rest)
          else if c = ',' then
            match skipSpace rest with
            | [] => .error ⟨.endInValue, 0⟩
            | ']' :: rest => .error (faultAt .trailingComma rest)
            | rest => readItem fuel depth rest
          else .error (faultIn .listCommaOrEndExpected (c :: rest))

def readItem : Nat → Nat → List Char → Except Fault (List Value × List Char)
  | 0, _, _ => .error ⟨.endInList, 0⟩
  | fuel + 1, depth, text => do
      let (item, rest) ← readValue fuel depth text
      let (items, rest) ← readItems fuel depth false rest
      return (item :: items, rest)

def readFields : Nat → Nat → List (String × Value) → Bool → List Char →
    Except Fault (List (String × Value) × List Char)
  | 0, _, _, _, _ => .error ⟨.endInObject, 0⟩
  | fuel + 1, depth, fields, first, text =>
      match skipSpace text with
      | [] => .error ⟨.endInObject, 0⟩
      | '}' :: rest => .ok (fields, rest)
      | c :: rest =>
          if first then readField fuel depth fields (c :: rest)
          else if c = ',' then
            match skipSpace rest with
            | [] => .error ⟨.endInValue, 0⟩
            | '}' :: rest => .error (faultAt .trailingComma rest)
            | rest => readField fuel depth fields rest
          else .error (faultIn .objectCommaOrEndExpected (c :: rest))

def readField : Nat → Nat → List (String × Value) → List Char →
    Except Fault (List (String × Value) × List Char)
  | 0, _, _, _ => .error ⟨.endInObject, 0⟩
  | fuel + 1, depth, fields, text =>
      match text with
      | '"' :: rest => do
          let (name, rest) ← Quoted.read rest
          match skipSpace rest with
          | [] => .error ⟨.endInObject, 0⟩
          | ':' :: rest => do
              let (value, rest) ← readValue fuel depth rest
              readFields fuel depth (Value.insertField name value fields) false rest
          | rest => .error (faultIn .colonExpected rest)
      | rest => .error (faultIn .keyMustBeString rest)

end

def depthLimit : Nat := 127

def read (text : String) : Except Malformed Value :=
  let chars := text.toList
  match readValue (3 * chars.length + 3) depthLimit chars with
  | .error fault => .error (.ofFault text fault)
  | .ok (value, rest) =>
      match skipSpace rest with
      | [] => .ok value
      | rest => .error (.ofFault text (faultIn .trailingCharacters rest))

end ShadowCheck.Json
