import ShadowCheck.Json.Fault
import ShadowCheck.Json.Value

/-!
JSON numbers. A whole number of 64 bits is exact. Any other number is read as a
significand of 64 bits, past which digits only count, and is then scaled once by
a power of ten.
-/

namespace ShadowCheck.Json

def bytesLeft (text : List Char) : Nat :=
  text.foldl (fun total c => total + c.utf8Size) 0

def faultAt (cause : Cause) (rest : List Char) : Fault :=
  ⟨cause, bytesLeft rest⟩

/-- A fault one byte into the next character, if there is one. -/
def faultIn (cause : Cause) (rest : List Char) : Fault :=
  ⟨cause, bytesLeft rest - 1⟩

namespace Number

def digitValue (c : Char) : Nat :=
  c.toNat - '0'.toNat

def largest64 : Nat := Nat.pow 2 64 - 1

/-- Takes digits into a significand while 64 bits hold it; counts those taken and
those left over. -/
def takeSignificand (significand : Nat) : List Char → Nat × Nat × Nat
  | [] => (significand, 0, 0)
  | c :: rest =>
      let next := significand * 10 + digitValue c
      if largest64 < next then (significand, 0, rest.length + 1)
      else
        let (total, taken, leftOver) := takeSignificand next rest
        (total, taken + 1, leftOver)

def powerOfTen (exponent : Nat) : Float :=
  Float.ofScientific 1 false exponent

/-- Divides by a power of ten, in steps that a double can hold. -/
def scaleDown (value : Float) (exponent : Nat) : Float :=
  if exponent ≤ 308 then value / powerOfTen exponent
  else if value == 0 then value
  else scaleDown (value / powerOfTen 308) (exponent - 308)
termination_by exponent

def scale? (significand : Nat) (exponent : Int) : Option Float :=
  let value := significand.toUInt64.toFloat
  if exponent < 0 then some (scaleDown value exponent.natAbs)
  else if exponent.natAbs ≤ 308 then
    let scaled := value * powerOfTen exponent.natAbs
    if scaled.isInf then none else some scaled
  else if significand = 0 then some value
  else none

def signed (negative : Bool) (value : Float) : Float :=
  if negative then -value else value

def ofParts (negative : Bool) (significand : Nat) (exponent : Int) (rest : List Char) :
    Except Fault (Value × List Char) :=
  match scale? significand exponent with
  | some value => .ok (.double (signed negative value), rest)
  | none => .error (faultAt .numberOutOfRange rest)

def largestExponent : Nat := Nat.pow 2 31 - 1

/-- Reads exponent digits; gives the rest as well when 31 bits do not hold them. -/
def takeExponent (exponent : Nat) : List Char → Except (List Char) Nat × List Char
  | [] => (.ok exponent, [])
  | c :: rest =>
      if c.isDigit then
        let next := exponent * 10 + digitValue c
        if largestExponent < next then (.error rest, rest.dropWhile Char.isDigit)
        else takeExponent next rest
      else (.ok exponent, c :: rest)

def takeSign : List Char → Bool × List Char
  | '+' :: rest => (false, rest)
  | '-' :: rest => (true, rest)
  | rest => (false, rest)

def readExponent (negative : Bool) (significand : Nat) (start : Int) (text : List Char) :
    Except Fault (Value × List Char) :=
  let (down, digits) := takeSign text
  match digits with
  | [] => .error (faultAt .endInValue [])
  | c :: rest =>
      if !c.isDigit then .error (faultIn .invalidNumber digits)
      else
        match takeExponent (digitValue c) rest with
        | (.ok exponent, rest) =>
            let shift : Int := if down then -exponent else exponent
            ofParts negative significand (start + shift) rest
        | (.error unread, rest) =>
            if significand ≠ 0 ∧ down = false then .error (faultAt .numberOutOfRange unread)
            else .ok (.double (signed negative 0), rest)

def readScale (negative : Bool) (significand : Nat) (exponent : Int) (text : List Char) :
    Except Fault (Value × List Char) :=
  match text with
  | 'e' :: rest => readExponent negative significand exponent rest
  | 'E' :: rest => readExponent negative significand exponent rest
  | rest => ofParts negative significand exponent rest

/-- Reads what follows a decimal point; `exponent` counts the whole digits left out. -/
def readFraction (negative : Bool) (significand : Nat) (exponent : Nat) (text : List Char) :
    Except Fault (Value × List Char) :=
  let digits := text.takeWhile Char.isDigit
  let rest := text.dropWhile Char.isDigit
  if digits.isEmpty then
    .error (faultIn (if rest.isEmpty then .endInValue else .invalidNumber) rest)
  else
    let (significand, taken, _) := takeSignificand significand digits
    readScale negative significand (exponent - taken) rest

def whole (negative : Bool) (significand : Nat) : Value :=
  if !negative then .integer significand
  else if significand = 0 ∨ Nat.pow 2 63 < significand then
    .double (-significand.toUInt64.toFloat)
  else .integer (-significand)

/-- Reads what follows the whole digits; `leftOver` of them did not fit. -/
def readTail (negative : Bool) (significand leftOver : Nat) (text : List Char) :
    Except Fault (Value × List Char) :=
  match text with
  | '.' :: rest => readFraction negative significand leftOver rest
  | 'e' :: rest => readExponent negative significand leftOver rest
  | 'E' :: rest => readExponent negative significand leftOver rest
  | rest =>
      if leftOver = 0 then .ok (whole negative significand, rest)
      else ofParts negative significand leftOver rest

/-- Reads a number whose sign has been taken. A leading zero stands alone. -/
def read (negative : Bool) (text : List Char) : Except Fault (Value × List Char) :=
  match text with
  | [] => .error (faultAt .endInValue [])
  | '0' :: rest =>
      if rest.head?.any Char.isDigit then .error (faultIn .invalidNumber rest)
      else readTail negative 0 0 rest
  | c :: rest =>
      if !c.isDigit then .error (faultIn .invalidNumber (c :: rest))
      else
        let digits := c :: rest.takeWhile Char.isDigit
        let (significand, _, leftOver) := takeSignificand 0 digits
        readTail negative significand leftOver (rest.dropWhile Char.isDigit)

end Number

end ShadowCheck.Json
