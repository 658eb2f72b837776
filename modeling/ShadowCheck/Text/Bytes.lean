/-!
Bytes, and the texts that they are shown as. The bytes of a text are its characters in UTF-8.
Any bytes can be shown: where they go on as no character does, one replacement character
stands for what was begun.
-/

namespace ShadowCheck

abbrev Bytes := List UInt8

def slash : UInt8 := 0x2F

def dot : UInt8 := 0x2E

def bytesOf (text : List Char) : Bytes :=
  text.flatMap String.utf8EncodeChar

/-- A text stands for its bytes. -/
instance : Coe String Bytes where
  coe text := bytesOf text.toList

namespace Bytes

def replacement : Char := '\uFFFD'

def continues (byte : UInt8) : Bool :=
  0x80 ≤ byte && byte ≤ 0xBF

/-- Whether a character of three or four bytes can begin so. -/
def canBegin (lead second : UInt8) : Bool :=
  if lead = 0xE0 then 0xA0 ≤ second && second ≤ 0xBF
  else if lead = 0xED then 0x80 ≤ second && second ≤ 0x9F
  else if lead = 0xF0 then 0x90 ≤ second && second ≤ 0xBF
  else if lead = 0xF4 then 0x80 ≤ second && second ≤ 0x8F
  else 0xE1 ≤ lead && lead ≤ 0xF3 && continues second

/-- How many bytes belong to a beginning that is no character, its first byte apart. -/
def brokenOff (lead : UInt8) : Bytes → Nat
  | [] => 0
  | [second] => if canBegin lead second then 1 else 0
  | second :: third :: _ =>
      if canBegin lead second then
        if 0xF0 ≤ lead && continues third then 2 else 1
      else 0

/-- The character that bytes begin with. -/
def char? (bytes : Bytes) : Option Char :=
  (bytes.take 4).toByteArray.utf8DecodeChar? 0

/-- The character that a byte is shown as, and how many of the next bytes go with it. -/
def readChar (lead : UInt8) (rest : Bytes) : Char × Nat :=
  match char? (lead :: rest) with
  | some c => (c, c.utf8Size - 1)
  | none => (replacement, brokenOff lead rest)

/-- Shows bytes after the first `skipped` ones, which have been read. -/
def shownFrom (skipped : Nat) : Bytes → List Char
  | [] => []
  | lead :: rest =>
      match skipped with
      | skipped + 1 => shownFrom skipped rest
      | 0 =>
          let (c, more) := readChar lead rest
          c :: shownFrom more rest

def shown (bytes : Bytes) : List Char :=
  shownFrom 0 bytes

def text (bytes : Bytes) : String :=
  String.ofList bytes.shown

/-- Whether bytes are those of a text. -/
def IsText (bytes : Bytes) : Prop :=
  bytesOf bytes.shown = bytes

instance (bytes : Bytes) : Decidable bytes.IsText :=
  inferInstanceAs (Decidable (bytesOf bytes.shown = bytes))

end Bytes

end ShadowCheck
