import ShadowCheck.Text.Bytes

/-!
Globs and the texts they match. A glob speaks about bytes: `?` and `*` take bytes
other than a slash, a class takes any byte that it names, and `**` stands for whole
directories. A glob is run by listing what it can leave of a text.
-/

namespace ShadowCheck.Filter

inductive Glob
  | empty
  | char (c : Char)
  | anyOne
  | anyRun
  /-- `**` and a slash at the front: any directories, or none. -/
  | anyFront
  /-- A slash and `**` at the end: anything below. -/
  | anyBack
  /-- `**` between slashes: at least one slash. -/
  | anyBetween
  | oneOf (negated : Bool) (ranges : List (Char × Char))
  | seq (first second : Glob)
  | either (left right : Glob)
  | group (inner : Glob)
deriving DecidableEq, Repr

namespace Glob

def sequence (parts : List Glob) : Glob :=
  parts.foldr seq empty

def isEmpty : Glob → Bool
  | empty => true
  | seq first second => first.isEmpty && second.isEmpty
  | _ => false

/-- A choice between branches; empty branches are no choice. -/
def choice (branches : List Glob) : Glob :=
  match branches.filter (!·.isEmpty) with
  | [] => empty
  | first :: others => group (others.foldl either first)

def lowerByte (byte : UInt8) : UInt8 :=
  if 0x41 ≤ byte && byte ≤ 0x5A then byte + 0x20 else byte

def upperByte (byte : UInt8) : UInt8 :=
  if 0x61 ≤ byte && byte ≤ 0x7A then byte - 0x20 else byte

def sameByte (foldCase : Bool) (left right : UInt8) : Bool :=
  left == right || (foldCase && lowerByte left == lowerByte right)

/-- The byte ranges of a character range: the bytes of both ends, and what lies
between the last byte of one and the first byte of the other. -/
def byteRanges (range : Char × Char) : List (UInt8 × UInt8) :=
  let low := String.utf8EncodeChar range.1
  let high := String.utf8EncodeChar range.2
  if range.1 = range.2 then low.map fun byte => (byte, byte)
  else
    low.dropLast.map (fun byte => (byte, byte)) ++
      [(low.getLast?.getD 0, high.headD 0)] ++
      high.tail.map fun byte => (byte, byte)

def inRanges (ranges : List (Char × Char)) (byte : UInt8) : Bool :=
  (ranges.flatMap byteRanges).any fun range => range.1 ≤ byte && byte ≤ range.2

def inClass (foldCase negated : Bool) (ranges : List (Char × Char)) (byte : UInt8) : Bool :=
  let found := inRanges ranges byte ||
    (foldCase && (inRanges ranges (lowerByte byte) || inRanges ranges (upperByte byte)))
  found != negated

def dropBytes? (foldCase : Bool) : Bytes → Bytes → Option Bytes
  | [], text => some text
  | _ :: _, [] => none
  | wanted :: front, byte :: text =>
      if sameByte foldCase wanted byte then dropBytes? foldCase front text else none

/-- What is left after any bytes but slashes. -/
def afterRun : Bytes → List Bytes
  | [] => [[]]
  | byte :: text => (byte :: text) :: if byte = slash then [] else afterRun text

def afterSlashes : Bytes → List Bytes
  | [] => []
  | byte :: text => if byte = slash then text :: afterSlashes text else afterSlashes text

def tails : Bytes → List Bytes
  | [] => [[]]
  | byte :: text => (byte :: text) :: tails text

/-- What a glob can leave of a text whose front it matches. -/
def remainders (foldCase : Bool) : Glob → Bytes → List Bytes
  | empty, text => [text]
  | char c, text => (dropBytes? foldCase (String.utf8EncodeChar c) text).toList
  | anyOne, byte :: text => if byte = slash then [] else [text]
  | anyOne, [] => []
  | anyRun, text => afterRun text
  | anyFront, text => text :: afterSlashes text
  | anyBack, byte :: text => if byte = slash then tails text else []
  | anyBack, [] => []
  | anyBetween, byte :: text => if byte = slash then text :: afterSlashes text else []
  | anyBetween, [] => []
  | oneOf negated ranges, byte :: text => if inClass foldCase negated ranges byte then [text] else []
  | oneOf _ _, [] => []
  | seq first second, text =>
      ((first.remainders foldCase text).flatMap (second.remainders foldCase)).eraseDups
  | either left right, text => left.remainders foldCase text ++ right.remainders foldCase text
  | group inner, text => inner.remainders foldCase text

/-- How many parts a glob has in a row; a character has one for each byte. -/
def width : Glob → Nat
  | empty => 0
  | char c => c.utf8Size
  | anyBack => 2
  | seq first second => first.width + second.width
  | _ => 1

def rowLevels (width levels : Nat) : Nat :=
  if 1 < width then levels + 1 else levels

/-- How many levels of structure lie inside each other in a glob. A class is one,
and another one if it has several ranges; a run repeats a class; a directory
wildcard is a group of a choice of a row of a repetition. -/
def levels : Glob → Nat
  | empty => 0
  | char _ => 0
  | anyOne => 1
  | anyRun => 2
  | anyFront => 4
  | anyBack => 1
  | anyBetween => 4
  | oneOf _ ranges => if 1 < (ranges.flatMap byteRanges).length then 2 else 1
  | seq first second => max first.levels second.levels
  | either left right =>
      max (rowLevels left.width left.levels) (rowLevels right.width right.levels)
  | group (either left right) => (either left right).levels + 2
  | group inner => rowLevels inner.width inner.levels + 1

def mostLevels : Nat := 250

def isTooDeep (parts : List Glob) : Bool :=
  mostLevels < (sequence parts).levels + 1

def isChar : Glob → Bool
  | char _ => true
  | _ => false

/-- Whether a pattern is decided by the last name of a path and asks that name to
end in a dot. -/
def asksNameForDot (parts : List Glob) : Bool :=
  parts.getLast? == some (char '.') && !parts.all isChar &&
    !(parts.head? == some anyFront && parts.tail.all isChar && parts.contains (char '/'))

/-- Whether `..` stands in the place of the last name, which is no name. -/
def endsInParent (text : Bytes) : Bool :=
  text.reverse.takeWhile (· != slash) == [dot, dot]

def isMatch (foldCase : Bool) (parts : List Glob) (text : Bytes) : Bool :=
  if parts = [anyFront] then true
  else if !foldCase && asksNameForDot parts && endsInParent text then false
  else ((sequence parts).remainders foldCase text).contains []

end Glob

end ShadowCheck.Filter
