import ShadowCheck.Text.Blank
import ShadowCheck.Text.Letter
import ShadowCheck.Text.Numeral

/-!
A script cut into pieces. Every character of the text lies in exactly one
piece, in order: a blank, a comment, a punctuation mark, a string, a number, a
word, or a character that belongs to none of these.
-/

namespace ShadowCheck.Script

open ShadowCheck.Text

inductive Mark
  | colon
  | equals
  | semicolon
deriving DecidableEq, Repr

namespace Mark

def char : Mark → Char
  | colon => ':'
  | equals => '='
  | semicolon => ';'

def ofChar? (c : Char) : Option Mark :=
  if c = ':' then some colon
  else if c = '=' then some equals
  else if c = ';' then some semicolon
  else none

theorem char_of_ofChar? {c : Char} {mark : Mark} (h : ofChar? c = some mark) :
    mark.char = c := by
  unfold ofChar? at h
  repeat' split at h
  all_goals cases h
  all_goals simp_all [char]

end Mark

def isQuote (c : Char) : Bool :=
  c = '"' || c = '\''

def isWordStart (c : Char) : Bool :=
  c = '_' || c = '$' || isLetter c

def isWordPart (c : Char) : Bool :=
  isWordStart c || isNumeral c

/-- A piece of text. Strings keep what stands between their quotes as written;
a string is open when a line feed or the end of the text came before its quote. -/
inductive Piece
  | blank (c : Char)
  | comment (body : List Char)
  | mark (kind : Mark)
  | quoted (quote : Char) (body : List Char) (closed : Bool)
  | number (text : List Char)
  | word (text : List Char)
  | invalid (c : Char)
deriving DecidableEq, Repr

namespace Piece

def source : Piece → List Char
  | blank c => [c]
  | comment body => '/' :: '/' :: body
  | mark kind => [kind.char]
  | quoted quote body closed => quote :: body ++ if closed then [quote] else []
  | number text => text
  | word text => text
  | invalid c => [c]

/-- Reads up to the closing quote; a backslash takes the next character with it. -/
def takeQuoted (quote : Char) : List Char → List Char × Bool × List Char
  | [] => ([], false, [])
  | '\\' :: [] => (['\\'], false, [])
  | '\\' :: c :: rest =>
      let tail := takeQuoted quote rest
      ('\\' :: c :: tail.1, tail.2)
  | c :: rest =>
      if c = '\n' then ([], false, c :: rest)
      else if c = quote then ([], true, rest)
      else
        let tail := takeQuoted quote rest
        (c :: tail.1, tail.2)

/-- Reads digits and underscores, and one dot that a digit follows. -/
def takeNumber (dotted : Bool) : List Char → List Char × List Char
  | [] => ([], [])
  | c :: rest =>
      if c.isDigit || c = '_' then
        let tail := takeNumber dotted rest
        (c :: tail.1, tail.2)
      else if c = '.' && !dotted && rest.head?.any Char.isDigit then
        let tail := takeNumber true rest
        (c :: tail.1, tail.2)
      else ([], c :: rest)

def next (c : Char) (rest : List Char) : Piece × List Char :=
  if isBlank c then (blank c, rest)
  else if c = '/' && rest.head? == some '/' then
    (comment (rest.tail.takeWhile (· != '\n')), rest.tail.dropWhile (· != '\n'))
  else match Mark.ofChar? c with
    | some found => (mark found, rest)
    | none =>
        if isQuote c then
          let tail := takeQuoted c rest
          (quoted c tail.1 tail.2.1, tail.2.2)
        else if c.isDigit then
          let tail := takeNumber false rest
          (number (c :: tail.1), tail.2)
        else if isWordStart c then
          (word (c :: rest.takeWhile isWordPart), rest.dropWhile isWordPart)
        else (invalid c, rest)

theorem takeQuoted_append (quote : Char) (text : List Char) :
    (takeQuoted quote text).1 ++
        ((if (takeQuoted quote text).2.1 then [quote] else []) ++
          (takeQuoted quote text).2.2) = text := by
  fun_induction takeQuoted quote text <;> simp_all +zetaDelta

theorem takeNumber_append (dotted : Bool) (text : List Char) :
    (takeNumber dotted text).1 ++ (takeNumber dotted text).2 = text := by
  fun_induction takeNumber dotted text <;> simp_all +zetaDelta

theorem source_next (c : Char) (rest : List Char) :
    (next c rest).1.source ++ (next c rest).2 = c :: rest := by
  unfold next
  split
  · simp [source]
  split
  · rename_i slashes
    cases rest with
    | nil => simp at slashes
    | cons d body => simp_all [source]
  split
  · rename_i found
    simp [source, Mark.char_of_ofChar? found]
  split
  · simpa [source] using takeQuoted_append c rest
  split
  · simpa [source] using takeNumber_append false rest
  split <;> simp [source]

theorem source_next_ne_nil (c : Char) (rest : List Char) : (next c rest).1.source ≠ [] := by
  unfold next
  repeat' split
  all_goals simp [source]

theorem length_next_lt (c : Char) (rest : List Char) :
    (next c rest).2.length < (c :: rest).length := by
  have whole := congrArg List.length (source_next c rest)
  have positive := List.length_pos_iff.mpr (source_next_ne_nil c rest)
  rw [List.length_append] at whole
  omega

def split : List Char → List Piece
  | [] => []
  | c :: rest => (next c rest).1 :: split (next c rest).2
termination_by text => text.length
decreasing_by exact length_next_lt c rest

theorem flatMap_source_split (text : List Char) : (split text).flatMap source = text := by
  fun_induction split text with
  | case1 => rfl
  | case2 c rest ih => rw [List.flatMap_cons, ih, source_next]

end Piece

end ShadowCheck.Script
