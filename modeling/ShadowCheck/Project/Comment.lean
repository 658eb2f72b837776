/-!
Comments in a project file. They are blanked, not cut, so that every other
character keeps its line and its place on it.
-/

namespace ShadowCheck.Project

inductive Inside
  | nothing
  | string
  | lineComment
  | blockComment
deriving DecidableEq, Repr

namespace Comment

def blankChar (c : Char) : Char :=
  if c = '\n' then '\n' else ' '

theorem lineFeed_blankChar (c : Char) : (blankChar c == '\n') = (c == '\n') := by
  by_cases h : c = '\n' <;> simp [blankChar, h]

/-- Blanks the comments of a text that begins inside of something. -/
def blankFrom : Inside → List Char → List Char
  | _, [] => []
  | .nothing, '"' :: rest => '"' :: blankFrom .string rest
  | .nothing, '/' :: '/' :: rest => ' ' :: ' ' :: blankFrom .lineComment rest
  | .nothing, '/' :: '*' :: rest => ' ' :: ' ' :: blankFrom .blockComment rest
  | .nothing, c :: rest => c :: blankFrom .nothing rest
  | .string, '\\' :: c :: rest => '\\' :: c :: blankFrom .string rest
  | .string, '"' :: rest => '"' :: blankFrom .nothing rest
  | .string, c :: rest => c :: blankFrom .string rest
  | .lineComment, '\n' :: rest => '\n' :: blankFrom .nothing rest
  | .lineComment, _ :: rest => ' ' :: blankFrom .lineComment rest
  | .blockComment, '*' :: '/' :: rest => ' ' :: ' ' :: blankFrom .nothing rest
  | .blockComment, c :: rest => blankChar c :: blankFrom .blockComment rest

@[simp] theorem length_blankFrom (inside : Inside) (text : List Char) :
    (blankFrom inside text).length = text.length := by
  fun_induction blankFrom inside text <;> simp_all

theorem lineFeeds_blankFrom (inside : Inside) (text : List Char) :
    (blankFrom inside text).map (· == '\n') = text.map (· == '\n') := by
  fun_induction blankFrom inside text <;> simp_all [lineFeed_blankChar]

def blank (text : String) : String :=
  String.ofList (blankFrom .nothing text.toList)

end Comment

end ShadowCheck.Project
