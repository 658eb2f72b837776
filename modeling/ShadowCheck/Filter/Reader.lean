import ShadowCheck.Filter.Glob

/-!
Reading a glob from its text. Braces hold branches between commas, brackets hold
classes, a backslash takes the next character as it is. A bracket that is never
closed is a plain character; other faults make the text no glob.
-/

namespace ShadowCheck.Filter.Glob

inductive ClassEnd
  | closed (ranges : List (Char × Char)) (rest : List Char)
  | unclosed
  | backward

/-- Reads the ranges of a class, latest first. `pending` tells that a dash waits
for the upper end of the latest range. -/
def readRanges (ranges : List (Char × Char)) (pending first : Bool) : List Char → ClassEnd
  | [] => .unclosed
  | c :: rest =>
      if c = ']' && !first then
        .closed (if pending then ('-', '-') :: ranges else ranges) rest
      else if c = '-' && !first && !pending then readRanges ranges true false rest
      else
        match pending, ranges with
        | true, (low, _) :: others =>
            if c < low then .backward else readRanges ((low, c) :: others) false false rest
        | _, _ => readRanges ((c, c) :: ranges) false false rest

theorem length_readRanges_lt {ranges found : List (Char × Char)} {pending first : Bool}
    {text rest : List Char} (h : readRanges ranges pending first text = .closed found rest) :
    rest.length < text.length := by
  fun_induction readRanges ranges pending first text <;> grind

/-- A leading `!` or `^` negates a class. -/
def readClass (text : List Char) : Bool × ClassEnd :=
  match text with
  | '!' :: rest => (true, readRanges [] false true rest)
  | '^' :: rest => (true, readRanges [] false true rest)
  | rest => (false, readRanges [] false true rest)

theorem length_readClass_lt {text rest : List Char} {negated : Bool}
    {found : List (Char × Char)} (h : readClass text = (negated, .closed found rest)) :
    rest.length < text.length := by
  unfold readClass at h
  split at h <;> have := length_readRanges_lt (congrArg Prod.snd h) <;> grind

/-- An open brace: the branches before the last comma, and the parts after it,
each latest first. -/
structure Group where
  branches : List Glob
  parts : List Glob

/-- What has been read: the groups around the innermost one, that one, the last
character, and whether brackets have become plain characters. -/
structure Reading where
  outer : List Group
  group : Group
  previous? : Option Char
  plainBrackets : Bool

namespace Reading

def begin : Reading := ⟨[], ⟨[], []⟩, none, false⟩

def push (reading : Reading) (part : Glob) (last : Char) : Reading :=
  { reading with
    group := { reading.group with parts := part :: reading.group.parts }
    previous? := some last }

def inBraces (reading : Reading) : Bool :=
  !reading.outer.isEmpty

def openBrace (reading : Reading) : Reading :=
  { reading with
    outer := reading.group :: reading.outer
    group := ⟨[], []⟩
    previous? := some '{' }

def comma (reading : Reading) : Reading :=
  if reading.inBraces then
    { reading with
      group := ⟨sequence reading.group.parts.reverse :: reading.group.branches, []⟩
      previous? := some ',' }
  else reading.push (.char ',') ','

def closeBrace? (reading : Reading) : Option Reading :=
  match reading.outer with
  | [] => none
  | group :: outer =>
      let branches := sequence reading.group.parts.reverse :: reading.group.branches
      some (Reading.push { reading with outer, group } (choice branches.reverse) '}')

/-- Puts a directory wildcard in the place of the last part, which is its slash;
one that stands there already stays. -/
def replaceSlash (reading : Reading) (wildcard : Glob) (last : Char) : Reading :=
  let parts := match reading.group.parts with
    | .anyFront :: before => .anyFront :: before
    | .anyBack :: before => .anyBack :: before
    | _ :: before => wildcard :: before
    | [] => []
  { reading with group := { reading.group with parts }, previous? := some last }

/-- Two stars are a directory wildcard only as a whole path component. -/
def doubleStar (reading : Reading) (rest : List Char) : Reading × List Char :=
  let plain := ((reading.push .anyRun '*').push .anyRun '*', rest)
  let follows := reading.previous? == some '/' || (reading.inBraces &&
    (reading.previous? == some ',' || reading.previous? == some '{'))
  if reading.group.parts.isEmpty then
    match rest with
    | [] => (reading.push .anyFront '*', [])
    | '/' :: rest => (reading.push .anyFront '/', rest)
    | _ => plain
  else if !follows then plain
  else
    match rest with
    | [] => (reading.replaceSlash .anyBack '*', [])
    | '/' :: rest => (reading.replaceSlash .anyBetween '/', rest)
    | c :: _ =>
        if reading.inBraces && (c = ',' || c = '}') then (reading.replaceSlash .anyBack '*', rest)
        else plain

theorem length_doubleStar_le (reading : Reading) (rest : List Char) :
    (reading.doubleStar rest).2.length ≤ rest.length := by
  unfold doubleStar
  dsimp only
  repeat' split
  all_goals simp

end Reading

def readParts (reading : Reading) : List Char → Option (List Glob)
  | [] => if reading.inBraces then none else some reading.group.parts.reverse
  | c :: rest =>
      if c = '?' then readParts (reading.push .anyOne c) rest
      else if c = '*' then
        match rest with
        | '*' :: rest =>
            have := reading.length_doubleStar_le rest
            readParts (reading.doubleStar rest).1 (reading.doubleStar rest).2
        | rest => readParts (reading.push .anyRun c) rest
      else if c = '[' && !reading.plainBrackets then
        match h : readClass rest with
        | (negated, .closed ranges after) =>
            have := length_readClass_lt h
            readParts (reading.push (.oneOf negated ranges) ']') after
        | (_, .unclosed) => readParts { reading.push (.char c) c with plainBrackets := true } rest
        | (_, .backward) => none
      else if c = '{' then readParts reading.openBrace rest
      else if c = '}' then
        match reading.closeBrace? with
        | some reading => readParts reading rest
        | none => none
      else if c = ',' then readParts reading.comma rest
      else if c = '\\' then
        match rest with
        | d :: rest => readParts (reading.push (.char d) d) rest
        | [] => none
      else readParts (reading.push (.char c) c) rest
termination_by text => text.length

def read? (text : List Char) : Option (List Glob) :=
  readParts .begin text

end ShadowCheck.Filter.Glob
