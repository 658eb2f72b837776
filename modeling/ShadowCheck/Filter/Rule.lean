import ShadowCheck.Filter.Reader
import ShadowCheck.Path.Basic
import ShadowCheck.Text.Blank

/-!
Ignore rules, one a line, and lists of them. A path is tried first, then each
directory above it; at each level the last rule that matches decides, and the
first level with a matching rule decides the path.
-/

namespace ShadowCheck.Filter

structure Rule where
  whitelisted : Bool
  directoriesOnly : Bool
  parts : List Glob
deriving DecidableEq, Repr

namespace Rule

private def endsWith (text ending : List Char) : Bool :=
  ending.isSuffixOf text

/-- Drops trailing white space, unless the line ends in an escaped space. -/
def trimLine (line : List Char) : List Char :=
  if endsWith line ['\\', ' '] then line else Text.trimRight line

/-- What stands at the front of a line: whether it whitelists, whether it is
anchored to the root, and the rest. -/
def readFront : List Char → Bool × Bool × List Char
  | '\\' :: '!' :: rest => (false, false, '!' :: rest)
  | '\\' :: '#' :: rest => (false, false, '#' :: rest)
  | '!' :: '/' :: rest => (true, true, rest)
  | '!' :: rest => (true, false, rest)
  | '/' :: rest => (false, true, rest)
  | rest => (false, false, rest)

/-- A trailing slash asks for directories; a backslash before it goes with it. -/
def readBack (text : List Char) : Bool × List Char :=
  match text.reverse with
  | '/' :: '\\' :: front => (true, front.reverse)
  | '/' :: front => (true, front.reverse)
  | _ => (false, text)

/-- The glob text of a pattern: one that names no directory matches at any depth,
and one for all that is below a directory does not match the directory. -/
def globText (anchored : Bool) (text : List Char) : List Char :=
  let anywhere := !anchored && !text.contains '/' && text != ['*', '*']
  let text := if anywhere then '*' :: '*' :: '/' :: text else text
  if endsWith text ['/', '*', '*'] then text ++ ['/', '*'] else text

/-- The rule of a line; comments, empty lines and faulty globs give none. -/
def ofLine? (line : String) : Option Rule :=
  if line.toList.head? == some '#' then none
  else
    let line := trimLine line.toList
    if line.isEmpty then none
    else
      let (whitelisted, anchored, rest) := readFront line
      let (directoriesOnly, rest) := readBack rest
      (Glob.read? (globText anchored rest)).map fun parts =>
        ⟨whitelisted, directoriesOnly, parts⟩

def applies (rule : Rule) (foldCase isDirectory : Bool) (text : Bytes) : Bool :=
  (isDirectory || !rule.directoriesOnly) && Glob.isMatch foldCase rule.parts text

end Rule

structure RuleList where
  root : Path
  foldCase : Bool
  rules : List Rule

namespace RuleList

private def withoutCurrent (bytes : Bytes) : Bytes :=
  if [dot, slash].isPrefixOf bytes then bytes.drop 2 else bytes

/-- Whether a list can be made of rules: none may be nested too deep. -/
def canBuild (rules : List Rule) : Bool :=
  !rules.any (Glob.isTooDeep ·.parts)

/-- No lines at all give no list, and neither do lines whose rules make none; lines without
a usable rule give an empty list. -/
def ofLines? (root : Path) (foldCase : Bool) (lines : List String) : Option RuleList :=
  let rules := lines.filterMap Rule.ofLine?
  if lines.isEmpty || !canBuild rules then none
  else some ⟨⟨withoutCurrent root.bytes⟩, foldCase, rules⟩

private def dropBytes? (front bytes : Bytes) : Option Bytes :=
  if front.isPrefixOf bytes then some (bytes.drop front.length) else none

/-- The path as rules see it: without the spelling of the root in front. -/
def below (list : RuleList) (path : Path) : Path :=
  let bytes := withoutCurrent path.bytes
  if list.root.Same ⟨[dot]⟩ || !bytes.contains slash then ⟨bytes⟩
  else
    match dropBytes? list.root.bytes bytes with
    | none => ⟨bytes⟩
    | some rest => ⟨(dropBytes? [slash] rest).getD rest⟩

private theorem withoutCurrent_of_slash (rest : Bytes) :
    withoutCurrent (slash :: rest) = slash :: rest := rfl

private theorem dropBytes?_append (front rest : Bytes) :
    dropBytes? front (front ++ rest) = some rest := by
  simp [dropBytes?]

theorem root_of_ofLines? {root : Path} (absolute : root.isAbsolute) {foldCase : Bool}
    {lines : List String} {list : RuleList} (made : ofLines? root foldCase lines = some list) :
    list.root = root := by
  obtain ⟨rest, text⟩ := (Path.isAbsolute_iff root).mp absolute
  unfold ofLines? at made
  dsimp only at made
  split at made
  · cases made
  · cases made
    rw [text, withoutCurrent_of_slash, ← text]

/-- What rules see of a path that begins with the spelling of an absolute root. -/
theorem bytes_below {list : RuleList} (absolute : list.root.isAbsolute) {path : Path}
    {rest : Bytes} (text : path.bytes = list.root.bytes ++ rest) :
    (list.below path).bytes = if rest.head? = some slash then rest.tail else rest := by
  obtain ⟨inside, root⟩ := (Path.isAbsolute_iff list.root).mp absolute
  have other : ¬ list.root.Same ⟨[dot]⟩ := by
    have current : (⟨[dot]⟩ : Path).components = [.current] := by decide
    rw [Path.Same, Path.components, if_pos absolute, current]
    intro same
    cases same
  have slashes : path.bytes.contains slash := by
    rw [text, root]
    simp
  have whole : withoutCurrent path.bytes = path.bytes := by
    rw [text, root, List.cons_append, withoutCurrent_of_slash]
  have dropped : dropBytes? list.root.bytes path.bytes = some rest := by
    rw [text, dropBytes?_append]
  unfold below
  dsimp only
  rw [whole, dropped, if_neg (by simp only [other, slashes]; decide)]
  cases rest with
  | nil => rfl
  | cons c rest =>
      by_cases first : slash = c
      · simp [dropBytes?, ← first]
      · simp [dropBytes?, first, Ne.symm first]

def verdict? (list : RuleList) (isDirectory : Bool) (path : Path) : Option Bool :=
  (list.rules.reverse.find? fun rule => rule.applies list.foldCase isDirectory path.bytes).map
    fun rule => !rule.whitelisted

def ancestors (path : Path) : List Path :=
  climb path.components.length path
where
  climb : Nat → Path → List Path
    | 0, _ => []
    | count + 1, path =>
        match path.parent? with
        | none => []
        | some parent => parent :: climb count parent

/-- Whether a file is ignored. There is no answer for a path that is still
absolute once the root is taken off. -/
def ignores? (list : RuleList) (path : Path) : Option Bool :=
  if list.rules.isEmpty then some false
  else
    let path := list.below path
    if path.isAbsolute then none
    else
      let found := (list.verdict? false path).or
        ((ancestors path).findSome? (list.verdict? true))
      some (found.getD false)

end RuleList

end ShadowCheck.Filter
