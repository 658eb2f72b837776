import ShadowCheck.Text.Bytes

/-!
Paths as they are spelled. A path is any bytes, those of a text or not; its meaning
is the list of its components. Empty segments and `.` segments after the first place
have no component, so several spellings share one component list; `..` is a component
of its own.
-/

namespace ShadowCheck

inductive Component
  | root
  | current
  | parent
  | name (bytes : Bytes)
deriving DecidableEq, Repr

namespace Component

def bytes : Component → Bytes
  | root => [slash]
  | current => [dot]
  | parent => [dot, dot]
  | name bytes => bytes

def isName : Component → Bool
  | name _ => true
  | _ => false

/-- Orders components: the root, `.`, `..`, then names by their bytes. -/
def key : Component → List Nat
  | root => [0]
  | current => [1]
  | parent => [2]
  | name bytes => 3 :: bytes.map UInt8.toNat

/-- The component that a segment stands for after the first place. -/
def ofSegment? (segment : Bytes) : Option Component :=
  if segment = [] ∨ segment = [dot] then none
  else if segment = [dot, dot] then some parent
  else some (name segment)

end Component

structure Path where
  ofBytes ::
  bytes : Bytes
deriving DecidableEq, Repr, Inhabited

namespace Path

/-- The path that a text spells. -/
def mk (text : String) : Path :=
  ⟨text⟩

/-- The text that a path is shown as. Paths that no text spells may be shown alike. -/
def text (path : Path) : String :=
  path.bytes.text

/-- The pieces of a spelling between its slashes; never empty. -/
def segments : Bytes → List Bytes
  | [] => [[]]
  | c :: rest =>
      if c = slash then [] :: segments rest
      else match segments rest with
        | [] => [[c]]
        | first :: others => (c :: first) :: others

def unsegment (parts : List Bytes) : Bytes :=
  [slash].intercalate parts

theorem segments_slash (rest : Bytes) : segments (slash :: rest) = [] :: segments rest :=
  if_pos rfl

theorem segments_ne_nil (bytes : Bytes) : segments bytes ≠ [] := by
  fun_cases segments bytes <;> simp

theorem unsegment_segments (bytes : Bytes) : unsegment (segments bytes) = bytes := by
  unfold unsegment
  fun_induction segments bytes with
  | case1 => rfl
  | case2 rest ih =>
      obtain ⟨first, others, found⟩ := List.exists_cons_of_ne_nil (segments_ne_nil rest)
      rw [found] at ih ⊢
      simpa using ih
  | case3 _ rest _ found => exact absurd found (segments_ne_nil rest)
  | case4 c rest _ first others found ih =>
      rw [found] at ih
      cases others <;> simp_all

def isAbsolute (path : Path) : Bool :=
  path.bytes.head? == some slash

theorem isAbsolute_iff (path : Path) :
    path.isAbsolute ↔ ∃ rest, path.bytes = slash :: rest := by
  unfold isAbsolute
  cases path.bytes with
  | nil => simp
  | cons c rest => simp

/-- Whether a relative path begins with a `.` segment. -/
def isDotted (path : Path) : Bool :=
  (segments path.bytes).head? == some [dot]

theorem isDotted_iff (path : Path) :
    path.isDotted ↔ ∃ others, segments path.bytes = [dot] :: others := by
  rw [isDotted, beq_iff_eq, List.head?_eq_some_iff]

theorem isDotted_of_isAbsolute {path : Path} (absolute : path.isAbsolute) :
    path.isDotted = false := by
  obtain ⟨rest, text⟩ := (isAbsolute_iff path).mp absolute
  rw [isDotted, text, segments_slash]
  rfl

/-- The components of a path after the first place. -/
def below (path : Path) : List Component :=
  (segments path.bytes).filterMap Component.ofSegment?

def components (path : Path) : List Component :=
  if path.isAbsolute then .root :: path.below
  else if path.isDotted then .current :: path.below
  else path.below

def ofComponents : List Component → Path
  | .root :: rest => ⟨slash :: unsegment (rest.map (·.bytes))⟩
  | rest => ⟨unsegment (rest.map (·.bytes))⟩

/-- Two spellings of the same component list. -/
def Same (left right : Path) : Prop :=
  left.components = right.components

instance (left right : Path) : Decidable (left.Same right) :=
  inferInstanceAs (Decidable (left.components = right.components))

theorem Same.refl (path : Path) : path.Same path :=
  rfl

theorem Same.symm {left right : Path} (h : left.Same right) : right.Same left :=
  Eq.symm h

theorem Same.trans {left middle right : Path} (first : left.Same middle)
    (second : middle.Same right) : left.Same right :=
  Eq.trans first second

def key (path : Path) : List (List Nat) :=
  path.components.map Component.key

/-- Component by component; a path stands before the paths that go on from it. -/
def le (left right : Path) : Bool :=
  !right.key.lex left.key fun first second => first.lex second Nat.blt

def startsWith (path directory : Path) : Bool :=
  directory.components.isPrefixOf path.components

/-- Keeps the first of several spellings of one component list. -/
def distinct : List Path → List Path
  | [] => []
  | path :: rest => path :: (distinct rest).filter fun other => ¬ path.Same other

theorem distinct_sublist (paths : List Path) : (distinct paths).Sublist paths := by
  induction paths with
  | nil => exact .slnil
  | cons first rest ih => exact .cons_cons first (List.filter_sublist.trans ih)

theorem mem_of_mem_distinct {path : Path} {paths : List Path} (h : path ∈ distinct paths) :
    path ∈ paths :=
  (distinct_sublist paths).subset h

theorem exists_mem_distinct {path : Path} {paths : List Path} (h : path ∈ paths) :
    ∃ other ∈ distinct paths, path.Same other := by
  induction paths with
  | nil => cases h
  | cons first rest ih =>
      by_cases same : path.Same first
      · exact ⟨first, List.mem_cons_self, same⟩
      · have below : path ∈ rest := by
          rcases List.mem_cons.mp h with rfl | h
          · exact absurd (Same.refl _) same
          · exact h
        obtain ⟨other, found, sameOther⟩ := ih below
        refine ⟨other, List.mem_cons_of_mem _ (List.mem_filter.mpr ⟨found, ?_⟩), sameOther⟩
        simpa using fun clash : first.Same other => same (sameOther.trans clash.symm)

theorem pairwise_distinct (paths : List Path) :
    (distinct paths).Pairwise fun left right => ¬ left.Same right := by
  induction paths with
  | nil => exact .nil
  | cons first rest ih =>
      refine .cons (fun other found => ?_) (ih.sublist List.filter_sublist)
      simpa using (List.mem_filter.mp found).2

/-- Appends a relative path with one slash between; an absolute one stands alone. -/
def join (base path : Path) : Path :=
  if path.isAbsolute then path
  else if base.bytes.getLast?.all (· == slash) then ⟨base.bytes ++ path.bytes⟩
  else ⟨base.bytes ++ slash :: path.bytes⟩

/-- Removes the last segment that has a component, and the bare ones around it. -/
private def dropLastSegment? (parts : List Bytes) : Option (List Bytes) :=
  let isBare := fun part => (Component.ofSegment? part).isNone
  match parts.reverse.dropWhile isBare with
  | [] => none
  | _ :: before => some (before.dropWhile isBare).reverse

private theorem filterMap_dropWhile (parts : List Bytes) :
    (parts.dropWhile fun part => (Component.ofSegment? part).isNone).filterMap
      Component.ofSegment? = parts.filterMap Component.ofSegment? := by
  induction parts with
  | nil => rfl
  | cons part rest ih =>
      cases read : Component.ofSegment? part with
      | none => rw [List.dropWhile_cons_of_pos (by simp [read]), ih, List.filterMap_cons_none read]
      | some component => rw [List.dropWhile_cons_of_neg (by simp [read])]

private theorem filterMap_of_dropWhile {parts before : List Bytes} {last : Bytes}
    (found : (parts.reverse.dropWhile fun part => (Component.ofSegment? part).isNone) =
      last :: before) :
    ∃ component, parts.filterMap Component.ofSegment? =
      (before.filterMap Component.ofSegment?).reverse ++ [component] := by
  have kept := filterMap_dropWhile parts.reverse
  have named := List.head?_dropWhile_not (fun part => (Component.ofSegment? part).isNone)
    parts.reverse
  rw [found] at kept named
  obtain ⟨component, read⟩ := Option.isSome_iff_exists.mp (by simpa using named)
  rw [List.filterMap_cons_some read, List.filterMap_reverse] at kept
  exact ⟨component, by rw [← List.reverse_cons, kept, List.reverse_reverse]⟩

private theorem dropLastSegment?_eq_none_iff (parts : List Bytes) :
    dropLastSegment? parts = none ↔ parts.filterMap Component.ofSegment? = [] := by
  unfold dropLastSegment?
  dsimp only
  split
  · rename_i found
    have kept := filterMap_dropWhile parts.reverse
    rw [found, List.filterMap_reverse] at kept
    exact iff_of_true rfl (List.reverse_eq_nil_iff.mp kept.symm)
  · rename_i found
    obtain ⟨component, whole⟩ := filterMap_of_dropWhile found
    rw [whole]
    exact iff_of_false (Option.some_ne_none _)
      (List.append_ne_nil_of_right_ne_nil _ (List.cons_ne_nil _ _))

private theorem filterMap_of_dropLastSegment? {parts kept : List Bytes}
    (dropped : dropLastSegment? parts = some kept) :
    (∀ part ∈ kept, part ∈ parts) ∧
      kept.filterMap Component.ofSegment? = (parts.filterMap Component.ofSegment?).dropLast := by
  unfold dropLastSegment? at dropped
  dsimp only at dropped
  split at dropped
  · cases dropped
  · rename_i last before found
    cases dropped
    have inside : ∀ part ∈ before, part ∈ parts := by
      intro part here
      apply List.mem_reverse.mp
      apply List.dropWhile_subset
      rw [found]
      exact List.mem_cons_of_mem last here
    obtain ⟨component, whole⟩ := filterMap_of_dropWhile found
    refine ⟨fun part left => ?_, ?_⟩
    · exact inside part (List.dropWhile_subset _ (List.mem_reverse.mp left))
    · rw [List.filterMap_reverse, filterMap_dropWhile, whole, List.dropLast_concat]

private theorem dropLastSegment?_append {parts : List Bytes} {last : Bytes}
    (named : ∀ part ∈ parts ++ [last], (Component.ofSegment? part).isSome) :
    dropLastSegment? (parts ++ [last]) = some parts := by
  have kept : ∀ part rest, part ∈ parts ++ [last] →
      (part :: rest).dropWhile (fun part => (Component.ofSegment? part).isNone) = part :: rest := by
    intro part rest found
    apply List.dropWhile_cons_of_neg
    rw [Bool.not_eq_true, ← Option.not_isSome, named part found]
    rfl
  have before : parts.reverse.dropWhile (fun part => (Component.ofSegment? part).isNone) =
      parts.reverse := by
    cases same : parts.reverse with
    | nil => rfl
    | cons part rest =>
        apply kept
        apply List.mem_append_left
        rw [← List.mem_reverse, same]
        exact List.mem_cons_self
  unfold dropLastSegment?
  dsimp only
  rw [List.reverse_append, List.reverse_singleton, List.singleton_append,
    kept last _ (List.mem_append_right _ List.mem_cons_self)]
  dsimp only
  rw [before, List.reverse_reverse]

private theorem prefix_of_dropLastSegment? {parts kept : List Bytes}
    (dropped : dropLastSegment? parts = some kept) : kept <+: parts := by
  unfold dropLastSegment? at dropped
  dsimp only at dropped
  split at dropped
  · cases dropped
  · rename_i last before found
    cases dropped
    have inside : last :: before <:+ parts.reverse := found ▸ List.dropWhile_suffix _
    rw [← List.reverse_suffix, List.reverse_reverse]
    exact ((List.dropWhile_suffix _).trans (List.suffix_cons last before)).trans inside

private theorem dropLastSegment?_cases (parts : List Bytes) :
    (dropLastSegment? parts = none ∧ parts.filterMap Component.ofSegment? = []) ∨
      ∃ kept, dropLastSegment? parts = some kept ∧ kept <+: parts ∧
        parts.filterMap Component.ofSegment? ≠ [] ∧
        kept.filterMap Component.ofSegment? =
          (parts.filterMap Component.ofSegment?).dropLast := by
  cases dropped : dropLastSegment? parts with
  | none => exact .inl ⟨rfl, (dropLastSegment?_eq_none_iff parts).mp dropped⟩
  | some kept =>
      refine .inr ⟨kept, rfl, prefix_of_dropLastSegment? dropped, ?_,
        (filterMap_of_dropLastSegment? dropped).2⟩
      intro empty
      rw [(dropLastSegment?_eq_none_iff parts).mpr empty] at dropped
      cases dropped

/-- The spelling without its last component; the root and the empty path have none. -/
def parent? (path : Path) : Option Path :=
  if path.isAbsolute then
    (dropLastSegment? (segments path.bytes.tail)).map fun kept => ⟨slash :: unsegment kept⟩
  else if path.isDotted then
    match dropLastSegment? (segments path.bytes).tail with
    | some kept => some ⟨unsegment ([dot] :: kept)⟩
    | none => some ⟨[]⟩
  else (dropLastSegment? (segments path.bytes)).map fun kept => ⟨unsegment kept⟩

/-- A relative path whose segments all have components loses its last one. -/
theorem parent?_of_segments {path : Path} {parts : List Bytes} {last : Bytes}
    (relative : path.isAbsolute = false) (text : segments path.bytes = parts ++ [last])
    (named : ∀ part ∈ parts ++ [last], (Component.ofSegment? part).isSome) :
    path.parent? = some ⟨unsegment parts⟩ := by
  have plain : ¬ path.isDotted := by
    rw [isDotted_iff]
    rintro ⟨others, dotted⟩
    have bare := named [dot] (by rw [← text, dotted]; exact List.mem_cons_self)
    cases bare
  rw [parent?, relative, if_neg Bool.false_ne_true, if_neg plain, text,
    dropLastSegment?_append named]
  rfl

private theorem parent?_of_slash {path : Path} {rest : Bytes}
    (text : path.bytes = slash :: rest) :
    path.parent? = (dropLastSegment? (segments rest)).map fun kept =>
      ⟨slash :: unsegment kept⟩ := by
  rw [parent?, if_pos ((isAbsolute_iff path).mpr ⟨rest, text⟩), text, List.tail_cons]

theorem parent?_eq_none_iff {path : Path} {rest : Bytes} (text : path.bytes = slash :: rest) :
    path.parent? = none ↔ (segments rest).filterMap Component.ofSegment? = [] := by
  rw [parent?_of_slash text, Option.map_eq_none_iff]
  exact dropLastSegment?_eq_none_iff _

theorem exists_of_parent? {path parent : Path} {rest : Bytes}
    (text : path.bytes = slash :: rest) (found : path.parent? = some parent) :
    ∃ kept, parent.bytes = slash :: unsegment kept ∧
      (∀ part ∈ kept, part ∈ segments rest) ∧
      kept.filterMap Component.ofSegment? =
        ((segments rest).filterMap Component.ofSegment?).dropLast := by
  rw [parent?_of_slash text] at found
  obtain ⟨kept, dropped, rfl⟩ := Option.map_eq_some_iff.mp found
  exact ⟨kept, rfl, filterMap_of_dropLastSegment? dropped⟩

/-- A path that begins with a `.` is spelled so without its last component too, unless the
`.` is all that it has. -/
theorem parent?_of_dotted {path : Path} {others : List Bytes}
    (text : segments path.bytes = [dot] :: others) :
    (path.parent? = some ⟨[]⟩ ∧ others.filterMap Component.ofSegment? = []) ∨
      ∃ kept, path.parent? = some ⟨unsegment ([dot] :: kept)⟩ ∧
        kept <+: others ∧ others.filterMap Component.ofSegment? ≠ [] ∧
        kept.filterMap Component.ofSegment? =
          (others.filterMap Component.ofSegment?).dropLast := by
  have dotted := (isDotted_iff path).mpr ⟨others, text⟩
  have relative : ¬ path.isAbsolute := fun absolute => by
    rw [isDotted_of_isAbsolute absolute] at dotted
    cases dotted
  rw [parent?, if_neg relative, if_pos dotted, text, List.tail_cons]
  rcases dropLastSegment?_cases others with ⟨dropped, bare⟩ | ⟨kept, dropped, parts⟩
  · rw [dropped]
    exact .inl ⟨rfl, bare⟩
  · rw [dropped]
    exact .inr ⟨kept, rfl, parts⟩

theorem parent?_of_plain {path : Path} (relative : path.isAbsolute = false)
    (plain : path.isDotted = false) :
    (path.parent? = none ∧ path.below = []) ∨
      ∃ kept, path.parent? = some ⟨unsegment kept⟩ ∧
        kept <+: segments path.bytes ∧ path.below ≠ [] ∧
        kept.filterMap Component.ofSegment? = path.below.dropLast := by
  rw [parent?, relative, if_neg Bool.false_ne_true, plain, if_neg Bool.false_ne_true]
  rcases dropLastSegment?_cases (segments path.bytes) with
    ⟨dropped, bare⟩ | ⟨kept, dropped, parts⟩
  · rw [dropped]
    exact .inl ⟨rfl, bare⟩
  · rw [dropped]
    exact .inr ⟨kept, rfl, parts⟩

def fileName? (path : Path) : Option Bytes :=
  match path.components.getLast? with
  | some (.name bytes) => some bytes
  | _ => none

/-- Replaces the last name, or appends one where the path does not end in a name. -/
def withFileName (path : Path) (name : Bytes) : Path :=
  if path.fileName?.isSome then (path.parent?.getD path).join ⟨name⟩
  else path.join ⟨name⟩

/-- Splits a file name at its last dot; a leading dot starts no extension. -/
def splitExtension (name : Bytes) : Bytes × Option Bytes :=
  let reversed := name.reverse
  match reversed.dropWhile (· != dot) with
  | [] => (name, none)
  | [_] => (name, none)
  | _ :: stem => (stem.reverse, some (reversed.takeWhile (· != dot)).reverse)

/-- The name that a suffix makes of a file name. It is made of what the parts of the name are
shown as, so names that are no texts may be given the same new name. -/
def suffixed (suffix : String) (name : Bytes) : String :=
  match splitExtension name with
  | (stem, some extension) => stem.text ++ "." ++ suffix ++ "." ++ extension.text
  | (stem, none) => stem.text ++ "." ++ suffix

/-- Puts a suffix before the extension. -/
def withSuffix (path : Path) (suffix : String) : Path :=
  path.withFileName (suffixed suffix (path.fileName?.getD []))

end Path

end ShadowCheck
